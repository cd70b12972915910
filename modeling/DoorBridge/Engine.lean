import DoorBridge.Arbiter
import DoorBridge.Countdown
import DoorBridge.Door
import DoorBridge.Frame.Reader
import DoorBridge.Identity
import DoorBridge.Message
import DoorBridge.Queue
import DoorBridge.Record.Reader
import DoorBridge.Recovery

/-!
# Engine — everything the bridge knows about its door

The engine takes received bytes, control requests, timer ticks and beam transitions one at a time, each with the
time in milliseconds, and is serviced after each of them.  `Engine.events` is the row of everything reported so
far: notifications and log records in their order.
-/

namespace DoorBridge

/-- Why an engine operation failed.  None is fatal. -/
inductive EngineError where
  /-- A bad or abandoned inbound frame. -/
  | framing
  /-- A packet that no frame can carry. -/
  | encodingRange
  /-- The bus was taken when a transmission started. -/
  | collision
  /-- The queue has no room for a sequence. -/
  | queueFull
  /-- Storage failed; the work goes on in memory. -/
  | persistence (cause : StorageError)
  /-- A write took longer than it may. -/
  | writeTimeout
  deriving DecidableEq, Repr

namespace EngineError

def text : EngineError → String
  | framing => "Framing"
  | encodingRange => "EncodingRange"
  | collision => "Collision"
  | queueFull => "QueueFull"
  | persistence cause => s!"Persistence({cause.name})"
  | writeTimeout => "UartWriteTimeout"

def ofFrame (_ : FrameError) : EngineError := framing

def ofRecord (_ : RecordError) : EngineError := framing

def ofCodec : CodecError → EngineError
  | .framing _ => framing
  | .encodingRange => encodingRange

def ofSend : SendError → EngineError
  | .collision => collision
  | .writeTimeout => writeTimeout

def isRetryable : EngineError → Bool
  | collision | writeTimeout => true
  | _ => false

end EngineError

structure Pending where
  /-- The counter has to be saved even if few codes were used. -/
  save : Bool := false
  hasMotion : Bool := false
  reset : Bool := false
  restart? : Option RestartReason := none
  deriving DecidableEq, Repr

structure Engine where
  settings : Settings
  identity : Identity := {}
  arbiter : Arbiter
  queue : Queue := {}
  door : Door := {}
  countdown : Countdown := {}
  recovery : Recovery
  pending : Pending := {}
  /-- Whether a light packet went out after the last status reply. -/
  lightUnconfirmed : Bool := false
  frames : FrameReader := {}
  records : RecordReader := {}
  debounce : Debounce := {}
  /-- Everything reported so far. -/
  events : List Event := []
  deriving DecidableEq, Repr

namespace Engine

def new (settings : Settings) : Engine where
  settings := settings
  arbiter := { security := settings.security }
  recovery := { window := settings.recoveryWindow.toNat }

def isPlus2 (e : Engine) : Bool := e.settings.security = .plus2

def emit (e : Engine) (events : List Event) : Engine := { e with events := e.events ++ events }

/-- The engine after an observation of the door. -/
def see (e : Engine) (o : Observation) : Engine := { e with door := o.door, events := e.events ++ o.events }

/-- Result and engine of an operation that can be refused. -/
abbrev Result := Except EngineError Unit × Engine

/-- Queues a sequence whole, or drops it if it does not fit. -/
def enqueue (e : Engine) (actions : List PacketAction) : Result :=
  match e.queue.push? actions with
  | some queue => (.ok (), { e with queue })
  | none =>
    (.error .queueFull, e.emit [.warn s!"Transmit queue full, dropping {actions.length} packets"])

/-! ## Start -/

/-- The packets that open a conversation with a Security+ 2.0 opener.  Both use up a code, so that the opener sees
the counter move. -/
def greeting : List PacketAction := [⟨.getOpenings, true, 0⟩, ⟨.getStatus, true, 0⟩]

/-- Loads what is known of a motion sensor from earlier runs. -/
def loadMotion (e : Engine) (found : Except StorageError (List UInt8)) : Option StorageError × Engine :=
  match found with
  | .ok [flag] =>
    if flag = 0 then (none, e)
    else (none, { e.emit [.info "Motion sensor known from a previous run"] with
      door := { e.door with hasMotionSensor := true }
      settings := { e.settings with motionTriggers := e.settings.motionTriggers.set .motion true } })
  | .ok _ => (none, e)
  | .error .notFound => (none, e)
  | .error cause => (some cause, e.emit [.error s!"Failed to read motion flag: {cause.name}"])

/-- Result of the steps of a start, of which the first failure counts. -/
def startResult (failure : Option StorageError) : Except EngineError Unit :=
  match failure with
  | some cause => .error (.persistence cause)
  | none => .ok ()

variable {σ : Type} [Storage σ]

/-- Loads the identity, which only Security+ 2.0 has. -/
def loadIdentity (e : Engine) (store : σ) (entropy : UInt32) : Option StorageError × Engine × σ :=
  if e.isPlus2 then
    let o := Identity.restore store entropy
    let e := { e with identity := o.identity }
    (o.failure?, e.emit (o.events ++ [.info s!"Id code {hexText o.identity.idCode.toNat}"]), o.store)
  else (none, e, store)

/-- Restores what is stored and queues the greeting.  Storage failures are reported, and the engine can be used
either way. -/
def start (e : Engine) (store : σ) (entropy : UInt32) (now : Nat) : Except EngineError Unit × Engine × σ :=
  let e := e.emit [.info
    s!"Starting Security+ {e.settings.security.number} bridge, ttc {e.settings.ttcSeconds.toNat} s"]
  let (failure, e, store) := e.loadIdentity store entropy
  let (motionFailure, e) := e.loadMotion (Storage.read store .hasMotion 1)
  let (queued, e) := if e.isPlus2 then e.enqueue greeting else (.ok (), e)
  match queued with
  | .error cause => (.error cause, e, store)
  | .ok () =>
    (startResult (failure.or motionFailure), { e with arbiter := e.arbiter.noteRx now }, store)

end Engine

end DoorBridge
