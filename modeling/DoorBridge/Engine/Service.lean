import DoorBridge.Engine.Receive

/-!
# Engine.Service — timeouts, transmissions and storage

After every event the engine is serviced: `Engine.tick` ends what is overdue, `Engine.transmitNext` sends at most
one packet, `Engine.flush` writes what has to survive.  `Engine.nextWake?` says when there is more to do.
-/

namespace DoorBridge

def Packet.text : Packet → String
  | status s => s!"Status(StatusData \x7b door: {s.door.name}, light: {s.light}, lock: {s.lock}, " ++
      s!"obstructed: {s.obstructed}, learn: {s.learn} \x7d)"
  | getStatus => "GetStatus"
  | getOpenings => "GetOpenings"
  | doorAction action pressed id =>
    s!"DoorAction(DoorActionData \x7b action: {action.name}, pressed: {pressed}, id: {id.toNat} \x7d)"
  | light command pressed => s!"Light(LightData \x7b state: {command.name}, pressed: {pressed} \x7d)"
  | lock command pressed => s!"Lock(LockData \x7b state: {command.name}, pressed: {pressed} \x7d)"
  | motion => "Motion"
  | unknown command data => s!"Unknown \x7b command: {command.toNat}, data: {data.toNat} \x7d"

namespace Engine

/-! ## Timeouts -/

/-- Ends a motion report and partial frames and records that are overdue. -/
def tick (e : Engine) (now : Nat) : Engine :=
  let e := e.see (e.door.expireMotion now)
  let e := { (if e.frames.isOverdue now then
      e.emit [.debug s!"Dropped partial frame: {FrameError.timeout.name}"] else e) with
    frames := e.frames.expire now }
  { (if e.records.isOverdue now then
      e.emit [.debug s!"Dropped partial record: {RecordError.timeout.name}"] else e) with
    records := e.records.expire now }

/-- The earlier of two times, either of which may be missing. -/
def earlier? : Option Nat → Option Nat → Option Nat
  | some a, some b => some (min a b)
  | some a, none => some a
  | none, b => b

/-- Next instant at which servicing has work to do. -/
def nextWake? (e : Engine) (now : Nat) : Option Nat :=
  let send := if e.queue.isEmpty then none else e.arbiter.readyAt? now
  let reader := match e.settings.security with
    | .plus2 => e.frames.deadline?
    | .plus1 => e.records.deadline?
  earlier? (earlier? send e.door.motionDeadline?) (reader.map (· + 1))

/-! ## Transmission -/

/-- The bytes that carry a packet: a frame, or the byte of a button edge. -/
def encode (e : Engine) (packet : Packet) : Except EngineError (List UInt8) :=
  match e.settings.security with
  | .plus2 =>
    match Message.encode ⟨packet, e.identity.rolling, e.identity.idCode⟩ with
    | .ok frame => .ok frame.bytes
    | .error cause => .error (.ofCodec cause)
  | .plus1 =>
    match Button.ofPacket? packet with
    | some b => .ok [b.byte]
    | none => .error .encodingRange

/-- Whether sending a packet changes the light: a release of a Security+ 1.0 button does not. -/
def changesLight (security : Security) : Packet → Bool
  | .light _ pressed => pressed || security == .plus2
  | _ => false

def sentEvent (e : Engine) (packet : Packet) (frame : List UInt8) : Event :=
  match e.settings.security with
  | .plus2 => .info s!"TX {packet.name} rolling {e.identity.rolling}"
  | .plus1 => .info s!"TX byte {hexText (frame.headD 0).toNat}"

/-- The engine after its front packet was sent. -/
def afterSending (e : Engine) (action : PacketAction) (frame : List UInt8) : Engine :=
  { e.emit [e.sentEvent action.packet frame] with
    queue := e.queue.dropFront
    lightUnconfirmed := e.lightUnconfirmed || changesLight e.settings.security action.packet
    identity := if e.isPlus2 && action.usesCode then e.identity.step else e.identity }

variable {β : Type} [Bus β]

/-- Sends the front packet, if the bus allows it; the answer is the packet that went out.  A packet that cannot be
encoded is dropped, one that collides stays at the front. -/
def transmitNext (e : Engine) (bus : β) (now : Nat) : Except EngineError (Option Packet) × Engine × β :=
  match e.queue.front? with
  | none => (.ok none, e, bus)
  | some action =>
    if !e.arbiter.canTransmit now then (.ok none, e, bus)
    else match e.encode action.packet with
      | .error cause =>
        (.error cause,
          { e.emit [.warn s!"Dropping unencodable {action.packet.text}"] with queue := e.queue.dropFront }, bus)
      | .ok frame =>
        let (sent, arbiter, bus) := e.arbiter.transmit frame now action.postDelay bus
        let e := { e with arbiter }
        match sent with
        | .ok () => (.ok (some action.packet), e.afterSending action frame, bus)
        | .error cause =>
          (.error (.ofSend cause),
            e.emit [.warn s!"Transmit of {action.packet.name} failed: {cause.name}, will retry"], bus)

/-! ## Storage -/

variable {σ : Type} [Storage σ]

def resetKeys : List StorageKey := [.idCode, .rollingCode, .hasMotion]

/-- Removes a record; that there is none to remove is no failure. -/
def clearRecord (store : σ) (key : StorageKey) : Option StorageError × σ :=
  match Storage.remove store key with
  | .ok store => (none, store)
  | .error .notFound => (none, store)
  | .error cause => (some cause, store)

/-- Removes records in turn; the last failure is reported. -/
def clearRecords (store : σ) : List StorageKey → Option StorageError × List Event × σ
  | [] => (none, [], store)
  | key :: keys =>
    let (failure, store) := clearRecord store key
    let events := match failure with
      | some cause => [.error s!"Failed to clear {key.name}: {cause.name}"]
      | none => []
    let (later, laterEvents, store) := clearRecords store keys
    (later.or failure, events ++ laterEvents, store)

/-- Carries out a reset: the identity is cleared and a restart is asked for. -/
def flushReset (e : Engine) (store : σ) : Option StorageError × Engine × σ :=
  let (failure, events, store) := clearRecords store resetKeys
  (failure, { e.emit (events ++ [.note (.restartRequested .reset)]) with pending := {} }, store)

def flushMotion (e : Engine) (store : σ) : Option StorageError × Engine × σ :=
  if e.pending.hasMotion then
    let e := { e with pending := { e.pending with hasMotion := false } }
    match Storage.write store .hasMotion [1] with
    | .ok store => (none, e, store)
    | .error cause => (some cause, e.emit [.error s!"Failed to store motion flag: {cause.name}"], store)
  else (none, e, store)

/-- Saves the counter, if enough codes were used or a restart asks for it. -/
def flushCounter (e : Engine) (store : σ) : Option StorageError × Engine × σ :=
  let forced := e.pending.save
  let e := { e with pending := { e.pending with save := false } }
  if e.isPlus2 && (forced || e.identity.needsSave) then
    let o := e.identity.save store
    (o.failure?, { e.emit o.events with identity := o.identity }, o.store)
  else (none, e, store)

def flushRestart (e : Engine) : Engine :=
  match e.pending.restart? with
  | some reason =>
    { e.emit [.info s!"Requesting restart: {reason.name}", .note (.restartRequested reason)] with
      pending := { e.pending with restart? := none } }
  | none => e

/-- Writes what has to survive and asks for pending restarts; of several failures the last is reported. -/
def flush (e : Engine) (store : σ) : Except EngineError Unit × Engine × σ :=
  if e.pending.reset then
    let (failure, e, store) := e.flushReset store
    (startResult failure, e, store)
  else
    let (motionFailure, e, store) := e.flushMotion store
    let (saveFailure, e, store) := e.flushCounter store
    (startResult (saveFailure.or motionFailure), e.flushRestart, store)

/-- One pass after an event.  Failures are reported where they happen and tried again or dropped. -/
def service (e : Engine) (bus : β) (store : σ) (now : Nat) : Engine × β × σ :=
  let (_, e, bus) := (e.tick now).transmitNext bus now
  let (_, e, store) := e.flush store
  (e, bus, store)

end Engine

end DoorBridge
