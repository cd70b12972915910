import DoorBridge.Board.Indicator
import DoorBridge.Board.Wire
import DoorBridge.Line.Receiver
import DoorBridge.Notification.Announcer
import DoorBridge.Settings.Load

/-!
# Firmware — the tasks on the board

Seven tasks share the board.  `Firmware.boot` is the state before any of them has begun, and `Firmware.step?` is
the next step of one of them: there is none while it waits.  Which task steps when is left to the scheduler.
-/

namespace DoorBridge

/-- State of the task around the engine; times are in microseconds. -/
inductive EngineTask where
  /-- Not begun; the engine is started with this entropy. -/
  | fresh (entropy : UInt32)
  /-- Waiting for something to take, or for an instant. -/
  | waiting (wakeAt? : Option Nat)
  /-- About to restart: waiting for the notifications to be taken, up to a deadline, and next looking at an instant. -/
  | restarting (deadline next : Nat)
  /-- The chip was reset. -/
  | ended
  deriving DecidableEq, Repr

/-- The tasks, in the order in which they are polled. -/
inductive Task where
  | receiver | engine | beat | beamCounter | beamSampler | announcer | indicator
  deriving DecidableEq, Repr

def Task.all : List Task := [receiver, engine, beat, beamCounter, beamSampler, announcer, indicator]

/-- The board and the states of the tasks; a task that has not begun has no state. -/
structure Firmware where
  board : Board
  engine : Engine
  engineTask : EngineTask
  /-- Whether the beat was last told to run. -/
  armed : Bool := false
  receiver? : Option Receiver := none
  beat? : Option Beat := none
  beamSampler? : Option BeamSampler := none
  announcing : Bool := false
  indicator? : Option Indicator := none

namespace Firmware

/-- The firmware after a change to its board. -/
def onBoard (f : Firmware) (change : Board → Board) : Firmware := { f with board := change f.board }

def report (f : Firmware) (e : Event) : Firmware := f.onBoard (·.report e)

/-- Reports what the engine has to tell. -/
def settle (f : Firmware) : Firmware :=
  { f with board := f.board.reportAll f.engine.events, engine := { f.engine with events := [] } }

def resetAt? (f : Firmware) : Option Nat := if f.engineTask = .ended then some f.board.now else none

/-! ## Boot -/

/-- Seed of an identity made at a given time: the id of the chip, folded, with the clock mixed in. -/
def entropy (id : UInt64) (now : Nat) : UInt32 := (id ^^^ (id >>> 32) ^^^ .ofNat now).toUInt32

/-- The id of the chip; zero if it cannot be read, which is logged. -/
def chipId (store : ChipStore) : UInt64 × List Event :=
  match store.uniqueId with
  | .ok id => (id, [])
  | .error cause => (0, [.warn s!"Flash unique id unavailable: {cause.name}"])

/-- The firmware just after boot, on a board with a given chip, levels of its inputs and a plan. -/
def boot (store : ChipStore) (busLevel beamLevel : Bool) (plan : List Stimulus) : Firmware :=
  let (settings, loading) := Settings.boot store
  let (id, identifying) := chipId store
  let line := settings.security.line
  let board : Board := { store, busLevel, beamLevel, plan, line }
  let board := board.reportAll
    ([.info "Portcullis firmware starting...", .info "Peripherals initialized"] ++ loading ++ identifying ++
      [.info s!"Door bus at {line.baud} baud, inverted {line.invert}", .info "Edge task started"])
  { board := (Transmitter.setBreak line false board).report (.info "All tasks spawned, firmware running")
    engine := .new settings
    engineTask := .fresh (entropy id board.now) }

/-! ## The receiver -/

/-- Puts a received byte on the queue to the engine. -/
def pushByte (b : Board) (byte : UInt8) : Board :=
  let b := b.report (.trace s!"RX {hexText byte.toNat}")
  let b := match Board.offer? byteCapacity b.bytes ⟨byte, b.millis⟩ with
    | some bytes => { b with bytes }
    | none => b.report (.warn "RX queue full, dropping byte")
  { b with traffic := true }

def stepReceiver? (f : Firmware) : Option Firmware :=
  match f.receiver? with
  | none =>
    some ({ f with receiver? := some (.new f.board.line f.board.now) }.report
      (.info s!"Reader task started at {f.board.line.baud} baud"))
  | some r =>
    (r.step? f.board.now f.board.edges).map fun ((byte, r), edges) =>
      let board := { f.board with edges, receiving := r.decoder.isBusy }
      { f with receiver? := some r, board := byte.elim board (pushByte board) }

/-! ## The engine -/

/-- A servicing pass over the board, reporting as it goes. -/
def service (f : Firmware) : Firmware :=
  let now := f.board.millis
  let f := settle { f with engine := f.engine.tick now }
  let (_, engine, board) := f.engine.transmitNext f.board now
  let f := settle { f with engine, board }
  let (_, engine, store) := f.engine.flush f.board.store
  settle { f with engine, board := { f.board with store } }

/-- Goes to sleep up to the engine's next wake. -/
def sleep (f : Firmware) : Firmware :=
  { f with engineTask := .waiting ((f.engine.nextWake? f.board.millis).map (· * 1000)) }

def startEngine (f : Firmware) (entropy : UInt32) : Firmware :=
  let f := f.report (.info "Comms task started")
  let (started, engine, store) := f.engine.start f.board.store entropy f.board.millis
  let f := settle { f with engine, board := { f.board with store } }
  let f := match started with
    | .ok () => f
    | .error cause => f.report (.warn s!"Startup restore incomplete: {cause.text}")
  f.service.sleep

/-- What the engine would take now, and the board without it. -/
def wake? (b : Board) (wakeAt? : Option Nat) : Option (Wake × Board) :=
  if b.bytes ≠ [] then some (.bytes b.bytes, { b with bytes := [] })
  else match b.requests with
    | r :: requests => some (.request r, { b with requests })
    | [] =>
      if b.signals.raised then some (.beat, { b with signals := { b.signals with raised := false } })
      else match b.obstruction? with
        | some obstructed => some (.obstruction obstructed, { b with obstruction? := none })
        | none => if wakeAt?.any fun t => decide (t ≤ b.now) then some (.timer, b) else none

/-- Tells the beat to run or to stop, if that is news to it. -/
def armBeat (f : Firmware) : Firmware :=
  let active := f.engine.countdown.isActive
  if active = f.armed then f
  else { f with armed := active }.onBoard fun b => { b with signals := { b.signals with order? := some active } }

/-- Longest wait for notifications to be taken before a restart, in microseconds. -/
def restartWait : Nat := 500000

/-- Time between two looks at the notifications before a restart, in microseconds. -/
def restartPoll : Nat := 10000

def restartEvent : RestartReason → Event
  | .softAp => .warn "Setup mode is handled by the network side, plain restart"
  | .reset => .info "Door identity cleared, restarting"

/-- Resets the chip, or waits for notifications to be taken. -/
def awaitRestart (f : Firmware) (deadline : Nat) : Firmware :=
  { f with engineTask :=
      if f.board.publisher.channel ≠ [] ∧ f.board.now < deadline then
        .restarting deadline (f.board.now + restartPoll)
      else .ended }

/-- Prepares a restart if one was asked for, and goes to sleep otherwise. -/
def restartOrSleep (f : Firmware) : Firmware :=
  match f.board.publisher.restart? with
  | some reason =>
    let f := f.onBoard fun b => { b with publisher := { b.publisher with restart? := none } }
    (f.report (restartEvent reason)).awaitRestart (f.board.now + restartWait)
  | none => f.sleep

def takeWake (f : Firmware) (w : Wake) : Firmware :=
  let f := settle { f with engine := f.engine.wake w f.board.millis }
  f.service.armBeat.restartOrSleep

def stepEngine? (f : Firmware) : Option Firmware :=
  match f.engineTask with
  | .fresh entropy => some (f.startEngine entropy)
  | .waiting wakeAt? => (wake? f.board wakeAt?).map fun (w, board) => { f with board }.takeWake w
  | .restarting deadline next => if next ≤ f.board.now then some (f.awaitRestart deadline) else none
  | .ended => none

/-! ## The other tasks -/

def stepBeat? (f : Firmware) : Option Firmware :=
  match f.beat? with
  | none => some ({ f with beat? := some .stopped }.report (.info "TTC task started"))
  | some beat =>
    (beat.step? f.board.now f.board.signals).map fun (beat, signals, events) =>
      { f with beat? := some beat, board := { f.board with signals }.reportAll events }

def stepBeamCounter? (f : Firmware) : Option Firmware :=
  match f.board.beam? with
  | none =>
    some ((f.report (.info "Obstruction pulse task started")).onBoard fun b =>
      { b with beam? := some { level := b.beamLevel } })
  | some c => (c.step? f.board.beamLevel).map fun c => f.onBoard ({ · with beam? := some c })

/-- Makes a transition of the beam known. -/
def showObstruction (b : Board) (obstructed : Bool) : Board :=
  { b.report (BeamSampler.transitionEvent obstructed) with
    obstructionOut := b.obstructionOut.set obstructed b.now, obstruction? := some obstructed }

def stepBeamSampler? (f : Firmware) : Option Firmware :=
  match f.beamSampler? with
  | none => some ({ f with beamSampler? := some (.new f.board.now) }.report (.info "Obstruction sampler started"))
  | some s =>
    (s.step? f.board.now (f.board.beam?.getD {})).map fun (transition, s, c) =>
      let board := { f.board with beam? := some c }
      { f with beamSampler? := some s, board := transition.elim board (showObstruction board) }

def announce (b : Board) (n : Notification) : Board :=
  let b := b.report n.announcement
  { b with doorOut := n.doorLevel?.elim b.doorOut (b.doorOut.set · b.now) }

def stepAnnouncer? (f : Firmware) : Option Firmware :=
  if !f.announcing then some ({ f with announcing := true }.report (.info "Notify task started"))
  else f.board.publisher.receive?.map fun (n, publisher) => f.onBoard fun b => announce { b with publisher } n

/-- Shows the light's level. -/
def showIndicator (f : Firmware) (i : Indicator) : Firmware :=
  { f with indicator? := some i }.onBoard fun b => { b with indicatorOut := b.indicatorOut.set i.level b.now }

def stepIndicator? (f : Firmware) : Option Firmware :=
  match f.indicator? with
  | none => some (f.showIndicator (.new f.engine.settings.ledIdle))
  | some i =>
    (i.step? f.board.now f.board.traffic).map fun (i, traffic) => (f.onBoard ({ · with traffic })).showIndicator i

/-! ## All tasks -/

/-- The next step of a task; there is none while it waits. -/
def step? (f : Firmware) : Task → Option Firmware
  | .receiver => f.stepReceiver?
  | .engine => f.stepEngine?
  | .beat => f.stepBeat?
  | .beamCounter => f.stepBeamCounter?
  | .beamSampler => f.stepBeamSampler?
  | .announcer => f.stepAnnouncer?
  | .indicator => f.stepIndicator?

/-- The instant at which a task goes on by itself. -/
def deadline? (f : Firmware) : Task → Option Nat
  | .receiver => f.receiver?.bind (·.deadline?)
  | .engine =>
    match f.engineTask with
    | .waiting wakeAt? => wakeAt?
    | .restarting _ next => some next
    | _ => none
  | .beat => f.beat?.bind (·.deadline?)
  | .beamSampler => f.beamSampler?.map (·.next)
  | .indicator => f.indicator?.bind (·.deadline?)
  | .beamCounter | .announcer => none

end Firmware

end DoorBridge
