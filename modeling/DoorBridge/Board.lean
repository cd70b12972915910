import DoorBridge.Board.Stimulus
import DoorBridge.Countdown.Beat
import DoorBridge.Engine.Wake
import DoorBridge.Line.Edges
import DoorBridge.Line.Pin
import DoorBridge.Obstruction.Beam

/-!
# Board — the clock, the pins and what the tasks share

A board holds what its tasks see and change: the clock in microseconds, the pins, the flash chip, and the queues
and slots through which the tasks talk.  It also holds what the world is still going to do to it.  Waiting moves the
clock, and everything due on the way happens at its own time.  An edge of the receiving pin is queued at once.
-/

namespace DoorBridge

/-! ## Capacities -/

/-- Edges that the queue from the receiving pin holds. -/
def edgeCapacity : Nat := 950

/-- Bytes that the queue to the engine holds. -/
def byteCapacity : Nat := 256

/-- Requests that wait for the engine at most. -/
def requestCapacity : Nat := 4

/-- A log record with the time it was written. -/
structure LogRecord where
  time : Nat
  level : LogLevel
  text : String
  deriving DecidableEq, Repr

structure Board where
  now : Nat := 0
  /-- What is still to happen, in the order of time. -/
  plan : List Stimulus := []
  line : LineSettings
  store : ChipStore
  busLevel : Bool := false
  beamLevel : Bool := false
  busOut : PinTrace := {}
  obstructionOut : PinTrace := {}
  doorOut : PinTrace := {}
  indicatorOut : PinTrace := {}
  /-- Edges waiting for the receiver. -/
  edges : List Edge := []
  /-- Edges lost to a full queue. -/
  lostEdges : UInt32 := 0
  /-- Level of the receiving pin after its last edge. -/
  lineLevel : Bool := false
  /-- Whether the board drives the bus, so that edges are its own echo. -/
  transmitting : Bool := false
  /-- Whether the receiver holds part of a byte. -/
  receiving : Bool := false
  bytes : List TimedByte := []
  requests : List ControlRequest := []
  /-- Whether each request so far was taken in, the latest first. -/
  taken : List Bool := []
  publisher : Publisher := {}
  signals : BeatSignals := {}
  /-- The last transition of the beam that the engine has not taken. -/
  obstruction? : Option Bool := none
  /-- Whether there was traffic that the indicator has not shown. -/
  traffic : Bool := false
  /-- The counting of the beam, once it has begun. -/
  beam? : Option BeamCounter := none
  /-- The log, the latest record first. -/
  log : List LogRecord := []

namespace Board

def millis (b : Board) : Nat := b.now / 1000

/-! ## Log and notifications -/

/-- Writes a log record or publishes a notification. -/
def reportOne (b : Board) : Event → Board
  | .log level text => { b with log := ⟨b.now, level, text⟩ :: b.log }
  | .note n => { b with publisher := b.publisher.publish n }

/-- Reports an event, and whatever publishing it logs. -/
def report (b : Board) (e : Event) : Board :=
  match e with
  | .log .. => b.reportOne e
  | .note n => ((b.publisher.publishEvents n).foldl reportOne b).reportOne e

def reportAll (b : Board) (events : List Event) : Board := events.foldl report b

/-! ## Inputs -/

/-- An item at the end of a queue, unless it is full. -/
def offer? {α : Type} (capacity : Nat) (row : List α) (item : α) : Option (List α) :=
  if row.length < capacity then some (row ++ [item]) else none

/-- Counts an edge lost to a full queue; the log tells of the first, second, fourth, eighth, … of them. -/
def loseEdge (b : Board) : Board :=
  let lost := b.lostEdges + 1
  let b := { b with lostEdges := lost }
  if lost ≠ 0 ∧ lost &&& (lost - 1) = 0 then b.report (.warn s!"Edge queue full, {lost.toNat} edges dropped") else b

/-- Takes an edge of the receiving pin at once. -/
def captureEdge (b : Board) (high : Bool) : Board :=
  let b := { b with busLevel := high, lineLevel := high }
  if b.transmitting then b
  else match offer? edgeCapacity b.edges ⟨b.now, high⟩ with
    | some edges => { b with edges }
    | none => b.loseEdge

/-- Takes an edge of the beam's pin; it is seen once counting has begun. -/
def noteBeam (b : Board) (high : Bool) : Board :=
  { b with beamLevel := high, beam? := b.beam?.map fun c => { c with changed := true } }

/-- Drives an input to a level.  Driving it to the level it has does nothing. -/
def drive (b : Board) (input : BoardInput) (high : Bool) : Board :=
  match input with
  | .bus => if high = b.busLevel then b else b.captureEdge high
  | .beam => if high = b.beamLevel then b else b.noteBeam high

/-- Lets something happen to the board. -/
def undergo (b : Board) (h : Happening) : Board :=
  match h with
  | .level input high => b.drive input high
  | .request r =>
    match offer? requestCapacity b.requests r with
    | some requests => { b with requests, taken := true :: b.taken }
    | none => { b with taken := false :: b.taken }
  | .refuses refuses => { b with store := { b.store with refuses } }

/-! ## Waiting -/

/-- Lets everything planned up to an instant happen, each at its own time; what is left of the plan stays. -/
def undergoUntil (t : Nat) : List Stimulus → Board → Board
  | [], b => { b with plan := [] }
  | s :: plan, b =>
    if s.time ≤ t then undergoUntil t plan ({ b with now := max b.now s.time }.undergo s.what)
    else { b with plan := s :: plan }

/-- Waits up to an instant, if it lies ahead. -/
def waitUntil (t : Nat) (b : Board) : Board :=
  if t ≤ b.now then b else { undergoUntil t b.plan b with now := t }

end Board

end DoorBridge
