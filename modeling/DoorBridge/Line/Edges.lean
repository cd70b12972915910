import DoorBridge.Line

/-!
# Line.Edges — bytes out of level changes

The receiving pin reports only its level changes.  The decoder counts how many bit times the level held before
each change lasted and takes that many bits.  A byte that ends in idle-level bits has no closing edge; after a
silence `EdgeDecoder.timeout` takes the held level up to now.
-/

namespace DoorBridge

/-- A level change of the receiving pin. -/
structure Edge where
  /-- Time of the change in microseconds. -/
  time : Nat
  level : Bool
  deriving DecidableEq, Repr

/-- How far a byte has come: bits taken so far, the low bit first. -/
inductive EdgeDecoder.Phase where
  | idle
  | start
  | data (taken : List Bool)
  | stop (taken : List Bool)
  deriving DecidableEq, Repr

structure EdgeDecoder where
  /-- Length of one bit in microseconds, never zero. -/
  bitTime : Nat
  invert : Bool
  phase : EdgeDecoder.Phase
  lastTime : Nat
  lastLevel : Bool
  deriving DecidableEq, Repr

namespace EdgeDecoder

/-- A decoder before the first edge of an idle line. -/
def new (bitTime : Nat) (invert : Bool) : EdgeDecoder := ⟨max bitTime 1, invert, .idle, 0, !invert⟩

def isBusy (d : EdgeDecoder) : Bool := d.phase ≠ .idle

/-- Number of bit times in an interval, rounded to the nearest; an exact half is rounded down. -/
def periods (bitTime elapsed : Nat) : Nat :=
  elapsed / bitTime + if elapsed % bitTime > bitTime / 2 then 1 else 0

/-- Takes bit times of the logical level `held`, before the line goes to the logical level `next`.  An idle line
starts a byte only by changing to zero, however long it was idle. -/
def take (held next : Bool) : Nat → Phase → Phase × Option UInt8
  | 0, phase => (phase, none)
  | n + 1, phase =>
    match phase with
    | .idle => (if held && !next then .start else .idle, none)
    | .start => take held next n (if held then .idle else .data [])
    | .data taken =>
      let taken := taken ++ [held]
      take held next n (if taken.length = 8 then .stop taken else .data taken)
    | .stop taken =>
      -- the line idles after the stop bit, so a change to zero opens the next byte, now or later
      (if !next && (n == 0 || held) then .start else .idle, if held then some (byteOfData taken) else none)

/-- Takes the time since the last edge at its level, then changes to the new level. -/
def process (d : EdgeDecoder) (e : Edge) : Option UInt8 × EdgeDecoder :=
  let (phase, received) := take (d.lastLevel ^^ d.invert) (e.level ^^ d.invert)
    (periods d.bitTime (e.time - d.lastTime)) d.phase
  (received, { d with phase, lastTime := e.time, lastLevel := e.level })

/-- Takes the time since the last edge, the level staying as it is. -/
def timeout (d : EdgeDecoder) (now : Nat) : Option UInt8 × EdgeDecoder := d.process ⟨now, d.lastLevel⟩

end EdgeDecoder

end DoorBridge
