import DoorBridge.Line
import DoorBridge.Line.Pin

/-!
# Line.Transmitter — bytes clocked out of a pin

Bits are timed against deadlines counted from the start of a write, so that delays do not add up.  A write that
runs past its budget is given up before the next byte.
-/

namespace DoorBridge

/-- A pin with a clock in microseconds. -/
class LinePin (ω : Type) where
  now : ω → Nat
  setLevel : Bool → ω → ω
  /-- Waits up to an instant, if it lies ahead. -/
  waitUntil : Nat → ω → ω

/-- Longest write, in microseconds. -/
def writeBudget : Nat := 100000

namespace Transmitter

variable {ω : Type} [LinePin ω]

/-- Holds the line at the level of a zero, or releases it to idle. -/
def setBreak (s : LineSettings) (asserted : Bool) (w : ω) : ω := LinePin.setLevel (!asserted ^^ s.invert) w

/-- Holds each level for one bit time, the first until one bit time after `start`. -/
def holdLevels (bitTime start : Nat) (levels : List Bool) (w : ω) : ω :=
  match levels with
  | [] => w
  | level :: rest =>
    holdLevels bitTime (start + bitTime) rest
      (LinePin.waitUntil (start + bitTime) (LinePin.setLevel level w))

/-- Writes the bytes of which the first starts at `start`; the answer is whether all were written in time. -/
def writeFrom (s : LineSettings) (deadline start : Nat) (bytes : List UInt8) (w : ω) : Bool × ω :=
  match bytes with
  | [] => (true, w)
  | byte :: rest =>
    if deadline < LinePin.now w then (false, setBreak s false w)
    else
      writeFrom s deadline (start + 10 * s.bitTime) rest
        (holdLevels s.bitTime start (frameLevels byte s.invert) w)

/-- Writes bytes back to back; the answer is whether all were written in time. -/
def write (s : LineSettings) (bytes : List UInt8) (w : ω) : Bool × ω :=
  writeFrom s (LinePin.now w + writeBudget) (LinePin.now w) bytes w

end Transmitter

/-- A pin on its own, with a clock. -/
structure TimedPin extends PinTrace where
  now : Nat := 0
  deriving DecidableEq, Repr

instance : LinePin TimedPin where
  now p := p.now
  setLevel level p := { p with toPinTrace := p.toPinTrace.set level p.now }
  waitUntil t p := { p with now := max p.now t }

end DoorBridge
