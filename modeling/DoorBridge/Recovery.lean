/-!
# Recovery — five quick presses ask for setup

Presses are counted inside a window that the first of them opens.  The fifth completes the sequence; a press after
the window starts a new one.
-/

namespace DoorBridge

/-- Presses that complete a sequence. -/
def recoveryPresses : Nat := 5

/-- Ticks of blinking before the restart. -/
def recoveryTicks : Nat := 6

structure Recovery where
  /-- Length of the window, in milliseconds. -/
  window : Nat
  presses : Nat := 0
  /-- Last instant of the open window. -/
  deadline? : Option Nat := none
  deriving DecidableEq, Repr

namespace Recovery

/-- Whether a press still counts for the open window. -/
def isOpen (r : Recovery) (now : Nat) : Bool :=
  match r.deadline? with
  | some deadline => decide (now ≤ deadline)
  | none => false

/-- Number of presses in the sequence once this one is counted. -/
def count (r : Recovery) (now : Nat) : Nat := if r.isOpen now then r.presses + 1 else 1

/-- Counts a press; the answer is whether it completes the sequence. -/
def press (r : Recovery) (now : Nat) : Bool × Recovery :=
  if r.count now < recoveryPresses then
    (false, { r with
      presses := r.count now
      deadline? := if r.isOpen now then r.deadline? else some (now + r.window) })
  else (true, { r with presses := 0, deadline? := none })

end Recovery

end DoorBridge
