import DoorBridge.Firmware

/-!
# Firmware.Run — the tasks in virtual time

Tasks are polled in rounds.  In its turn a task goes on until it waits, and rounds are repeated until no task can go
on.  Then the clock moves to the next stimulus or deadline.  Code takes no time; only a task that waits on the board
moves the clock.
-/

namespace DoorBridge

/-- A place in a round. -/
structure Round where
  firmware : Firmware
  /-- The tasks whose turn is not over, the present one first. -/
  turns : List Task := Task.all
  /-- Whether a task went on in this round. -/
  moved : Bool := false

namespace Firmware

/-- When there is something to do next: a stimulus or a deadline. -/
def next? (f : Firmware) : Option Nat :=
  (f.board.plan.head?.map (·.time)).toList ++ Task.all.filterMap f.deadline? |>.min?

/-- Lets the first stimulus of the plan happen, if it is due. -/
def undergoDue (b : Board) : Board :=
  match b.plan with
  | s :: plan => if s.time ≤ b.now then { b with plan }.undergo s.what else b
  | [] => b

/-- Moves the clock to what comes next, unless that lies beyond the end. -/
def advance? (f : Firmware) (last : Nat) : Option Firmware :=
  match f.next? with
  | some t => if t ≤ last then some (f.onBoard fun b => undergoDue { b with now := max b.now t }) else none
  | none => none

end Firmware

namespace Round

/-- The next step of a run up to an end: a step of the task whose turn it is, the next turn, the next round, or a
move of the clock.  There is none after a reset, or when nothing is left to do. -/
def next? (r : Round) (last : Nat) : Option Round :=
  if r.firmware.engineTask = .ended then none
  else match r.turns with
    | task :: turns =>
      match r.firmware.step? task with
      | some firmware => some ⟨firmware, task :: turns, true⟩
      | none => some { r with turns }
    | [] =>
      if r.moved then some { firmware := r.firmware }
      else (r.firmware.advance? last).map fun firmware => { firmware }

def run (last : Nat) : Nat → Round → Firmware
  | 0, r => r.firmware
  | fuel + 1, r =>
    match r.next? last with
    | some r => run last fuel r
    | none => r.firmware

end Round

namespace Firmware

/-- Fuel for a run up to an end.  Each move of the clock uses up a stimulus or a microsecond, and between two moves
the tasks can do little more than empty their queues, so the fuel is never used up. -/
def stepBound (f : Firmware) (last : Nat) : Nat := 10000 * (last + f.board.plan.length + 1)

/-- Runs the tasks up to an instant, or to a reset. -/
def run (f : Firmware) (last : Nat) : Firmware := Round.run last (f.stepBound last) { firmware := f }

end Firmware

end DoorBridge
