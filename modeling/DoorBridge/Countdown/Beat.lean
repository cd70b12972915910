import DoorBridge.Countdown

/-!
# Countdown.Beat — the clock behind a countdown

While a countdown runs, a task of its own raises a beat every half second and the engine takes it.  The two talk
through `BeatSignals`, each a slot that keeps only what was put there last.
-/

namespace DoorBridge

/-- The slots between the engine and the beat. -/
structure BeatSignals where
  /-- The last order that was not taken yet: start, or stop. -/
  order? : Option Bool := none
  /-- Whether a beat was raised and not taken yet. -/
  raised : Bool := false
  deriving DecidableEq, Repr

/-- State of the task that raises beats; times are in microseconds. -/
inductive Beat where
  | stopped
  /-- Beating, next at an instant. -/
  | running (next : Nat)
  deriving DecidableEq, Repr

namespace Beat

/-- Microseconds between two beats. -/
def period : Nat := tickPeriod * 1000

/-- When the task goes on by itself. -/
def deadline? : Beat → Option Nat
  | stopped => none
  | running next => some next

/-- The next step of the task with what it logs; there is none while it waits.  A beat that is due comes before an
order.  Starting anew counts a whole period from now, stopping takes back a beat that was not taken yet. -/
def step? (b : Beat) (now : Nat) (s : BeatSignals) : Option (Beat × BeatSignals × List Event) :=
  match b with
  | stopped =>
    match s.order? with
    | none => none
    | some true => some (running (now + period), { s with order? := none }, [.debug "TTC timer armed"])
    | some false => some (stopped, { s with order? := none }, [])
  | running next =>
    if next ≤ now then some (running (next + period), { s with raised := true }, [])
    else match s.order? with
      | none => none
      | some true => some (running (now + period), { s with order? := none }, [])
      | some false => some (stopped, ⟨none, false⟩, [.debug "TTC timer stopped"])

end Beat

end DoorBridge
