import DoorBridge.Settings

/-!
# Board.Indicator — the activity light

The light flashes for half a second after traffic on the bus; traffic while it is lit extends the flash.
-/

namespace DoorBridge

/-- State of the task behind the activity light. -/
inductive Indicator where
  | disabled
  /-- At its resting level. -/
  | resting (rest : Bool)
  /-- Away from its resting level up to an instant, in microseconds. -/
  | lit (rest : Bool) (expiry : Nat)
  deriving DecidableEq, Repr

namespace Indicator

/-- Length of a flash, in microseconds. -/
def flashTime : Nat := 500000

/-- The light at rest, as the settings want it. -/
def new : LedIdle → Indicator
  | .off => resting false
  | .on => resting true
  | .disabled => disabled

/-- The level the light has. -/
def level : Indicator → Bool
  | disabled => false
  | resting rest => rest
  | lit rest _ => !rest

/-- When the task goes on by itself. -/
def deadline? : Indicator → Option Nat
  | lit _ expiry => some expiry
  | _ => none

/-- The next step of the task, with the signal of traffic that is left; there is none while it waits.  The end of a
flash comes before traffic, which then starts the next one. -/
def step? (i : Indicator) (now : Nat) (traffic : Bool) : Option (Indicator × Bool) :=
  match i with
  | disabled => none
  | resting rest => if traffic then some (lit rest (now + flashTime), false) else none
  | lit rest expiry =>
    if expiry ≤ now then some (resting rest, traffic)
    else if traffic then some (lit rest (now + flashTime), false)
    else none

end Indicator

end DoorBridge
