import DoorBridge.Notification

/-!
# Countdown — half seconds before something happens

A countdown blinks the light on every tick and carries out its action on the last one.  It runs before a delayed
close and before a recovery restart.
-/

namespace DoorBridge

/-- Length of a tick, in milliseconds. -/
def tickPeriod : Nat := 500

/-- What happens when a countdown runs out. -/
inductive CountdownAction where
  | closeDoor
  | restart (reason : RestartReason)
  deriving DecidableEq, Repr

def CountdownAction.text : CountdownAction → String
  | closeDoor => "CloseDoor"
  | restart reason => s!"Restart({reason.name})"

/-- What one tick asks for. -/
inductive CountdownStep where
  /-- Still counting: toggle the light. -/
  | blink
  | fire (action : CountdownAction)
  deriving DecidableEq, Repr

structure Countdown where
  remaining : Nat := 0
  /-- The light level when the countdown started. -/
  savedLight : Bool := false
  action? : Option CountdownAction := none
  deriving DecidableEq, Repr

namespace Countdown

def isActive (c : Countdown) : Bool := c.action?.isSome

def isClosing (c : Countdown) : Bool := c.action? = some .closeDoor

def start (ticks : Nat) (savedLight : Bool) (action : CountdownAction) : Countdown :=
  ⟨ticks, savedLight, some action⟩

/-- Stops the countdown; the answer is the light level from its start, if it was running. -/
def cancel (c : Countdown) : Option Bool × Countdown :=
  match c.action? with
  | some _ => (some c.savedLight, { c with remaining := 0, action? := none })
  | none => (none, c)

def tick (c : Countdown) : Option CountdownStep × Countdown :=
  match c.action? with
  | none => (none, c)
  | some action =>
    if c.remaining ≤ 1 then (some (.fire action), { c with remaining := 0, action? := none })
    else (some .blink, { c with remaining := c.remaining - 1 })

end Countdown

end DoorBridge
