/-!
# Line.Pin — pins of the board

An output pin keeps the level it was set to, and a trace of it the times of its changes.  An input pin can be
waited on until its level changes.
-/

namespace DoorBridge

structure OutputPin where
  high : Bool
  deriving DecidableEq, Repr

namespace OutputPin

def set (_ : OutputPin) (high : Bool) : OutputPin := ⟨high⟩

def setHigh (p : OutputPin) : OutputPin := p.set true

def setLow (p : OutputPin) : OutputPin := p.set false

def toggle (p : OutputPin) : OutputPin := p.set !p.high

end OutputPin

/-- A pin's level, with the times at which it changed, the latest first. -/
structure PinTrace where
  level : Bool := false
  changes : List Nat := []
  deriving DecidableEq, Repr

/-- The pin set to a level at an instant.  Setting the level it already has is no change. -/
def PinTrace.set (p : PinTrace) (level : Bool) (now : Nat) : PinTrace :=
  if level = p.level then p else ⟨level, now :: p.changes⟩

/-- The level changes a wait can ask for. -/
inductive EdgeKind where
  | any | falling
  deriving DecidableEq, Repr

/-- Whether going from one level to another ends a wait.  Setting the level a pin already has is no change. -/
def EdgeKind.endsAt (k : EdgeKind) (before after : Bool) : Bool :=
  match k with
  | any => before != after
  | falling => before && !after

structure InputPin where
  high : Bool
  deriving DecidableEq, Repr

/-- The pin at a new level, and that level if the change ended a wait. -/
def InputPin.drive (p : InputPin) (k : EdgeKind) (level : Bool) : Option Bool × InputPin :=
  (if k.endsAt p.high level then some level else none, ⟨level⟩)

end DoorBridge
