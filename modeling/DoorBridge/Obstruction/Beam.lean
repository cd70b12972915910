import DoorBridge.Notification
import DoorBridge.Obstruction

/-!
# Obstruction.Beam — watching the line of the safety beam

One task counts the pulses of the line, another takes the count in every sampling period.  Several changes of the
line between two looks at it count as one, and only the level found then tells whether it was a pulse.
-/

namespace DoorBridge

/-- What the counting task has seen. -/
structure BeamCounter where
  /-- Falls of the line since the last sample. -/
  pulses : Nat := 0
  /-- The level that was found last. -/
  level : Bool := false
  /-- Whether the line changed since it was looked at. -/
  changed : Bool := false
  deriving DecidableEq, Repr

/-- Looks at the line if it changed; there is nothing to do if it did not. -/
def BeamCounter.step? (c : BeamCounter) (level : Bool) : Option BeamCounter :=
  if c.changed then some ⟨c.pulses + (!level).toNat, level, false⟩ else none

/-- The sampling task; `next` is the end of the period, in microseconds. -/
structure BeamSampler where
  next : Nat
  sampler : ObstructionSampler := {}
  deriving DecidableEq, Repr

namespace BeamSampler

/-- Microseconds between two samples. -/
def period : Nat := samplePeriod * 1000

def new (now : Nat) : BeamSampler := { next := now + period }

/-- Takes a sample if it is due; the answer is a transition, if there is one. -/
def step? (s : BeamSampler) (now : Nat) (c : BeamCounter) : Option (Option Bool × BeamSampler × BeamCounter) :=
  if s.next ≤ now then
    let (transition, sampler) := s.sampler.sample c.pulses c.level (now / 1000)
    some (transition, ⟨s.next + period, sampler⟩, { c with pulses := 0 })
  else none

def transitionEvent (obstructed : Bool) : Event :=
  .info ("Obstruction " ++ if obstructed then "detected" else "clear")

end BeamSampler

end DoorBridge
