/-!
# Obstruction — the safety beam, debounced

The beam pulses its line while the path is clear and holds it high when blocked.  It sleeps with the line low
while the door is idle.  Falling edges are counted and sampled once per period.
-/

namespace DoorBridge

def samplePeriod : Nat := 50

/-- More pulses than this in one period mean that the path is clear. -/
def clearPulses : Nat := 3

/-- A line held high for longer than this since the beam slept means that the path is blocked. -/
def blockedHold : Nat := 700

structure ObstructionSampler where
  obstructed : Bool := false
  /-- When the line was last sampled low without a pulse, in milliseconds. -/
  lastAsleep : Nat := 0
  deriving DecidableEq, Repr

namespace ObstructionSampler

/-- The new state, if it is one. -/
def become (s : ObstructionSampler) (obstructed : Bool) : Option Bool × ObstructionSampler :=
  (if s.obstructed = obstructed then none else some obstructed, { s with obstructed })

/-- Evaluates one period; the answer is the new state on a transition. -/
def sample (s : ObstructionSampler) (pulses : Nat) (high : Bool) (now : Nat) :
    Option Bool × ObstructionSampler :=
  if clearPulses < pulses then s.become false
  else if pulses ≠ 0 then (none, s)
  else if !high then (none, { s with lastAsleep := now })
  else if blockedHold < now - s.lastAsleep then s.become true
  else (none, s)

end ObstructionSampler

end DoorBridge
