import DoorBridge.Notification

/-!
# Door — the state mirrored from the opener

`Door` holds what the opener last reported.  Each observation compares the report with the held value and reports
on only what changed.  `Debounce` accepts a door position once it was seen twice in a row.
-/

namespace DoorBridge

/-- How long a motion report lasts, in milliseconds. -/
def motionHold : Nat := 5000

structure Door where
  /-- Whether a door position was ever reported. -/
  active : Bool := false
  current : DoorState := .unknown
  target : DoorState := .unknown
  currentLock : Bool := false
  targetLock : Bool := false
  light : Bool := false
  motion : Bool := false
  /-- When the last motion report ends or ended. -/
  motionDeadline : Nat := 0
  obstructed : Bool := false
  hasMotionSensor : Bool := false
  deriving DecidableEq, Repr

/-- The door after an observation, whether the observed value changed, and what is reported. -/
structure Observation where
  door : Door
  changed : Bool
  events : List Event

namespace Door

/-- Reports a boolean that differs from the held one. -/
def reportIf (changed : Bool) (events : List Event) : List Event := if changed then events else []

/-- Takes a reported position; an unknown one is ignored. -/
def observeDoor (d : Door) (state : DoorState) : Observation :=
  match state.target? with
  | none => ⟨d, false, [.debug "Ignoring unknown door state"]⟩
  | some target =>
    { door := { d with active := true, current := state, target }
      changed := state != d.current
      events := reportIf (!d.active) [.note .active] ++
        reportIf (state != d.current)
          [.info s!"Door {d.current.name} -> {state.name}", .note (.currentDoor state)] ++
        reportIf (target != d.target) [.note (.targetDoor target)] }

/-- Takes a reported light level. -/
def observeLight (d : Door) (on : Bool) : Observation where
  door := { d with light := on }
  changed := on != d.light
  events := reportIf (on != d.light) [.info s!"Light {on}", .note (.light on)]

/-- Takes a reported lock state.  It is compared with the current lock, so that a target set by a local command is
still confirmed when the opener echoes it. -/
def observeLock (d : Door) (locked : Bool) : Observation :=
  if locked = d.currentLock then ⟨d, false, []⟩
  else ⟨{ d with currentLock := locked, targetLock := locked }, true,
    [.info s!"Lock {locked}", .note (.currentLock locked), .note (.targetLock locked)]⟩

/-- Takes a lock state asked for at the wall console. -/
def setTargetLock (d : Door) (locked : Bool) : Observation where
  door := { d with targetLock := locked }
  changed := locked != d.targetLock
  events := reportIf (locked != d.targetLock) [.note (.targetLock locked)]

/-- Starts or extends a motion report. -/
def raiseMotion (d : Door) (now : Nat) : Observation where
  door := { d with motion := true, motionDeadline := now + motionHold }
  changed := !d.motion
  events := reportIf (!d.motion) [.info "Motion detected", .note (.motion true)]

/-- Whether a motion report has lasted its time. -/
def motionIsOver (d : Door) (now : Nat) : Bool := d.motion && decide (d.motionDeadline ≤ now)

/-- Ends a motion report that has lasted its time. -/
def expireMotion (d : Door) (now : Nat) : Observation where
  door := { d with motion := d.motion && !d.motionIsOver now }
  changed := d.motionIsOver now
  events := reportIf (d.motionIsOver now) [.info "Motion cleared", .note (.motion false)]

/-- When the running motion report ends. -/
def motionDeadline? (d : Door) : Option Nat := if d.motion then some d.motionDeadline else none

def setObstructed (d : Door) (obstructed : Bool) : Observation where
  door := { d with obstructed }
  changed := obstructed != d.obstructed
  events := reportIf (obstructed != d.obstructed)
    [.info s!"Obstruction {obstructed}", .note (.obstruction obstructed)]

end Door

/-- A filter that passes a door position once it was seen twice in a row. -/
structure Debounce where
  last? : Option DoorState := none
  deriving DecidableEq, Repr

/-- The position to pass on, if any, and the filter afterwards. -/
def Debounce.accept (f : Debounce) (state : DoorState) : Option DoorState × Debounce :=
  (if f.last? = some state then some state else none, ⟨some state⟩)

end DoorBridge
