import DoorBridge.Proofs.Engine.Ears

/-!
# Proofs.View — what the notifications say about the door

* `View` is what the notifications are about; `View.take` is what one of them says about it.
* `Tells v notes v'` says that some notifications lead from one view to another, and that each of the visible kinds changes
  the view that it meets.  It can be chained (`Tells.append`).
* Every observation of the door tells the view after it from the view before it (`Door.tells_observeDoor` and its like).
-/

namespace DoorBridge

/-! ## Views -/

/-- The part of the door that notifications are about. -/
structure View extends Mirror where
  motion : Bool := false
  obstructed : Bool := false
  deriving DecidableEq, Repr

def Door.view (d : Door) : View := ⟨d.mirror, d.motion, d.obstructed⟩

/-- The view after a notification. -/
def View.take (v : View) : Notification → View
  | .active => { v with active := true }
  | .currentDoor state => { v with current := state }
  | .targetDoor state => { v with target := state }
  | .currentLock locked => { v with currentLock := locked }
  | .light on => { v with light := on }
  | .motion detected => { v with motion := detected }
  | .obstruction obstructed => { v with obstructed }
  | .targetLock _ | .motionSensorDiscovered _ | .restartRequested _ => v

/-- The view after some notifications. -/
def View.replay (v : View) (notes : List Notification) : View := notes.foldl View.take v

/-- Whether it is about the view. -/
def Notification.isVisible : Notification → Bool
  | targetLock _ | motionSensorDiscovered _ | restartRequested _ => false
  | _ => true

/-- Notifications that lead from one view to another, each visible one of them to a new one. -/
inductive Tells : View → List Notification → View → Prop
  | nil (v : View) : Tells v [] v
  | cons {v v' : View} {n : Notification} {notes : List Notification} (hnew : n.isVisible = true → v.take n ≠ v)
      (hrest : Tells (v.take n) notes v') : Tells v (n :: notes) v'

namespace Tells

variable {v v' v'' : View} {n : Notification} {notes more : List Notification}

theorem append (h : Tells v notes v') (h' : Tells v' more v'') : Tells v (notes ++ more) v'' := by
  induction h with
  | nil v => exact h'
  | cons hnew _ ih => exact .cons hnew (ih h')

theorem replay_eq (h : Tells v notes v') : v.replay notes = v' := by
  induction h with
  | nil v => rfl
  | cons _ _ ih => exact ih

/-- Every visible notification changes what is replayed. -/
theorem changes (h : Tells v notes v') {before after : List Notification} (hnotes : notes = before ++ n :: after)
    (hvisible : n.isVisible = true) : (v.replay before).take n ≠ v.replay before := by
  induction h generalizing before with
  | nil v => exact absurd hnotes (by simp)
  | @cons v v' m notes hnew _ ih =>
    cases before with
    | nil =>
      obtain ⟨rfl, -⟩ := List.cons.inj hnotes
      exact hnew hvisible
    | cons b before =>
      obtain ⟨rfl, hrest⟩ := List.cons.inj hnotes
      exact ih hrest

end Tells

/-! ## Observations -/

theorem notifications_append (events more : List Event) :
    Event.notifications (events ++ more) = Event.notifications events ++ Event.notifications more :=
  List.filterMap_append

/-- A report that is made exactly if it changes the view. -/
theorem tells_reportIf {v : View} {n : Notification} {changed : Bool} {events : List Event}
    (hevents : Event.notifications events = [n]) (hsame : v.take n = v ↔ changed = false) :
    Tells v (Event.notifications (Door.reportIf changed events)) (v.take n) := by
  unfold Door.reportIf
  cases changed with
  | true =>
    have hnew : v.take n ≠ v := fun h => Bool.noConfusion (hsame.mp h)
    rw [if_pos rfl, hevents]
    exact .cons (fun _ => hnew) (.nil _)
  | false =>
    rw [if_neg Bool.false_ne_true, hsame.mpr rfl]
    exact .nil v

/-- A report of a value that is made if it differs from the one in the view. -/
theorem tells_reportIf_ne {α : Type} [BEq α] [LawfulBEq α] {v : View} {n : Notification} {value known : α}
    {events : List Event} (hevents : Event.notifications events = [n]) (hsame : v.take n = v ↔ value = known) :
    Tells v (Event.notifications (Door.reportIf (value != known) events)) (v.take n) :=
  tells_reportIf hevents (hsame.trans bne_eq_false_iff_eq.symm)

namespace Door

variable (d : Door)

theorem tells_observeLight (on : Bool) :
    Tells d.view (Event.notifications (d.observeLight on).events) (d.observeLight on).door.view := by
  refine tells_reportIf_ne (n := .light on) rfl ⟨fun hsame => congrArg (·.light) hsame, fun hlight => ?_⟩
  rw [hlight]
  rfl

theorem tells_observeLock (locked : Bool) :
    Tells d.view (Event.notifications (d.observeLock locked).events) (d.observeLock locked).door.view := by
  unfold observeLock
  by_cases h : locked = d.currentLock
  · rw [if_pos h]
    exact .nil _
  · rw [if_neg h]
    refine .cons (n := .currentLock locked) (fun _ hsame => h ?_) (.cons nofun (.nil _))
    exact congrArg (·.currentLock) hsame

theorem tells_setTargetLock (locked : Bool) :
    Tells d.view (Event.notifications (d.setTargetLock locked).events) (d.setTargetLock locked).door.view := by
  unfold setTargetLock reportIf
  dsimp only
  split
  · exact .cons nofun (.nil _)
  · exact .nil _

theorem tells_raiseMotion (now : Nat) :
    Tells d.view (Event.notifications (d.raiseMotion now).events) (d.raiseMotion now).door.view := by
  refine tells_reportIf (n := .motion true) rfl ⟨fun hsame => ?_, fun hknown => ?_⟩
  · have hmotion : true = d.motion := congrArg (·.motion) hsame
    rw [← hmotion]
    rfl
  · have hmotion : d.motion = true := (Bool.not_eq_false' d.motion).mp hknown
    unfold view View.take
    rw [hmotion]

theorem tells_expireMotion (now : Nat) :
    Tells d.view (Event.notifications (d.expireMotion now).events) (d.expireMotion now).door.view := by
  unfold expireMotion
  cases hover : d.motionIsOver now with
  | false =>
    have hsame : (d.motion && !false) = d.motion := Bool.and_true _
    rw [hsame]
    exact .nil _
  | true =>
    have hmotion : d.motion = true := (Bool.and_eq_true_iff.mp hover).1
    have hended : (d.motion && !true) = false := Bool.and_false _
    rw [hended]
    refine .cons (n := .motion false) (fun _ hsame => ?_) (.nil _)
    have hmoved : false = d.motion := congrArg (·.motion) hsame
    rw [hmotion] at hmoved
    contradiction

theorem tells_setObstructed (obstructed : Bool) :
    Tells d.view (Event.notifications (d.setObstructed obstructed).events) (d.setObstructed obstructed).door.view := by
  refine tells_reportIf_ne (n := .obstruction obstructed) rfl
    ⟨fun hsame => congrArg (·.obstructed) hsame, fun hobstructed => ?_⟩
  rw [hobstructed]
  rfl

theorem tells_observeDoor (state : DoorState) :
    Tells d.view (Event.notifications (d.observeDoor state).events) (d.observeDoor state).door.view := by
  unfold observeDoor
  cases state.target? with
  | none => exact .nil _
  | some target =>
    have hactive : Tells d.view (Event.notifications (reportIf (!d.active) [.note .active])) (d.view.take .active) := by
      refine tells_reportIf rfl ⟨fun hsame => ?_, fun hknown => ?_⟩
      · have hactive : true = d.active := congrArg (·.active) hsame
        rw [← hactive]
        rfl
      · have hactive : d.active = true := (Bool.not_eq_false' d.active).mp hknown
        unfold view mirror View.take
        rw [hactive]
    have hcurrent : Tells (d.view.take .active) (Event.notifications (reportIf (state != d.current)
        [.info s!"Door {d.current.name} -> {state.name}", .note (.currentDoor state)]))
        ((d.view.take .active).take (.currentDoor state)) := by
      refine tells_reportIf_ne rfl ⟨fun hsame => congrArg (·.current) hsame, fun hknown => ?_⟩
      rw [hknown]
      rfl
    have htarget : Tells ((d.view.take .active).take (.currentDoor state))
        (Event.notifications (reportIf (target != d.target) [.note (.targetDoor target)]))
        (((d.view.take .active).take (.currentDoor state)).take (.targetDoor target)) := by
      refine tells_reportIf_ne rfl ⟨fun hsame => congrArg (·.target) hsame, fun hknown => ?_⟩
      rw [hknown]
      rfl
    have hall := (hactive.append hcurrent).append htarget
    rw [← notifications_append, ← notifications_append] at hall
    exact hall

end Door

end DoorBridge
