import DoorBridge.Proofs.Engine.Reports
import DoorBridge.Proofs.Session

/-!
# Proofs.Session.Replay — the notifications mirror the door

Every step of a run reports what it changes (`Session.reports_take`), so a run from a new engine has reported its whole view
(`Session.reports_run`).
-/

namespace DoorBridge

namespace Session

variable {β σ : Type} [Bus β] [Storage σ]

theorem reports_take (s : Session) (step : Step β σ) : s.engine.Reports (s.take step).engine := by
  cases step with
  | operation o => exact s.engine.reports_after o
  | transmit bus now => exact s.engine.reports_transmitNext now (WireLog.mk bus s.rows)

theorem reports_run (s : Session) (steps : List (Step β σ)) : s.engine.Reports (s.run steps).engine :=
  run_induction (P := fun x => s.engine.Reports x.engine) (.refl s.engine)
    fun x hx step _ => hx.trans (x.reports_take step)

end Session

/-- **The notifications mirror the door exactly.**  After any run of an engine, whatever it meets, taking all notifications
in turn from the view of a new door gives the view of its door.  No notification about the view is idle: each one
changes the view that it meets, so no change is missed and none is reported twice. -/
theorem notifications_mirror_door {β σ : Type} [Bus β] [Storage σ] (settings : Settings) (steps : List (Step β σ)) :
    let e := ((Session.new settings).run steps).engine
    let notes := Event.notifications e.events
    let v := View.replay {} notes
    (v.active = e.door.active ∧ v.current = e.door.current ∧ v.target = e.door.target ∧ v.light = e.door.light ∧
      v.currentLock = e.door.currentLock ∧ v.motion = e.door.motion ∧ v.obstructed = e.door.obstructed) ∧
    ∀ before n after, notes = before ++ n :: after → n.isVisible = true →
      (View.replay {} before).take n ≠ View.replay {} before := by
  intro e notes v
  obtain ⟨new, hevents, htells⟩ := (Session.new settings).reports_run steps
  obtain rfl : e.events = new := hevents
  have hview : v = e.door.view := htells.replay_eq
  constructor
  · rw [hview]
    exact ⟨rfl, rfl, rfl, rfl, rfl, rfl, rfl⟩
  · intro before n after hnotes hvisible
    exact htells.changes hnotes hvisible

end DoorBridge
