import DoorBridge.Arbiter.Script
import DoorBridge.Proofs.Engine.Delay
import DoorBridge.Proofs.Session
import DoorBridge.Storage.Memory

/-!
# Proofs.Session.Delay — the door is closed by a countdown only after the whole warning, and never after a cancel

A run is told which operations it does not meet (`Session.avoids`).  Without a disturbance an armed countdown has lost
one tick for every beat of the run (`countdown_run`); without being armed again a cancelled one stays off
(`isClosing_run`).
-/

namespace DoorBridge

def Step.isBeat {β σ : Type} : Step β σ → Bool
  | operation o => o.isBeat
  | transmit .. => false

/-- Number of beats of the countdown in a run. -/
def beats {β σ : Type} (steps : List (Step β σ)) : Nat := steps.countP Step.isBeat

namespace Session

variable {β σ : Type} [Bus β] [Storage σ]

/-- Whether a run meets no operation of a kind that depends on the engine that meets it. -/
def avoids (kind : Engine → Operation σ → Bool) (s : Session) : List (Step β σ) → Bool
  | [] => true
  | .operation o :: steps => !kind s.engine o && (s.operate o).avoids kind steps
  | .transmit bus now :: steps => (s.transmit bus now).avoids kind steps

variable {s : Session}

/-- As long as nothing but beats moves it, a countdown counts the beats of the run. -/
theorem counting_run {kind : Engine → Operation σ → Bool} {n : Nat} {light : Bool} {action : CountdownAction}
    {steps : List (Step β σ)} (h : s.engine.countdown = .start n light action)
    (hkind : ∀ (e : Engine) (o : Operation σ), e.countdown.action? = some action → kind e o = false →
      e.countdownAfter o = if o.isBeat then e.countdown.tick.2 else e.countdown)
    (hsteps : s.avoids kind steps = true) (hbeats : beats steps < n) :
    (s.run steps).engine.countdown = .start (n - beats steps) light action := by
  -- the ticks that are left change along the run, so the induction is on the steps for every number of them
  induction steps generalizing s n with
  | nil => exact h
  | cons step steps ih =>
    cases step with
    | operation o =>
      obtain ⟨hquiet, hsteps⟩ : kind s.engine o = false ∧ (s.operate o).avoids kind steps = true := by
        simpa [avoids] using hsteps
      have haction : s.engine.countdown.action? = some action := congrArg Countdown.action? h
      have hcountdown : (s.operate o).engine.countdown =
          if o.isBeat then s.engine.countdown.tick.2 else s.engine.countdown :=
        (Engine.countdown_after s.engine o).trans (hkind s.engine o haction hquiet)
      cases hbeat : o.isBeat with
      | false =>
        have hsame : beats (.operation o :: steps : List (Step β σ)) = beats steps :=
          List.countP_cons_of_neg (by rw [Step.isBeat, hbeat]; decide)
        rw [hbeat, if_neg Bool.false_ne_true, h] at hcountdown
        rw [hsame] at hbeats ⊢
        exact ih hcountdown hsteps hbeats
      | true =>
        have hmore : beats (.operation o :: steps : List (Step β σ)) = beats steps + 1 :=
          List.countP_cons_of_pos (by rw [Step.isBeat, hbeat])
        rw [hmore] at hbeats ⊢
        rw [hbeat, if_pos rfl, h, Countdown.tick_start (by omega)] at hcountdown
        rw [Nat.add_comm, ← Nat.sub_sub]
        exact ih hcountdown hsteps (by omega)
    | transmit bus now =>
      have hcountdown := (s.countdown_transmit bus now).trans h
      exact ih hcountdown hsteps hbeats

/-- Undisturbed, a delayed close counts the beats of the run. -/
theorem countdown_run {n : Nat} {light : Bool} {steps : List (Step β σ)}
    (h : s.engine.countdown = .start n light .closeDoor) (hsteps : s.avoids Engine.disturbs steps = true)
    (hbeats : beats steps < n) :
    (s.run steps).engine.countdown = .start (n - beats steps) light .closeDoor :=
  counting_run h (fun _ _ _ hquiet => Engine.countdown_of_undisturbed hquiet) hsteps hbeats

/-- A countdown that is no delayed close does not become one without being armed. -/
theorem isClosing_run {steps : List (Step β σ)} (h : s.engine.countdown.isClosing = false)
    (hsteps : s.avoids Engine.arms steps = true) : (s.run steps).engine.countdown.isClosing = false := by
  induction steps generalizing s with
  | nil => exact h
  | cons step steps ih =>
    cases step with
    | operation o =>
      obtain ⟨hunarmed, hsteps⟩ : s.engine.arms o = false ∧ (s.operate o).avoids Engine.arms steps = true := by
        simpa [avoids] using hsteps
      have hidle : (s.operate o).engine.countdown.isClosing = false :=
        (congrArg Countdown.isClosing (Engine.countdown_after s.engine o)).trans
          (Engine.isClosing_of_unarmed h hunarmed)
      exact ih hidle hsteps
    | transmit bus now =>
      have hidle : (s.transmit bus now).engine.countdown.isClosing = false :=
        (congrArg Countdown.isClosing (s.countdown_transmit bus now)).trans h
      exact ih hidle hsteps

end Session

/-- **The door is closed by a countdown only after the whole warning, and never after a cancel.**

* A request to close that arms a countdown does so for a warning of `T > 0` seconds.  As long as nothing disturbs it,
  whatever else happens, the first `2 * T - 1` beats give no door command and leave it running.  The beat after them
  ends it; it queues one press and release that close the door, unless the door is closed or the queue has no room.
* After a request to open or to reset, and after an accepted report that the door is closing, no beat gives a door
  command until a countdown is armed again. -/
theorem door_closes_after_warning {β σ : Type} [Bus β] [Storage σ] (s : Session) :
    (∀ o : Operation σ, s.engine.arms o = true →
      let T := s.engine.settings.ttcSeconds.toNat
      0 < T ∧ ∀ steps : List (Step β σ), (s.operate o).avoids Engine.disturbs steps = true →
        let e := ((s.operate o).run steps).engine
        (beats steps + 1 < 2 * T → e.QuietBeat ∧ e.countTick.2.countdown.isClosing = true) ∧
        (beats steps + 1 = 2 * T → e.countTick.2.countdown.isActive = false ∧
          (e.door.current = .closed → e.countTick.2.queue = e.queue) ∧
          (e.door.current ≠ .closed → e.queue.fits (Engine.doorSequence e.settings.security .close) = true →
            e.countTick.2.queue.actions =
              e.queue.actions ++ Engine.doorSequence e.settings.security .close))) ∧
    ∀ o : Operation σ, s.engine.cancels o = true → ∀ steps : List (Step β σ),
      (s.operate o).avoids Engine.arms steps = true → ((s.operate o).run steps).engine.QuietBeat := by
  constructor
  · intro o harms T
    obtain ⟨hpos, hstart⟩ := Engine.countdown_of_arms harms
    have harmed : (s.operate o).engine.countdown = .start (2 * T) s.engine.door.light .closeDoor :=
      (Engine.countdown_after s.engine o).trans hstart
    refine ⟨hpos, fun steps hsteps => ⟨fun hbeats => ?_, fun hbeats => ?_⟩⟩
    · have hcountdown := Session.countdown_run harmed hsteps (by omega)
      exact Engine.counting_beat (by omega) hcountdown
    · have hlast : 2 * T - beats steps = 1 := by omega
      have hcountdown := Session.countdown_run harmed hsteps (by omega)
      rw [hlast] at hcountdown
      exact Engine.last_beat hcountdown
  · intro o hcancels steps hsteps
    have hidle : (s.operate o).engine.countdown.isClosing = false :=
      (congrArg Countdown.isClosing (Engine.countdown_after s.engine o)).trans
        (Engine.isClosing_of_cancels hcancels)
    exact Engine.quietBeat_of_not_closing (Session.isClosing_run hidle hsteps)

/-- A session in which the door was asked to close after a warning of one second. -/
def warned : Session := (Session.new { ttcSeconds := 1 }).operate (.request .closeDoor : Operation MemoryStore)

/-- What happens up to the last beat of that warning: the first one, a collision, a beam transition and a light
request. -/
def warningSteps : List (Step BusScript MemoryStore) :=
  [.operation .beat, .transmit { busy := [true] } 0, .operation (.obstruction true 10),
    .operation (.request (.light true)), .transmit {} 1000]

/-- The last beat closes the door, or does nothing to it once it was told to open. -/
theorem door_closes_after_warning_second :
    ((warned.run warningSteps).engine.countTick.2.countdown.isActive = false ∧
        (warned.run warningSteps).engine.countTick.2.queue.actions =
          (warned.run warningSteps).engine.queue.actions ++ Engine.doorSequence .plus2 .close) ∧
      ((warned.operate (.request .openDoor : Operation MemoryStore)).run warningSteps).engine.QuietBeat := by
  constructor
  · have harms : (Session.new { ttcSeconds := 1 }).engine.arms
        (.request .closeDoor : Operation MemoryStore) = true := by decide +kernel
    have hsteps : warned.avoids Engine.disturbs warningSteps = true := by decide +kernel
    have hopen : (warned.run warningSteps).engine.door.current ≠ .closed := by decide +kernel
    have hroom : (warned.run warningSteps).engine.queue.fits
        (Engine.doorSequence (warned.run warningSteps).engine.settings.security .close) = true := by decide +kernel
    obtain ⟨-, hwarning⟩ := (door_closes_after_warning (β := BusScript) (.new { ttcSeconds := 1 })).1 _ harms
    obtain ⟨hended, -, hclose⟩ := (hwarning warningSteps hsteps).2 rfl
    exact ⟨hended, hclose hopen hroom⟩
  · have hcancels : warned.engine.cancels (.request .openDoor : Operation MemoryStore) = true := by decide +kernel
    exact (door_closes_after_warning warned).2 _ hcancels warningSteps (by decide +kernel)

end DoorBridge
