import DoorBridge.Arbiter.Script
import DoorBridge.Proofs.Session.Delay
import DoorBridge.Proofs.Session.Orders
import DoorBridge.Storage.Memory
import Mathlib.Data.List.Induction

/-!
# Proofs.Session.Restart — the recovery restart comes when it should, and only then

* Once a recovery sequence is complete, only a reset or another complete sequence (`Engine.stopsRestart`) does anything
  to the countdown but count (`Engine.countdown_of_unstopped`).  Its last beat makes the restart pending
  (`Session.fire_recovery`), and it stays pending until the next flush asks for it (`Session.Restarts`).
* A restart that is pending without a reset comes from a countdown that ran out since the last flush
  (`Session.Fired`), and a save is pending with it (`Session.Orders`), so the flush that asks for it saves the counter
  first.
-/

namespace DoorBridge

/-! ## Recovery countdowns -/

namespace Countdown

variable (c : Countdown)

theorem action_tick : c.tick.2.action? = c.action? ∨ c.tick.2.action? = none := by
  unfold tick
  cases haction : c.action? with
  | none => exact .inl haction
  | some action =>
    dsimp only
    split
    · exact .inr rfl
    · exact .inl rfl

variable {c}

/-- A countdown fires no action but its own. -/
theorem action_of_fire {action : CountdownAction} (h : c.tick.1 = some (.fire action)) : c.action? = some action := by
  unfold tick at h
  cases haction : c.action? with
  | none =>
    rw [haction] at h
    contradiction
  | some found =>
    rw [haction] at h
    dsimp only at h
    split at h
    · cases h
      rfl
    · cases h

theorem action_of_restart {reason : RestartReason} (h : c.restart? = some reason) :
    c.action? = some (.restart reason) := by
  unfold restart? at h
  split at h
  · next hfire =>
    cases h
    exact action_of_fire hfire
  · contradiction

end Countdown

namespace Engine

variable {σ : Type}

/-- Whether an operation is the press that completes a recovery sequence. -/
def completesRecovery (e : Engine) : Operation σ → Bool
  | .byte byte now => ((e.inbound? byte now).map fun x => x.isPress && (e.recovery.press now).1).getD false
  | .press now => (e.recovery.press now).1
  | _ => false

/-- Whether an operation keeps the countdown of a recovery restart from running on: a reset, or another complete
sequence. -/
def stopsRestart (e : Engine) (o : Operation σ) : Bool := o.request? = some .reset || e.completesRecovery o

variable {e : Engine} {o : Operation σ}

/-- A complete recovery sequence starts a countdown, whatever else was counted down before. -/
theorem countdown_of_completesRecovery (h : e.completesRecovery o = true) :
    e.countdownAfter o = .start recoveryTicks e.door.light (.restart .softAp) := by
  cases o with
  | byte byte now =>
    rw [completesRecovery] at h
    rw [countdownAfter]
    cases hin : e.inbound? byte now with
    | none =>
      rw [hin] at h
      contradiction
    | some x =>
      obtain ⟨hpress, hcomplete⟩ : x.isPress = true ∧ (e.recovery.press now).1 = true := by
        rw [hin] at h
        simpa using h
      rw [Option.map_some, Option.getD_some, inboundCountdown, if_pos hpress, pressCountdown, if_pos hcomplete]
  | press now =>
    rw [countdownAfter, pressCountdown]
    exact if_pos h
  | _ => contradiction

/-- A reset ends any countdown. -/
theorem isActive_of_reset (h : o.request? = some .reset) : (e.countdownAfter o).isActive = false := by
  cases o with
  | request r | call r =>
    obtain rfl : r = .reset := Option.some.inj h
    exact e.countdown.isActive_cancel
  | _ => contradiction

/-- Unless it is stopped, the countdown of a restart does nothing but count. -/
theorem countdown_of_unstopped {reason : RestartReason} (haction : e.countdown.action? = some (.restart reason))
    (h : e.stopsRestart o = false) :
    e.countdownAfter o = if o.isBeat then e.countdown.tick.2 else e.countdown := by
  obtain ⟨hreset, hincomplete⟩ : ¬ o.request? = some .reset ∧ e.completesRecovery o = false := by
    simpa [stopsRestart] using h
  have hclosing : e.countdown.isClosing = false := by
    rw [Countdown.isClosing, haction]
    rfl
  cases o with
  | request r | call r =>
    cases r with
    | openDoor =>
      rw [countdownAfter, prepared, hclosing]
      rfl
    | closeDoor =>
      have hcounts : e.closeCounts = false := by simp [closeCounts, Countdown.isActive, haction]
      rw [countdownAfter, prepared, closeCountdown, hclosing, hcounts]
      split <;> rfl
    | reset => exact absurd rfl hreset
    | _ => rfl
  | byte byte now =>
    rw [completesRecovery] at hincomplete
    rw [countdownAfter]
    cases hin : e.inbound? byte now with
    | none => rfl
    | some x =>
      have hmore : x.isPress = true → (e.recovery.press now).1 = false := by
        rw [hin] at hincomplete
        simpa using hincomplete
      rw [Option.map_some, Option.getD_some, inboundCountdown, hclosing, Bool.and_false]
      split
      · next hx => exact pressCountdown_eq_self (hmore hx)
      · rfl
  | press now => exact pressCountdown_eq_self hincomplete
  | _ => rfl

/-- Before its last beat the countdown of a restart fires nothing. -/
theorem firedBy_of_counting {n : Nat} {light : Bool} {reason : RestartReason}
    (h : e.countdown = .start n light (.restart reason)) (hbeat : o.isBeat = true → 2 ≤ n) : e.firedBy o = none := by
  cases o with
  | beat =>
    rw [firedBy, Countdown.restart?, h, Countdown.tick_start (hbeat rfl)]
  | _ => rfl

theorem action_of_firedBy {reason : RestartReason} (h : e.firedBy o = some reason) :
    e.countdown.action? = some (.restart reason) := by
  cases o with
  | beat => exact Countdown.action_of_restart h
  | _ => contradiction

/-- The engine starts no countdown of its own but a delayed close and a restart into setup. -/
theorem action_countdownAfter (e : Engine) (o : Operation σ) :
    (e.countdownAfter o).action? = e.countdown.action? ∨ (e.countdownAfter o).action? = none ∨
      (e.countdownAfter o).action? = some .closeDoor ∨ (e.countdownAfter o).action? = some (.restart .softAp) := by
  have hcancel := e.countdown.action_cancel
  have hpress (now : Nat) : (e.pressCountdown now).action? = e.countdown.action? ∨
      (e.pressCountdown now).action? = some (.restart .softAp) := by
    unfold pressCountdown
    split
    · exact .inr rfl
    · exact .inl rfl
  cases o with
  | byte byte now =>
    rw [countdownAfter]
    cases e.inbound? byte now with
    | none => exact .inl rfl
    | some x =>
      rw [Option.map_some, Option.getD_some, inboundCountdown]
      split
      · exact (hpress now).imp_right fun h => .inr (.inr h)
      · split
        · exact .inr (.inl hcancel)
        · exact .inl rfl
  | request r | call r =>
    cases r with
    | openDoor =>
      rw [countdownAfter, prepared]
      dsimp only
      split
      · exact .inr (.inl hcancel)
      · exact .inl rfl
    | closeDoor =>
      rcases e.closeCountdown_cases with hsame | hcancelled | ⟨-, hstarted⟩
      · exact .inl (congrArg Countdown.action? hsame)
      · exact .inr (.inl ((congrArg Countdown.action? hcancelled).trans hcancel))
      · exact .inr (.inr (.inl (congrArg Countdown.action? hstarted)))
    | reset => exact .inr (.inl hcancel)
    | _ => exact .inl rfl
  | beat => exact e.countdown.action_tick.imp_right .inl
  | press now => exact (hpress now).imp_right fun h => .inr (.inr h)
  | _ => exact .inl rfl

end Engine

/-! ## From a complete sequence to the restart -/

namespace Session

variable {β σ : Type} [Bus β] [Storage σ] {s : Session}

theorem avoids_cons {kind : Engine → Operation σ → Bool} {step : Step β σ} {steps : List (Step β σ)}
    (h : s.avoids kind (step :: steps) = true) :
    s.avoids kind [step] = true ∧ (s.take step).avoids kind steps = true := by
  cases step with
  | operation o =>
    obtain ⟨hquiet, hsteps⟩ : kind s.engine o = false ∧ (s.operate o).avoids kind steps = true := by
      simpa [avoids] using h
    exact ⟨by simpa [avoids] using hquiet, hsteps⟩
  | transmit bus now => exact ⟨rfl, h⟩

theorem isReset_of_avoids {steps : List (Step β σ)} (h : s.avoids Engine.stopsRestart steps = true) :
    ∀ step ∈ steps, step.isReset = false := by
  induction steps generalizing s with
  | nil => nofun
  | cons step steps ih =>
    obtain ⟨hstep, hsteps⟩ := avoids_cons h
    refine List.forall_mem_cons.mpr ⟨?_, ih hsteps⟩
    cases step with
    | operation o =>
      obtain ⟨hreset, -⟩ : ¬ o.request? = some .reset ∧ s.engine.completesRecovery o = false := by
        simpa [avoids, Engine.stopsRestart] using hstep
      exact decide_eq_false hreset
    | transmit bus now => rfl

/-- Unless it is stopped, the countdown of a restart counts the beats of the run. -/
theorem recovery_run {n : Nat} {light : Bool} {steps : List (Step β σ)}
    (h : s.engine.countdown = .start n light (.restart .softAp))
    (hsteps : s.avoids Engine.stopsRestart steps = true) (hbeats : beats steps < n) :
    (s.run steps).engine.countdown = .start (n - beats steps) light (.restart .softAp) :=
  counting_run h (fun _ _ => Engine.countdown_of_unstopped) hsteps hbeats

/-- Before the last beat no restart becomes pending; one that was pending before may be asked for. -/
theorem pending_recovery_run {n : Nat} {light : Bool} {steps : List (Step β σ)}
    (h : s.engine.countdown = .start n light (.restart .softAp))
    (hsteps : s.avoids Engine.stopsRestart steps = true) (hbeats : beats steps < n) :
    (s.run steps).engine.pending.restart? = none ∨
      (s.run steps).engine.pending.restart? = s.engine.pending.restart? := by
  induction steps generalizing s n with
  | nil => exact .inr rfl
  | cons step steps ih =>
    have hsplit : beats ([step] ++ steps) = beats [step] + beats steps := List.countP_append
    rw [List.singleton_append] at hsplit
    obtain ⟨hstep, hsteps⟩ := avoids_cons hsteps
    have hcountdown : (s.take step).engine.countdown = _ := recovery_run h hstep (by omega)
    have hkept : (s.take step).engine.pending.restart? = none ∨
        (s.take step).engine.pending.restart? = s.engine.pending.restart? := by
      cases hflush : step.isFlush with
      | true =>
        have hflushed := congrArg Agenda.restart? (s.agenda_of_isFlush hflush)
        exact .inl hflushed
      | false =>
        obtain ⟨arbiter, horders⟩ := s.orders_take hflush
        have hfired : s.firedBy step = none := by
          cases step with
          | operation o =>
            refine Engine.firedBy_of_counting h fun hbeat => ?_
            have hone : beats [(.operation o : Step β σ)] = 1 := List.countP_cons_of_pos hbeat
            omega
          | transmit bus now => rfl
        have hrestart := congrArg Agenda.restart? horders
        rw [hfired, Option.none_or] at hrestart
        exact .inr hrestart
    rcases ih hcountdown hsteps (by omega) with hnone | hsame
    · exact .inl hnone
    · rw [← hsame] at hkept
      exact hkept

/-- No countdown to a restart runs but one into setup. -/
def OnlySetup (s : Session) : Prop :=
  ∀ reason, s.engine.countdown.action? = some (.restart reason) → reason = .softAp

theorem OnlySetup.take (h : s.OnlySetup) (step : Step β σ) : (s.take step).OnlySetup := by
  intro reason hreason
  cases step with
  | operation o =>
    have haction : (s.engine.countdownAfter o).action? = some (.restart reason) :=
      (congrArg Countdown.action? (Engine.countdown_after s.engine o)).symm.trans hreason
    rcases s.engine.action_countdownAfter o with hsame | hnone | hclose | hsetup
    · exact h reason (hsame.symm.trans haction)
    · rw [hnone] at haction
      contradiction
    · rw [hclose] at haction
      cases haction
    · rw [hsetup] at haction
      cases haction
      rfl
  | transmit bus now =>
    have hsame : (s.transmit bus now).engine.countdown = s.engine.countdown := s.countdown_transmit bus now
    exact h reason (hsame ▸ hreason)

/-- A restart into setup is pending. -/
structure Restarts (s : Session) : Prop where
  setup : s.OnlySetup
  pending : s.engine.pending.restart? = some .softAp

/-- A pending restart waits for the next flush. -/
theorem Restarts.take (h : s.Restarts) {step : Step β σ} (hflush : step.isFlush = false) : (s.take step).Restarts where
  setup := h.setup.take step
  pending := by
    obtain ⟨arbiter, horders⟩ := s.orders_take hflush
    have hrestart : (s.take step).engine.pending.restart? = (s.firedBy step).or s.engine.pending.restart? :=
      congrArg Agenda.restart? horders
    rw [hrestart, h.pending]
    cases hfired : s.firedBy step with
    | none => rfl
    | some reason =>
      cases step with
      | operation o =>
        obtain rfl : reason = .softAp := h.setup reason (Engine.action_of_firedBy hfired)
        rfl
      | transmit bus now => contradiction

/-- The press itself gives no order. -/
theorem orders_of_completesRecovery {o : Operation σ} (h : s.engine.completesRecovery o = true) :
    (s.operate o).engine.pending.restart? = s.engine.pending.restart? ∧
      (s.operate o).engine.pending.reset = s.engine.pending.reset := by
  obtain ⟨hflush, hfired, hrequest⟩ : o.isFlush = false ∧ s.engine.firedBy o = none ∧ o.request? = none := by
    cases o with
    | byte | press => exact ⟨rfl, rfl, rfl⟩
    | _ => contradiction
  obtain ⟨arbiter, horders⟩ := s.engine.orders_after hflush
  rw [hfired, hrequest] at horders
  exact ⟨congrArg Agenda.restart? horders, (congrArg Agenda.reset horders).trans (Bool.or_false _)⟩

/-- The last beat of a recovery countdown ends it and makes the restart pending. -/
theorem fire_recovery {light : Bool} (h : s.engine.countdown = .start 1 light (.restart .softAp)) :
    (s.operate (.beat : Operation σ)).engine.countdown.isActive = false ∧
      (s.operate (.beat : Operation σ)).Restarts ∧
      (s.operate (.beat : Operation σ)).engine.pending.reset = s.engine.pending.reset := by
  have hended : (s.operate (.beat : Operation σ)).engine.countdown = ⟨0, light, none⟩ := by
    refine (Engine.countdown_after s.engine (.beat : Operation σ)).trans ?_
    rw [Engine.countdownAfter, h, Countdown.tick_start_one]
  have hfired : s.engine.firedBy (.beat : Operation σ) = some .softAp := by
    rw [Engine.firedBy, h]
    rfl
  obtain ⟨arbiter, horders⟩ := s.engine.orders_after (o := (.beat : Operation σ)) rfl
  rw [hfired] at horders
  have hsetup : (s.operate (.beat : Operation σ)).OnlySetup := by
    intro reason hreason
    rw [hended] at hreason
    contradiction
  have hpending : (s.operate (.beat : Operation σ)).engine.pending.restart? = some .softAp :=
    congrArg Agenda.restart? horders
  have hreset : (s.operate (.beat : Operation σ)).engine.pending.reset = s.engine.pending.reset :=
    (congrArg Agenda.reset horders).trans (Bool.or_false _)
  exact ⟨congrArg Countdown.isActive hended, ⟨hsetup, hpending⟩, hreset⟩

/-- What is ordered is kept until the next flush. -/
theorem Restarts.run (h : s.Restarts) {steps : List (Step β σ)}
    (hsteps : ∀ step ∈ steps, step.isFlush = false ∧ step.isReset = false) :
    (s.run steps).Restarts ∧ (s.run steps).engine.pending.reset = s.engine.pending.reset := by
  refine run_induction (P := fun x => x.Restarts ∧ x.engine.pending.reset = s.engine.pending.reset) ⟨h, rfl⟩ ?_
  rintro x ⟨hx, hreset⟩ step hmem
  obtain ⟨hflush, hquiet⟩ := hsteps step hmem
  obtain ⟨arbiter, horders⟩ := x.orders_take hflush
  have hsame : (x.take step).engine.pending.reset = (x.engine.pending.reset || step.isReset) :=
    congrArg Agenda.reset horders
  rw [hquiet, Bool.or_false] at hsame
  exact ⟨hx.take hflush, hsame.trans hreset⟩

/-- A flush asks for the restart that is pending, or for the one after a reset. -/
theorem Restarts.notes_flush (h : s.Restarts) (store : σ) :
    .restartRequested (if s.engine.pending.reset then .reset else .softAp) ∈
      s.notes (.operation (.flush store) : Step β σ) := by
  rw [restartRequested_mem_notes]
  refine ⟨rfl, ?_⟩
  have hreset : s.engine.agenda.reset = s.engine.pending.reset := rfl
  have hrestart : s.engine.agenda.restart? = some .softAp := h.pending
  rw [Agenda.due, hreset, hrestart]
  split
  · exact List.mem_singleton_self _
  · exact List.mem_singleton_self _

end Session

/-- **Ordinary traffic does not stop a recovery restart.**  Once a press at the console has completed a recovery
sequence, a countdown of six beats to a restart into setup runs, whatever was counted down before.  As long as there is
no reset and no other complete sequence, whatever else happens:

* before the sixth beat the countdown has lost one tick for every beat, and no new restart becomes pending;
* the sixth beat ends it and makes the restart pending, and the next flush asks for it, unless a reset is pending: then
  there was one at the press already, and no flush since.

A reset ends the countdown.  Another complete sequence starts a new one of six beats. -/
theorem restart_outlasts_traffic {β σ : Type} [Bus β] [Storage σ] {s : Session} {o : Operation σ}
    (hcomplete : s.engine.completesRecovery o = true) :
    let armed := s.operate o
    armed.engine.countdown = .start 6 s.engine.door.light (.restart .softAp) ∧
    ∀ steps : List (Step β σ), armed.avoids Engine.stopsRestart steps = true →
      let x := armed.run steps
      (beats steps < 6 →
        x.engine.countdown = .start (6 - beats steps) s.engine.door.light (.restart .softAp) ∧
        (x.engine.pending.restart? = none ∨ x.engine.pending.restart? = s.engine.pending.restart?)) ∧
      (beats steps = 5 →
        let fired := x.operate (.beat : Operation σ)
        fired.engine.countdown.isActive = false ∧ fired.engine.pending.restart? = some .softAp ∧
        (fired.engine.pending.reset = true → s.engine.pending.reset = true ∧ ∀ step ∈ steps, step.isFlush = false) ∧
        ∀ later : List (Step β σ), (∀ step ∈ later, step.isFlush = false ∧ step.isReset = false) → ∀ store : σ,
          .restartRequested (if fired.engine.pending.reset then .reset else .softAp) ∈
            (fired.run later).notes (.operation (.flush store) : Step β σ)) ∧
      ∀ o' : Operation σ,
        (o'.request? = some .reset → (x.operate o').engine.countdown.isActive = false) ∧
        (x.engine.completesRecovery o' = true →
          (x.operate o').engine.countdown = .start 6 x.engine.door.light (.restart .softAp)) := by
  intro armed
  have hstarted : armed.engine.countdown = .start 6 s.engine.door.light (.restart .softAp) :=
    (Engine.countdown_after s.engine o).trans (Engine.countdown_of_completesRecovery hcomplete)
  obtain ⟨hrestart, hreset⟩ := Session.orders_of_completesRecovery hcomplete
  refine ⟨hstarted, fun steps hsteps => ⟨fun hbeats => ?_, fun hbeats => ?_,
    fun o' => ⟨fun hstop => ?_, fun hagain => ?_⟩⟩⟩
  · have hkept := Session.pending_recovery_run hstarted hsteps hbeats
    rw [hrestart] at hkept
    exact ⟨Session.recovery_run hstarted hsteps hbeats, hkept⟩
  · have hlast := Session.recovery_run hstarted hsteps (by omega)
    rw [hbeats] at hlast
    obtain ⟨hended, hrestarts, hsame⟩ := Session.fire_recovery (σ := σ) hlast
    refine ⟨hended, hrestarts.pending, fun hpending => ?_, fun later hlater store => ?_⟩
    · rw [← hreset]
      exact Session.reset_run (Session.isReset_of_avoids hsteps) (hsame.symm.trans hpending)
    · obtain ⟨hkept, hstill⟩ := hrestarts.run hlater
      rw [← hstill]
      exact hkept.notes_flush store
  · exact (congrArg Countdown.isActive (Engine.countdown_after _ o')).trans (Engine.isActive_of_reset hstop)
  · exact (Engine.countdown_after _ o').trans (Engine.countdown_of_completesRecovery hagain)

/-- Four quick presses at a wall console. -/
def fourPresses : Session := (Session.new { security := .plus1, ttcSeconds := 10 }).run
  ([.operation (.byte 0x30 0), .operation (.byte 0x30 100), .operation (.byte 0x30 200),
    .operation (.byte 0x30 300)] : List (Step BusScript MemoryStore))

/-- Five beats after the fifth press: among them requests of all kinds, reports that the door is closing, a beam
transition, a collision and a flush. -/
def rushSteps : List (Step BusScript MemoryStore) :=
  [.operation .beat, .operation (.request .closeDoor), .operation .beat, .operation (.request .openDoor),
    .operation (.byte 0x38 500), .operation (.byte 0x54 501), .operation (.byte 0x38 520), .operation (.byte 0x54 521),
    .operation .beat, .operation (.request (.light true)), .operation (.obstruction true 600),
    .transmit { busy := [true] } 700, .operation .beat, .operation (.request (.lock true)),
    .operation (.flush {}), .operation .beat]

/-- After the sixth beat. -/
def rushed : Session :=
  ((fourPresses.operate (.byte 0x30 400 : Operation MemoryStore)).run rushSteps).operate (.beat : Operation MemoryStore)

/-- The sixth beat makes the restart pending, and the next flush asks for it. -/
theorem restart_outlasts_traffic_rush : rushed.engine.pending.restart? = some .softAp ∧
    .restartRequested .softAp ∈ rushed.notes (.operation (.flush {}) : Step BusScript MemoryStore) := by
  have hcomplete : fourPresses.engine.completesRecovery (.byte 0x30 400 : Operation MemoryStore) = true := by
    decide +kernel
  have hsteps : (fourPresses.operate (.byte 0x30 400 : Operation MemoryStore)).avoids Engine.stopsRestart
      rushSteps = true := by decide +kernel
  have hreset : rushed.engine.pending.reset = false := by decide +kernel
  obtain ⟨-, hrun⟩ := restart_outlasts_traffic (β := BusScript) hcomplete
  obtain ⟨-, hsixth, -⟩ := hrun rushSteps hsteps
  obtain ⟨-, hpending, -, hrequested⟩ := hsixth (by decide)
  have hflush : .restartRequested (if rushed.engine.pending.reset then .reset else .softAp) ∈
      rushed.notes (.operation (.flush {}) : Step BusScript MemoryStore) := hrequested [] nofun {}
  rw [hreset] at hflush
  exact ⟨hpending, hflush⟩

/-! ## Restarts and the counter -/

namespace Session

variable {β σ : Type} [Bus β] [Storage σ]

/-- A restart into setup is due from the last beat of a countdown, after which there was neither a reset nor a flush. -/
def Fired (s : Session) (steps : List (Step β σ)) : Prop :=
  ∃ earlier later, steps = earlier ++ .operation .beat :: later ∧
    (s.run earlier).engine.countdown.restart? = some .softAp ∧
    ∀ step ∈ later, step.isReset = false ∧ step.isFlush = false

theorem Fired.concat {s : Session} {steps : List (Step β σ)} (h : s.Fired steps) {step : Step β σ}
    (hstep : step.isReset = false ∧ step.isFlush = false) : s.Fired (steps ++ [step]) := by
  obtain ⟨earlier, later, hsteps, hfire, hlater⟩ := h
  refine ⟨earlier, later ++ [step], ?_, hfire, ?_⟩
  · rw [hsteps, List.append_assoc, List.cons_append]
  · rw [List.forall_mem_append]
    exact ⟨hlater, List.forall_mem_singleton.mpr hstep⟩

/-- What a run from a new engine knows of a pending restart: where it comes from, and that a save goes with it. -/
structure Orders (settings : Settings) (steps : List (Step β σ)) : Prop where
  save (hpending : ((new settings).run steps).engine.pending.restart?.isSome = true) :
    ((new settings).run steps).engine.pending.save = true
  fired (hpending : ((new settings).run steps).engine.pending.restart? = some .softAp)
    (hreset : ((new settings).run steps).engine.pending.reset = false) : (new settings).Fired steps

theorem orders_run (settings : Settings) (steps : List (Step β σ)) : Orders settings steps := by
  induction steps using List.reverseRecOn with
  | nil => exact ⟨nofun, nofun⟩
  | append_singleton steps step ih =>
    have hrun : (new settings).run (steps ++ [step]) = ((new settings).run steps).take step :=
      (new settings).run_append steps [step]
    cases hflush : step.isFlush with
    | true =>
      have hnone : ((new settings).run (steps ++ [step])).engine.pending.restart? = none := by
        rw [hrun]
        exact congrArg Agenda.restart? (agenda_of_isFlush _ hflush)
      constructor
      · intro hpending
        rw [hnone] at hpending
        contradiction
      · intro hpending
        rw [hnone] at hpending
        contradiction
    | false =>
      obtain ⟨arbiter, horders⟩ := ((new settings).run steps).orders_take hflush
      rw [← hrun] at horders
      constructor
      · intro hpending
        have hsave : ((new settings).run (steps ++ [step])).engine.pending.save = _ := congrArg Agenda.save horders
        have hrestart : ((new settings).run (steps ++ [step])).engine.pending.restart? = _ :=
          congrArg Agenda.restart? horders
        rw [hrestart] at hpending
        rw [hsave, Bool.or_eq_true_iff]
        cases hfired : ((new settings).run steps).firedBy step with
        | none =>
          rw [hfired, Option.none_or] at hpending
          exact .inl (ih.save hpending)
        | some reason => exact .inr rfl
      · intro hpending hreset
        obtain ⟨hidle, hquiet⟩ := Bool.or_eq_false_iff.mp ((congrArg Agenda.reset horders).symm.trans hreset)
        have hdue := (congrArg Agenda.restart? horders).symm.trans hpending
        cases hfired : ((new settings).run steps).firedBy step with
        | none =>
          rw [hfired] at hdue
          exact (ih.fired hdue hidle).concat ⟨hquiet, hflush⟩
        | some reason =>
          rw [hfired] at hdue
          obtain rfl : reason = .softAp := Option.some.inj hdue
          have hfire := hfired
          unfold firedBy Engine.firedBy at hfire
          split at hfire
          · split at hfire
            · exact ⟨steps, [], rfl, hfire, nofun⟩
            · contradiction
          · contradiction

end Session

/-- **A restart into setup never loses codes, and never comes unasked.**  On Security+ 2.0, whenever a run from a new
engine asks for a restart into setup, it is in a flush: once that flush could write the counter, the stored counter is
the one that the engine goes on with.  Before it the last beat of a recovery countdown fired this restart, and since then
there was no reset and no other request for it. -/
theorem restart_keeps_counter {β : Type} [Bus β] {settings : Settings} (hplus2 : settings.security = .plus2)
    {steps : List (Step β MemoryStore)} {step : Step β MemoryStore}
    (hnote : .restartRequested .softAp ∈ ((Session.new settings).run steps).notes step) :
    let s := (Session.new settings).run steps
    (∃ store, step = .operation (.flush store) ∧
      (store.fault? .rollingCode .write = none →
        ∃ w, (s.engine.flush store).2.2.value? .rollingCode = some (wordBytes w) ∧
          w.toNat = (s.take step).engine.identity.rolling)) ∧
    ∃ earlier later, steps = earlier ++ .operation .beat :: later ∧
      ((Session.new settings).run earlier).engine.countdown.restart? = some .softAp ∧
      (∀ st ∈ later, st.isReset = false) ∧
      ∀ before st after, later = before ++ st :: after →
        .restartRequested .softAp ∉ ((Session.new settings).run (earlier ++ .operation .beat :: before)).notes st := by
  intro s
  obtain ⟨hflush, hdue⟩ := s.restartRequested_mem_notes.mp hnote
  obtain ⟨hreset, hpending⟩ := Agenda.softAp_mem_due.mp hdue
  have horders : Session.Orders settings steps := Session.orders_run settings steps
  constructor
  · cases step with
    | operation o =>
      cases o with
      | flush store =>
        refine ⟨store, rfl, fun hworks => ⟨.ofNat s.engine.identity.rolling, ?_, ?_⟩⟩
        · have hsecurity : s.engine.settings.security = .plus2 :=
            ((Session.new settings).security_run steps).trans hplus2
          have hsave : s.engine.saveIsDue = true :=
            Bool.or_eq_true_iff.mpr (.inl (horders.save (Option.isSome_of_eq_some hpending)))
          rw [Engine.counter_flush hsecurity hreset, if_pos ⟨hsave, hworks⟩]
        · have hcounter : s.engine.identity.rolling < counterBound := ((Sound.new settings).run steps).counter
          have hsame : (s.take (.operation (.flush store) : Step β MemoryStore)).engine.identity.rolling =
              s.engine.identity.rolling :=
            congrArg (·.2.2) (Engine.stamp_after s.engine (o := .flush store) rfl)
          rw [counterBound_val] at hcounter
          rw [hsame, UInt32.toNat_ofNat', Nat.mod_eq_of_lt (by omega)]
      | _ => contradiction
    | transmit bus now => contradiction
  · obtain ⟨earlier, later, hsteps, hfire, hlater⟩ := horders.fired hpending hreset
    refine ⟨earlier, later, hsteps, hfire, fun st hst => (hlater st hst).1, fun before st after hsplit hagain => ?_⟩
    obtain ⟨hflushed, -⟩ := (Session.restartRequested_mem_notes _).mp hagain
    have hst : st ∈ later := hsplit ▸ List.mem_append_right before List.mem_cons_self
    rw [(hlater st hst).2] at hflushed
    contradiction

/-- A recovery sequence at the console, six beats, and packets that go out in between. -/
def recoverySteps : List (Step BusScript MemoryStore) :=
  [.operation (.start {} 7 0), .operation (.press 10), .operation (.press 20), .operation (.press 30),
    .operation (.press 40), .operation (.press 50), .operation .beat, .transmit {} 1000, .operation .beat,
    .operation .beat, .transmit {} 2000, .operation .beat, .operation .beat, .operation .beat, .transmit {} 3000]

/-- Three codes were used by then, and the counter that the flush stores says so. -/
theorem restart_keeps_counter_recovery :
    .restartRequested .softAp ∈
        ((Session.new {}).run recoverySteps).notes (.operation (.flush {}) : Step BusScript MemoryStore) ∧
      ∃ w, (((Session.new {}).run recoverySteps).engine.flush ({} : MemoryStore)).2.2.value? .rollingCode =
        some (wordBytes w) ∧ w.toNat = 3 := by
  have hnote : .restartRequested .softAp ∈
      ((Session.new {}).run recoverySteps).notes (.operation (.flush {}) : Step BusScript MemoryStore) := by
    decide +kernel
  have hcounter : (((Session.new {}).run recoverySteps).take
      (.operation (.flush {}) : Step BusScript MemoryStore)).engine.identity.rolling = 3 := by decide +kernel
  obtain ⟨⟨store, hstep, hsaved⟩, -⟩ := restart_keeps_counter rfl hnote
  cases hstep
  obtain ⟨w, hstored, hw⟩ := hsaved rfl
  exact ⟨hnote, w, hstored, hw.trans hcounter⟩

end DoorBridge
