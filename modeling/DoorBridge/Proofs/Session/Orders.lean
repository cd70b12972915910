import DoorBridge.Proofs.Engine.Tries
import DoorBridge.Proofs.Session.Replay

/-!
# Proofs.Session.Orders — what the next flush is told, and what it says

Outside flushes the orders of a session only grow (`Session.orders_take`), and a flush carries them out
(`Session.agenda_of_isFlush`).  `Session.notes` are the notifications of a step: only flushes ask for restarts, and what
they ask for was pending (`Session.restartRequested_mem_notes`).
-/

namespace DoorBridge

def Step.isFlush {β σ : Type} : Step β σ → Bool
  | operation o => o.isFlush
  | transmit .. => false

/-- A flush asks for a restart into setup if one is pending and no reset is. -/
theorem Agenda.softAp_mem_due {a : Agenda} :
    .softAp ∈ a.due ↔ a.reset = false ∧ a.restart? = some .softAp := by
  rw [due]
  cases a.reset <;> simp

namespace Session

variable {β σ : Type} [Bus β] [Storage σ] (s : Session)

/-- The notifications of a step. -/
def notes (step : Step β σ) : List Notification :=
  Event.notifications ((s.take step).engine.events.drop s.engine.events.length)

/-- The restart that a step makes pending. -/
def firedBy : Step β σ → Option RestartReason
  | .operation o => s.engine.firedBy o
  | .transmit .. => none

theorem orders_take {step : Step β σ} (h : step.isFlush = false) : ∃ arbiter, (s.take step).engine.agenda =
    ⟨arbiter, s.engine.agenda.save || (s.firedBy step).isSome, s.engine.agenda.reset || step.isReset,
      (s.firedBy step).or s.engine.agenda.restart?, s.engine.agenda.requested⟩ := by
  cases step with
  | operation o => exact s.engine.orders_after h
  | transmit bus now =>
    refine ⟨(s.transmit bus now).engine.arbiter, (s.agenda_transmit bus now).trans ?_⟩
    rw [firedBy, Option.isSome_none, Step.isReset, Bool.or_false, Bool.or_false, Option.none_or]

theorem agenda_of_isFlush {step : Step β σ} (h : step.isFlush = true) :
    (s.take step).engine.agenda = s.engine.agenda.flushed := by
  cases step with
  | operation o =>
    cases o with
    | flush store => exact s.engine.agenda_flush store
    | _ => contradiction
  | transmit bus now => contradiction

/-- Only flushes ask for restarts. -/
theorem restarts_notes (step : Step β σ) :
    (s.notes step).filterMap Notification.restart? = if step.isFlush then s.engine.agenda.due else [] := by
  obtain ⟨new, hevents, -⟩ := s.reports_take step
  have hrequested : (s.take step).engine.agenda.requested = s.engine.agenda.requested ++ restartsIn new := by
    have hall : (s.take step).engine.agenda.requested = restartsIn (s.take step).engine.events := rfl
    rw [hall, hevents, restartsIn_append]
    rfl
  have hnew : s.notes step = Event.notifications new := by rw [notes, hevents, List.drop_left]
  have hsame : s.engine.agenda.requested ++ restartsIn new =
      s.engine.agenda.requested ++ if step.isFlush then s.engine.agenda.due else [] := by
    rw [← hrequested]
    cases hflush : step.isFlush with
    | false =>
      obtain ⟨arbiter, horders⟩ := s.orders_take hflush
      rw [horders, if_neg Bool.false_ne_true, List.append_nil]
    | true =>
      rw [s.agenda_of_isFlush hflush]
      rfl
  rw [hnew]
  exact List.append_cancel_left hsame

theorem restartRequested_mem_notes {step : Step β σ} {reason : RestartReason} :
    .restartRequested reason ∈ s.notes step ↔ step.isFlush = true ∧ reason ∈ s.engine.agenda.due := by
  have hmem : .restartRequested reason ∈ s.notes step ↔
      reason ∈ (s.notes step).filterMap Notification.restart? := mem_restartsIn.symm
  rw [hmem, restarts_notes]
  cases step.isFlush <;> simp

variable {s}

/-- Without a reset on the way, a reset that is pending was pending all along. -/
theorem reset_run {steps : List (Step β σ)} (hsteps : ∀ step ∈ steps, step.isReset = false)
    (h : (s.run steps).engine.pending.reset = true) :
    s.engine.pending.reset = true ∧ ∀ step ∈ steps, step.isFlush = false := by
  induction steps generalizing s with
  | nil => exact ⟨h, nofun⟩
  | cons step steps ih =>
    obtain ⟨hquiet, hquiets⟩ := List.forall_mem_cons.mp hsteps
    obtain ⟨hnext, hunflushed⟩ := ih hquiets h
    cases hflush : step.isFlush with
    | true =>
      have hcleared : (s.take step).engine.pending.reset = false :=
        congrArg Agenda.reset (s.agenda_of_isFlush hflush)
      rw [hcleared] at hnext
      contradiction
    | false =>
      obtain ⟨arbiter, horders⟩ := s.orders_take hflush
      have hsame : (s.take step).engine.pending.reset = (s.engine.pending.reset || step.isReset) :=
        congrArg Agenda.reset horders
      rw [hsame, hquiet, Bool.or_false] at hnext
      exact ⟨hnext, List.forall_mem_cons.mpr ⟨hflush, hunflushed⟩⟩

end Session

end DoorBridge
