import DoorBridge.Arbiter.Script
import DoorBridge.Proofs.Engine.Delay
import DoorBridge.Proofs.Session
import DoorBridge.Storage.Memory

/-!
# Proofs.Session.Refusal — what a refused request leaves behind

* `hands_apply` says for `Engine.apply` what is handed to the queue, and that the answer is ok exactly if all of it was
  taken.
* Opening the door during a delayed close hands over what puts the light back and then a command; any other request hands
  over one sequence at most.  So a refused request has added nothing to the queue, or only what puts the light back
  (`queue_of_refused`).
* A request that ends a delayed close has done so before the queue is asked (`Engine.endsDelay`).  So a refused request
  changes nothing exactly if it was not one of those (`refused_unchanged_iff`).
-/

namespace DoorBridge

namespace Queue

variable {q : Queue} {seqs : List (List PacketAction)}

/-- Of a single sequence that does not fit nothing is taken. -/
theorem takes_eq_nil_of_refused (hsingle : seqs.length ≤ 1) (h : q.takesAll seqs = false) : q.takes seqs = [] := by
  match seqs with
  | [] => rfl
  | [s] =>
    rw [takesAll_singleton] at h
    rw [takes_singleton, h]
    rfl
  | _ :: _ :: _ => simp at hsingle

/-- If not all of some sequences are taken, the last one is not. -/
theorem takes_append_of_refused {last : List (List PacketAction)} (hsingle : last.length ≤ 1)
    (h : q.takesAll (seqs ++ last) = false) : q.takes (seqs ++ last) = q.takes seqs := by
  by_cases hfirst : q.takesAll seqs = true
  · obtain ⟨htakes, hall⟩ := takes_append_of_takesAll hfirst last
    rw [htakes, takes_eq_nil_of_refused hsingle (hall.symm.trans h), List.append_nil]
  · exact (takes_append_of_not_takesAll (Bool.eq_false_of_not_eq_true hfirst) last).1

end Queue

theorem Countdown.remaining_cancel {c : Countdown} (h : c.isClosing = true) : c.cancel.2.remaining = 0 := by
  have haction : c.action? = some .closeDoor := of_decide_eq_true h
  rw [cancel, haction]

namespace Engine

variable {e : Engine} {r : ControlRequest}

/-- **What a request hands over**, and that its answer is ok exactly if all of it was taken. -/
theorem hands_apply (e : Engine) (r : ControlRequest) :
    Hands (e.prepared r) (e.requestLeft r) (e.requestAsks r) (e.apply r) := by
  rw [apply.eq_def]
  dsimp only
  generalize [Event.debug _] = logged
  cases r with
  | openDoor => exact ⟨(hands_openDoor (e.emit logged)).engine, (hands_openDoor (e.emit logged)).answer⟩
  | closeDoor => exact ⟨(hands_closeDoor (e.emit logged)).engine, (hands_closeDoor (e.emit logged)).answer⟩
  | light on => exact ⟨(hands_setLight (e.emit logged) on).engine, (hands_setLight (e.emit logged) on).answer⟩
  | lock locked => exact ⟨(hands_setLock (e.emit logged) locked).engine, (hands_setLock (e.emit logged) locked).answer⟩
  | getStatus => exact ⟨(hands_requestStatus (e.emit logged)).engine, (hands_requestStatus (e.emit logged)).answer⟩
  | reset => exact ⟨call_eq (e.emit logged) .reset, iff_of_true rfl rfl⟩

/-- A refused request had something to hand over that did not fit. -/
theorem takesAll_of_refused {cause : EngineError} (h : (e.apply r).1 = .error cause) :
    (e.requestLeft r).takesAll (e.requestAsks r) = false := by
  apply Bool.eq_false_of_not_eq_true
  intro hall
  rw [(hands_apply e r).answer.mpr hall] at h
  contradiction

/-! ## What a refusal leaves -/

/-- Whether a request throws out blinks before it asks for anything. -/
def reopens (e : Engine) (r : ControlRequest) : Bool := r = .openDoor && e.countdown.isClosing

theorem reopens_iff : e.reopens r = true ↔ r = .openDoor ∧ e.countdown.isClosing = true := by
  rw [reopens, Bool.and_eq_true, decide_eq_true_iff]

/-- Whether a request stops a delayed close. -/
def endsDelay (e : Engine) : ControlRequest → Bool
  | .openDoor | .reset => e.countdown.isClosing
  | .closeDoor => e.countdown.isClosing && e.door.current != .closed && e.door.current != .opening
  | _ => false

theorem length_requestAsks_le (h : e.reopens r = false) : (e.requestAsks r).length ≤ 1 := by
  cases r with
  | openDoor =>
    have hcounting : e.countdown.isClosing = false := by simpa [reopens] using h
    rw [requestAsks, openAsks, hcounting, if_neg Bool.false_ne_true, List.nil_append]
    split <;> simp [doorAsks]
  | closeDoor =>
    rw [requestAsks, closeAsks]
    split
    · simp
    · simp [doorAsks]
    · split <;> simp [doorAsks]
  | light on =>
    rw [requestAsks, lightAsks]
    split <;> simp
  | lock locked =>
    rw [requestAsks, lockAsks]
    split <;> simp
  | getStatus =>
    rw [requestAsks, statusAsks]
    split <;> simp
  | reset => simp [requestAsks]

theorem requestLeft_eq_queue (hopen : e.reopens r = false) (hreset : r ≠ .reset) : e.requestLeft r = e.queue := by
  cases r with
  | openDoor =>
    have hcounting : e.countdown.isClosing = false := by simpa [reopens] using hopen
    rw [requestLeft, hcounting, if_neg Bool.false_ne_true]
  | reset => exact absurd rfl hreset
  | _ => rfl

/-- A reset is never refused. -/
theorem ne_reset_of_refused {cause : EngineError} (h : (e.apply r).1 = .error cause) : r ≠ .reset := by
  rintro rfl
  contradiction

theorem queue_apply (e : Engine) (r : ControlRequest) :
    (e.apply r).2.queue = (e.requestLeft r).append ((e.requestLeft r).takes (e.requestAsks r)) := by
  obtain ⟨events, h⟩ := (hands_apply e r).engine
  rw [h]

theorem countdown_apply (e : Engine) (r : ControlRequest) : (e.apply r).2.countdown = (e.prepared r).countdown := by
  obtain ⟨events, h⟩ := (hands_apply e r).engine
  rw [h]

/-- **What is queued after a refusal**: what was, or, if the door was to be opened during a delayed close, what was
without the blinks and with what puts the light back, as far as it fits. -/
theorem queue_of_refused {cause : EngineError} (h : (e.apply r).1 = .error cause) :
    (e.apply r).2.queue =
      if e.reopens r then e.unblinked.append (e.unblinked.takes (e.restoreAsks e.countdown.savedLight))
      else e.queue := by
  have hrefused := takesAll_of_refused h
  rw [queue_apply]
  by_cases hopen : e.reopens r = true
  · obtain ⟨rfl, hclosing⟩ := reopens_iff.mp hopen
    rw [requestLeft, requestAsks, openAsks, if_pos hclosing, if_pos hclosing] at hrefused
    rw [if_pos hopen, requestLeft, requestAsks, openAsks, if_pos hclosing, if_pos hclosing,
      Queue.takes_append_of_refused _ hrefused]
    split <;> simp [doorAsks]
  · have hkeeps : e.reopens r = false := Bool.eq_false_of_not_eq_true hopen
    rw [requestLeft_eq_queue hkeeps (ne_reset_of_refused h)] at hrefused ⊢
    rw [if_neg hopen, Queue.takes_eq_nil_of_refused (length_requestAsks_le hkeeps) hrefused, Queue.append_nil]

/-- **The countdown after a refusal**: stopped, if the request ends a delayed close, and as it was otherwise. -/
theorem countdown_of_refused {cause : EngineError} (h : (e.apply r).1 = .error cause) :
    (e.apply r).2.countdown = if e.endsDelay r then e.countdown.cancel.2 else e.countdown := by
  have hrefused := takesAll_of_refused h
  rw [countdown_apply]
  cases r with
  | openDoor => rfl
  | closeDoor =>
    -- what was refused is a command, so the door did not start a countdown
    show e.closeCountdown = _
    rw [requestAsks, closeAsks] at hrefused
    rw [closeCountdown, endsDelay]
    cases hcurrent : e.door.current
    case closed => simp
    case opening => simp
    all_goals
      have hcounts : e.closeCounts = false := by
        apply Bool.eq_false_of_not_eq_true
        intro hcounts
        rw [hcurrent] at hrefused
        simp [hcounts, Queue.takesAll] at hrefused
      simp [hcounts]
  | reset => contradiction
  | _ => rfl

theorem isClosing_of_endsDelay (h : e.endsDelay r = true) : e.countdown.isClosing = true := by
  cases r with
  | openDoor => exact h
  | closeDoor =>
    rw [endsDelay, Bool.and_assoc] at h
    exact (Bool.and_eq_true_iff.mp h).1
  | reset => exact h
  | _ => contradiction

end Engine

/-- **A refused request leaves queue and countdown as they were, unless it ends a delayed close.**  Then the countdown is
stopped, although no door command was queued; a request to open has thrown out the queued blinks and queued what puts the
light back, as far as it fits, and a request to close has left the queue alone. -/
theorem refused_unchanged_iff {e : Engine} {r : ControlRequest} (hrefused : (e.apply r).1 = .error .queueFull) :
    ((e.apply r).2.queue = e.queue ∧ (e.apply r).2.countdown.action? = e.countdown.action? ∧
        (e.apply r).2.countdown.remaining = e.countdown.remaining ↔ e.endsDelay r = false) ∧
      (e.endsDelay r = true →
        (e.apply r).2.countdown.action? = none ∧ (e.apply r).2.countdown.remaining = 0 ∧
        (e.apply r).2.queue =
          if r = .openDoor then e.unblinked.append (e.unblinked.takes (e.restoreAsks e.countdown.savedLight))
          else e.queue) := by
  have hqueue := Engine.queue_of_refused hrefused
  have hcountdown := Engine.countdown_of_refused hrefused
  by_cases hends : e.endsDelay r = true
  · have hclosing : e.countdown.isClosing = true := Engine.isClosing_of_endsDelay hends
    have haction : e.countdown.action? = some .closeDoor := of_decide_eq_true hclosing
    rw [if_pos hends] at hcountdown
    have hstopped : (e.apply r).2.countdown.action? = none := by rw [hcountdown, Countdown.action_cancel]
    refine ⟨iff_of_false ?_ (by rw [hends]; decide), fun _ => ⟨hstopped, ?_, ?_⟩⟩
    · rintro ⟨-, hsame, -⟩
      rw [hstopped, haction] at hsame
      contradiction
    · rw [hcountdown, Countdown.remaining_cancel hclosing]
    · rw [hqueue, Engine.reopens, hclosing, Bool.and_true]
      by_cases hopen : r = .openDoor <;> simp [hopen]
  · have hkeeps : e.reopens r = false := by
      apply Bool.eq_false_of_not_eq_true
      intro hopen
      obtain ⟨rfl, hclosing⟩ := Engine.reopens_iff.mp hopen
      exact hends hclosing
    rw [hkeeps, if_neg Bool.false_ne_true] at hqueue
    rw [if_neg hends] at hcountdown
    refine ⟨iff_of_true ⟨hqueue, ?_, ?_⟩ (Bool.eq_false_of_not_eq_true hends), fun h => absurd h hends⟩
    · rw [hcountdown]
    · rw [hcountdown]

/-- A delayed close of five seconds has started, and five more requests have left one place in the queue. -/
def crowdedClose : Session :=
  (Session.boot { ttcSeconds := 5 } ({} : MemoryStore) 0 0).run
    ((.closeDoor :: List.replicate 5 .getStatus).map fun r =>
      (.operation (.request r) : Step BusScript MemoryStore))

/-- The light cannot be turned on there, and the countdown goes on. -/
theorem refused_unchanged_iff_light : (crowdedClose.engine.apply (.light true)).1 = .error .queueFull ∧
    (crowdedClose.engine.apply (.light true)).2.queue.size = 7 ∧
    (crowdedClose.engine.apply (.light true)).2.countdown.remaining = 10 := by
  have hrefused : (crowdedClose.engine.apply (.light true)).1 = .error .queueFull := by decide +kernel
  have hlight : crowdedClose.engine.endsDelay (.light true) = false := rfl
  obtain ⟨hqueue, -, hremaining⟩ := (refused_unchanged_iff hrefused).1.mpr hlight
  rw [hqueue, hremaining]
  exact ⟨hrefused, by decide +kernel, by decide +kernel⟩

/-- Nor can the door be closed at once, but then it is not closed later either. -/
theorem delay_lost_to_refusal : crowdedClose.engine.countdown.action? = some .closeDoor ∧
    (crowdedClose.engine.apply .closeDoor).1 = .error .queueFull ∧
    (crowdedClose.engine.apply .closeDoor).2.queue = crowdedClose.engine.queue ∧
    (crowdedClose.engine.apply .closeDoor).2.countdown.action? = none := by
  decide +kernel

end DoorBridge
