import DoorBridge.Arbiter.Script
import DoorBridge.Proofs.Session
import DoorBridge.Storage.Memory

/-!
# Proofs.Session.Order — packets go out at most once, in order and without loss

What was sent and what is still queued are together a subsequence of what the queue took (`InOrder.order`), and
nothing else is missing but what was revoked or cleared (`InOrder.whole`).  Both are kept by every step: an operation
adds at the end of the queue what it adds to the record, and a try to send moves at most the front.
-/

namespace DoorBridge

/-- Nothing that the queue took is unaccounted for, and nothing overtook anything. -/
structure InOrder (s : Session) : Prop where
  order : (s.sent ++ s.engine.queue.actions).Sublist s.accepted
  whole : s.accepted.Perm (s.sent ++ s.engine.queue.actions ++ (s.revoked ++ s.cleared))
  revoked : ∀ a ∈ s.revoked, ∃ command pressed, a.packet = .light command pressed

namespace InOrder

variable {β σ : Type} [Bus β] [Storage σ] {s : Session}

theorem new (settings : Settings) : InOrder (.new settings) where
  order := List.Sublist.refl []
  whole := List.Perm.refl []
  revoked _ ha := absurd ha List.not_mem_nil

theorem operate (h : InOrder s) (o : Operation σ) : InOrder (s.operate o) := by
  obtain ⟨hleft, hgone⟩ := Engine.left_spec s.engine o
  have hqueue := Engine.actions_after s.engine o
  constructor
  · have hkept : (s.sent ++ (s.engine.left o).actions).Sublist s.accepted := (hleft.append_left s.sent).trans h.order
    dsimp only [Session.operate]
    rw [hqueue, ← List.append_assoc]
    exact hkept.append (List.Sublist.refl _)
  · -- what left the queue is in the records of what was revoked and cleared, what came into it in that of what was taken
    rw [List.perm_iff_count]
    intro a
    have hwhole := h.whole.count_eq a
    have hgone := hgone.count_eq a
    dsimp only [Session.operate]
    rw [hqueue]
    simp only [List.count_append] at hwhole hgone ⊢
    omega
  · intro a ha
    rcases List.mem_append.mp ha with ha | ha
    · exact h.revoked a ha
    · exact Engine.light_of_mem_revokes ha

theorem transmit (hsound : Sound s) (h : InOrder s) (bus : β) (now : Nat) : InOrder (s.transmit bus now) := by
  have hmoved := hsound.sent_queued_transmit bus now
  obtain ⟨haccepted, hrevoked, hcleared⟩ := s.transmit_same bus now
  constructor
  · rw [hmoved, haccepted]
    exact h.order
  · rw [hmoved, haccepted, hrevoked, hcleared]
    exact h.whole
  · rw [hrevoked]
    exact h.revoked

theorem take (hsound : Sound s) (h : InOrder s) (step : Step β σ) : InOrder (s.take step) := by
  cases step with
  | operation o => exact h.operate o
  | transmit bus now => exact h.transmit hsound bus now

theorem run (hsound : Sound s) (h : InOrder s) (steps : List (Step β σ)) : InOrder (s.run steps) :=
  hsound.run_induction h fun _ hx h step _ => h.take hx step

end InOrder

/-- A sequence is queued whole or not at all. -/
theorem Engine.enqueue_cases (e : Engine) (actions : List PacketAction) :
    (e.enqueue actions).1 = .ok () ∧ (e.enqueue actions).2.queue.actions = e.queue.actions ++ actions ∨
      (e.enqueue actions).1 = .error .queueFull ∧ (e.enqueue actions).2.queue = e.queue := by
  rw [enqueue, Queue.push?_eq]
  by_cases hfits : e.queue.fits actions = true
  · rw [if_pos hfits]
    exact .inl ⟨rfl, rfl⟩
  · rw [if_neg hfits]
    exact .inr ⟨rfl, rfl⟩

/-- **Packets go out at most once, in order and without loss.**  At any moment of any run, what was sent and then what
is queued are a subsequence of what the queue took.  What is missing from it are light packets that left the queue when
opening the door cancelled a delayed close, and what was queued when a reset was asked for.  The queue never holds more
than eight actions.  A sequence is queued whole or refused whole, and what counts as taken from the next operation is
what that operation adds to the queue. -/
theorem sent_once_in_order {β σ : Type} [Bus β] [Storage σ] (settings : Settings) (steps : List (Step β σ)) :
    let s := (Session.new settings).run steps
    (s.sent ++ s.engine.queue.actions).Sublist s.accepted ∧
      s.accepted.Perm (s.sent ++ s.engine.queue.actions ++ (s.revoked ++ s.cleared)) ∧
      (∀ a ∈ s.revoked, ∃ command pressed, a.packet = .light command pressed) ∧
      s.engine.queue.size ≤ 8 ∧
      (∀ actions : List PacketAction,
        (s.engine.enqueue actions).1 = .ok () ∧
            (s.engine.enqueue actions).2.queue.actions = s.engine.queue.actions ++ actions ∨
          (s.engine.enqueue actions).1 = .error .queueFull ∧
            (s.engine.enqueue actions).2.queue = s.engine.queue) ∧
      ∀ o : Operation σ, (s.engine.after o).queue.actions = (s.engine.left o).actions ++ s.engine.accepts o := by
  intro s
  have hsound : Sound s := (Sound.new settings).run steps
  have hinOrder : InOrder s := (InOrder.new settings).run (Sound.new settings) steps
  exact ⟨hinOrder.order, hinOrder.whole, hinOrder.revoked, hsound.size, Engine.enqueue_cases s.engine,
    Engine.actions_after s.engine⟩

/-- A delayed close that is cancelled before its first blink went out, a collision, and a reset. -/
def reopenedSteps : List (Step BusScript MemoryStore) :=
  [.operation (.request .closeDoor), .operation .beat, .operation (.request .openDoor), .transmit {} 0,
    .transmit { busy := [true] } 1000, .transmit {} 2000, .operation (.request .reset)]

/-- The blink was revoked, and the reset cleared the release of a press that had gone out. -/
theorem sent_once_in_order_reopened :
    let s := (Session.new { ttcSeconds := 5 }).run reopenedSteps
    s.sent.map (·.packet) = [.getStatus, .doorAction .raise true 1] ∧
      s.revoked.map (·.packet) = [.light .on false] ∧
      s.cleared.map (·.packet) = [.doorAction .raise false 1, .getStatus] ∧
      (s.sent ++ s.engine.queue.actions).Sublist s.accepted ∧
      s.accepted.Perm (s.sent ++ s.engine.queue.actions ++ (s.revoked ++ s.cleared)) := by
  obtain ⟨horder, hwhole, -⟩ := sent_once_in_order { ttcSeconds := 5 } reopenedSteps
  exact ⟨by decide +kernel, by decide +kernel, by decide +kernel, horder, hwhole⟩

end DoorBridge
