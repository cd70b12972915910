import DoorBridge.Queue
import Mathlib.Tactic.Common

/-!
# Proofs.Queue — what goes into the queue and what is thrown out of it

* `Queue.takes q seqs` is what a queue takes of sequences that are handed to it in turn, up to the first one that does
  not fit; it is a row of whole sequences (`takes_eq_flatten`), and never more than there is room for (`size_takes_le`).
* `Queue.discarded` is what a discard throws out; nothing else is missing afterwards (`discard_perm`), and what stays
  keeps its order (`discard_sublist`).
-/

namespace DoorBridge

namespace Queue

/-- The queue with some more actions at its end, fitting or not. -/
def append (q : Queue) (actions : List PacketAction) : Queue := ⟨q.actions ++ actions⟩

@[simp] theorem actions_append (q : Queue) (actions : List PacketAction) :
    (q.append actions).actions = q.actions ++ actions := rfl

@[simp] theorem append_nil (q : Queue) : q.append [] = q := by
  rw [append, List.append_nil]

theorem append_append (q : Queue) (a b : List PacketAction) : (q.append a).append b = q.append (a ++ b) := by
  rw [append, append, append, List.append_assoc]

theorem push?_eq (q : Queue) (actions : List PacketAction) :
    q.push? actions = if q.fits actions then some (q.append actions) else none := rfl

/-! ## Sequences handed over in turn -/

/-- What the queue takes of sequences that are handed to it in turn, up to the first one that does not fit. -/
def takes (q : Queue) : List (List PacketAction) → List PacketAction
  | [] => []
  | s :: seqs => if q.fits s then s ++ (q.append s).takes seqs else []

/-- Whether all of them fit. -/
def takesAll (q : Queue) : List (List PacketAction) → Bool
  | [] => true
  | s :: seqs => q.fits s && (q.append s).takesAll seqs

variable {q : Queue}

theorem takes_singleton (q : Queue) (s : List PacketAction) : q.takes [s] = if q.fits s then s else [] := by
  rw [takes, takes, List.append_nil]

theorem takesAll_singleton (q : Queue) (s : List PacketAction) : q.takesAll [s] = q.fits s := Bool.and_true _

/-- Sequences that are all taken leave the next ones what room there is. -/
theorem takes_append_of_takesAll {first : List (List PacketAction)} (h : q.takesAll first = true)
    (later : List (List PacketAction)) :
    q.takes (first ++ later) = q.takes first ++ (q.append (q.takes first)).takes later ∧
      q.takesAll (first ++ later) = (q.append (q.takes first)).takesAll later := by
  induction first generalizing q with
  | nil =>
    rw [takes, append_nil]
    exact ⟨rfl, rfl⟩
  | cons s first ih =>
    obtain ⟨hfits, hrest⟩ := Bool.and_eq_true_iff.mp h
    obtain ⟨htakes, hall⟩ := ih hrest
    rw [append_append] at htakes hall
    rw [List.cons_append, takes, takes, takesAll, if_pos hfits, if_pos hfits, hfits, Bool.true_and, htakes, hall]
    exact ⟨(List.append_assoc ..).symm, rfl⟩

/-- After a sequence that does not fit none is taken. -/
theorem takes_append_of_not_takesAll {first : List (List PacketAction)} (h : q.takesAll first = false)
    (later : List (List PacketAction)) :
    q.takes (first ++ later) = q.takes first ∧ q.takesAll (first ++ later) = false := by
  induction first generalizing q with
  | nil => contradiction
  | cons s first ih =>
    rw [List.cons_append, takes, takes, takesAll]
    cases hfits : q.fits s with
    | false => exact ⟨rfl, rfl⟩
    | true =>
      rw [takesAll, hfits, Bool.true_and] at h
      obtain ⟨htakes, hall⟩ := ih h
      rw [if_pos rfl, if_pos rfl, htakes, hall]
      exact ⟨rfl, rfl⟩

/-- What is taken is a row of whole sequences. -/
theorem takes_eq_flatten (q : Queue) (seqs : List (List PacketAction)) :
    ∃ taken, taken <+: seqs ∧ q.takes seqs = taken.flatten := by
  induction seqs generalizing q with
  | nil => exact ⟨[], List.prefix_rfl, rfl⟩
  | cons s seqs ih =>
    rw [takes]
    split
    · obtain ⟨taken, hprefix, htaken⟩ := ih (q.append s)
      exact ⟨s :: taken, (List.prefix_cons_inj s).mpr hprefix, by rw [htaken, List.flatten_cons]⟩
    · exact ⟨[], List.nil_prefix, rfl⟩

/-- If all of them fit, all are taken. -/
theorem takes_of_takesAll {seqs : List (List PacketAction)} (h : q.takesAll seqs = true) :
    q.takes seqs = seqs.flatten := by
  induction seqs generalizing q with
  | nil => rfl
  | cons s seqs ih =>
    obtain ⟨hfits, hrest⟩ := Bool.and_eq_true_iff.mp h
    rw [takes, if_pos hfits, ih hrest, List.flatten_cons]

theorem mem_takes {seqs : List (List PacketAction)} {a : PacketAction} (h : a ∈ q.takes seqs) :
    ∃ s ∈ seqs, a ∈ s := by
  obtain ⟨taken, hprefix, htaken⟩ := q.takes_eq_flatten seqs
  rw [htaken] at h
  obtain ⟨s, hs, ha⟩ := List.mem_flatten.mp h
  exact ⟨s, hprefix.subset hs, ha⟩

/-- Taking never overfills the queue. -/
theorem size_takes_le (h : q.size ≤ queueDepth) (seqs : List (List PacketAction)) :
    (q.append (q.takes seqs)).size ≤ queueDepth := by
  induction seqs generalizing q with
  | nil => rwa [takes, append_nil]
  | cons s seqs ih =>
    rw [takes]
    split
    · next hfits =>
      rw [← append_append]
      refine ih ?_
      rw [size, actions_append, List.length_append]
      exact of_decide_eq_true hfits
    · rwa [append_nil]

/-! ## Discarding -/

section Discard

variable {σ : Type} (drop : σ → PacketAction → Bool × σ)

/-- What a discard throws out, in order. -/
def discarded (state : σ) : List PacketAction → List PacketAction
  | [] => []
  | a :: rest =>
    if (drop state a).1 then a :: discarded (drop state a).2 rest else discarded (drop state a).2 rest

theorem discard_go_cons (state : σ) (a : PacketAction) (rest : List PacketAction) :
    (discard.go drop state (a :: rest)).2.actions =
      if (drop state a).1 then (discard.go drop (drop state a).2 rest).2.actions
      else a :: (discard.go drop (drop state a).2 rest).2.actions := by
  rw [discard.go]
  dsimp only
  split <;> rfl

theorem discard_sublist (state : σ) (q : Queue) : (q.discard drop state).2.actions.Sublist q.actions := by
  rw [discard]
  generalize q.actions = l
  induction l generalizing state with
  | nil => exact List.Sublist.refl []
  | cons a rest ih =>
    rw [discard_go_cons]
    split
    · exact (ih _).cons a
    · exact (ih _).cons_cons a

theorem discard_perm (state : σ) (q : Queue) :
    q.actions.Perm ((q.discard drop state).2.actions ++ discarded drop state q.actions) := by
  rw [discard]
  generalize q.actions = l
  induction l generalizing state with
  | nil => exact List.Perm.refl []
  | cons a rest ih =>
    rw [discard_go_cons, discarded]
    split
    · exact ((ih _).cons a).trans List.perm_middle.symm
    · exact (ih _).cons a

/-- Thrown out is what the predicate dropped, in whatever state. -/
theorem exists_of_mem_discarded {a : PacketAction} {l : List PacketAction} {state : σ}
    (h : a ∈ discarded drop state l) : ∃ state', (drop state' a).1 = true := by
  induction l generalizing state with
  | nil => exact absurd h List.not_mem_nil
  | cons b rest ih =>
    rw [discarded] at h
    split at h
    · next hdrop =>
      rcases List.mem_cons.mp h with rfl | h
      · exact ⟨state, hdrop⟩
      · exact ih h
    · exact ih h

end Discard

end Queue

end DoorBridge
