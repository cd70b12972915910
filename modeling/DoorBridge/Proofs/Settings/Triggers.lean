import DoorBridge.Proofs.Settings.Accepted
import Mathlib.Data.Nat.Basic

/-!
# Proofs.Settings.Triggers — a set of triggers and the byte that holds it

Five bits of the byte stand for a trigger each (`MotionTriggers.contains_eq_bit`); a set is well formed if it has no other
bit.  Setting triggers keeps that (`wellFormed_set`), so every set that comes from text is well formed
(`Settings.wellFormed_of_ofText`); a byte of a record can be anything.  Whether a trigger is the only one in the byte says
whether it is the only one in the set for well-formed sets only (`only_set_iff`).
-/

namespace DoorBridge

namespace MotionTrigger

theorem index_lt (t : MotionTrigger) : t.index < 5 := by
  cases t <;> decide

theorem index_lt_eight (t : MotionTrigger) : t.index < 8 := Nat.lt_trans t.index_lt (by decide)

theorem index_inj {t t' : MotionTrigger} (h : t.index = t'.index) : t = t' := by
  revert h
  cases t <;> cases t' <;> decide

theorem exists_index {i : Nat} (h : i < 5) : ∃ t : MotionTrigger, t.index = i := by
  have hall : ∀ i < 5, ∃ t ∈ MotionTrigger.all, t.index = i := by decide
  obtain ⟨t, -, ht⟩ := hall i h
  exact ⟨t, ht⟩

end MotionTrigger

namespace MotionTriggers

/-- A bit of the byte, counted from the lowest. -/
def bit (s : MotionTriggers) (i : Nat) : Bool := s.bits.toBitVec.getLsbD i

/-- No bit is set but those of the triggers. -/
def WellFormed (s : MotionTriggers) : Prop := ofBits s.bits = s

instance (s : MotionTriggers) : Decidable s.WellFormed := inferInstanceAs (Decidable (ofBits s.bits = s))

variable {s s' : MotionTriggers} {t t' : MotionTrigger}

theorem eq_of_bits (h : ∀ i < 8, s.bit i = s'.bit i) : s = s' := by
  obtain ⟨bits⟩ := s
  obtain ⟨bits'⟩ := s'
  exact congrArg mk (UInt8.toBitVec_inj.mp (BitVec.eq_of_getLsbD_eq fun i hi => h i hi))

theorem bit_of_le {i : Nat} (h : 8 ≤ i) : s.bit i = false := BitVec.getLsbD_of_ge _ _ h

theorem getLsbD_mask (t : MotionTrigger) {i : Nat} (h : i < 8) : t.mask.toBitVec.getLsbD i = decide (i = t.index) := by
  have hall : ∀ i < 8, t.mask.toBitVec.getLsbD i = decide (i = t.index) := by
    cases t <;> decide
  exact hall i h

theorem bit_ofBits (bits : UInt8) {i : Nat} (h : i < 8) :
    (ofBits bits).bit i = (bits.toBitVec.getLsbD i && decide (i < 5)) := by
  have hmask : ∀ i < 8, (0x1f : UInt8).toBitVec.getLsbD i = decide (i < 5) := by decide
  rw [bit, ofBits, UInt8.toBitVec_and, BitVec.getLsbD_and, hmask i h]

theorem bit_set (s : MotionTriggers) (t : MotionTrigger) (on : Bool) {i : Nat} (h : i < 8) :
    (s.set t on).bit i = if i = t.index then on else s.bit i := by
  rw [bit, set]
  cases on with
  | true =>
    rw [if_pos rfl, UInt8.toBitVec_or, BitVec.getLsbD_or, getLsbD_mask t h]
    by_cases hi : i = t.index <;> simp [hi, bit]
  | false =>
    rw [if_neg Bool.false_ne_true, UInt8.toBitVec_and, UInt8.toBitVec_not, BitVec.getLsbD_and, BitVec.getLsbD_not,
      getLsbD_mask t h]
    by_cases hi : i = t.index <;> simp [hi, bit, h]

theorem contains_eq_bit (s : MotionTriggers) (t : MotionTrigger) : s.contains t = s.bit t.index := by
  have hmeet {i : Nat} (hi : i < 8) :
      (s.bits &&& t.mask).toBitVec.getLsbD i = (s.bit i && decide (i = t.index)) := by
    rw [UInt8.toBitVec_and, BitVec.getLsbD_and, getLsbD_mask t hi]
    rfl
  rw [contains, bne, Bool.not_eq_eq_eq_not, Bool.eq_iff_iff, beq_iff_eq, Bool.not_eq_true']
  constructor
  · intro hzero
    have hbit := hmeet t.index_lt_eight
    rw [hzero, decide_eq_true rfl, Bool.and_true] at hbit
    rw [← hbit]
    exact BitVec.getLsbD_zero
  · intro hclear
    refine UInt8.toBitVec_inj.mp (BitVec.eq_of_getLsbD_eq fun i hi => ?_)
    rw [hmeet hi]
    by_cases hit : i = t.index
    · rw [hit, hclear, Bool.false_and]
      exact BitVec.getLsbD_zero.symm
    · rw [decide_eq_false hit, Bool.and_false]
      exact BitVec.getLsbD_zero.symm

theorem contains_set (s : MotionTriggers) (t t' : MotionTrigger) (on : Bool) :
    (s.set t on).contains t' = if t' = t then on else s.contains t' := by
  rw [contains_eq_bit, contains_eq_bit, bit_set s t on t'.index_lt_eight]
  by_cases h : t' = t
  · rw [if_pos h, h, if_pos rfl]
  · rw [if_neg h, if_neg fun hi => h (MotionTrigger.index_inj hi)]

theorem set_set (s : MotionTriggers) (t : MotionTrigger) (on on' : Bool) : (s.set t on).set t on' = s.set t on' := by
  refine eq_of_bits fun i hi => ?_
  rw [bit_set _ _ _ hi, bit_set _ _ _ hi, bit_set _ _ _ hi]
  split <;> rfl

theorem wellFormed_iff : s.WellFormed ↔ ∀ i, 5 ≤ i → s.bit i = false := by
  constructor
  · intro h i hi
    by_cases h8 : i < 8
    · have hbit : s.bit i = (s.bit i && decide (i < 5)) := by
        nth_rewrite 1 [← h]
        exact bit_ofBits s.bits h8
      rwa [decide_eq_false (Nat.not_lt.mpr hi), Bool.and_false] at hbit
    · exact bit_of_le (Nat.not_lt.mp h8)
  · intro h
    refine eq_of_bits fun i hi => ?_
    rw [bit_ofBits s.bits hi]
    by_cases h5 : i < 5
    · rw [decide_eq_true h5, Bool.and_true]
      rfl
    · rw [decide_eq_false h5, Bool.and_false, h i (Nat.not_lt.mp h5)]

/-- Setting a trigger or taking it out touches no bit that stands for none. -/
theorem wellFormed_set {on : Bool} : (s.set t on).WellFormed ↔ s.WellFormed := by
  have hsame {i : Nat} (hi : 5 ≤ i) : (s.set t on).bit i = s.bit i := by
    by_cases h8 : i < 8
    · rw [bit_set s t on h8, if_neg]
      exact fun heq => absurd t.index_lt (Nat.not_lt.mpr (heq ▸ hi))
    · rw [bit_of_le (Nat.not_lt.mp h8), bit_of_le (Nat.not_lt.mp h8)]
  rw [wellFormed_iff, wellFormed_iff]
  exact forall₂_congr fun i hi => by rw [hsame hi]

theorem only_iff : s.only t = true ↔ ∀ i < 8, s.bit i = decide (i = t.index) := by
  have hmask {i : Nat} (hi : i < 8) : (⟨t.mask⟩ : MotionTriggers).bit i = decide (i = t.index) := getLsbD_mask t hi
  rw [only, beq_iff_eq]
  constructor
  · intro h i hi
    rw [← hmask hi, bit, h]
    rfl
  · intro h
    have heq : s = ⟨t.mask⟩ := eq_of_bits fun i hi => (h i hi).trans (hmask hi).symm
    exact congrArg bits heq

/-- **A trigger that was put into a set is the only one in the byte** exactly if the set has no other trigger and is well
formed. -/
theorem only_set_iff : (s.set t true).only t = true ↔ s.WellFormed ∧ ∀ t' ≠ t, s.contains t' = false := by
  rw [only_iff]
  constructor
  · intro h
    have hclear {i : Nat} (hne : i ≠ t.index) (hi : i < 8) : s.bit i = false := by
      have hbit := h i hi
      rwa [bit_set s t true hi, if_neg hne, decide_eq_false hne] at hbit
    refine ⟨wellFormed_iff.mpr fun i hi => ?_, fun t' hne => ?_⟩
    · by_cases h8 : i < 8
      · exact hclear (fun heq => absurd t.index_lt (Nat.not_lt.mpr (heq ▸ hi))) h8
      · exact bit_of_le (Nat.not_lt.mp h8)
    · rw [contains_eq_bit]
      exact hclear (fun heq => hne (MotionTrigger.index_inj heq)) t'.index_lt_eight
  · rintro ⟨hwell, hothers⟩ i hi
    rw [bit_set s t true hi]
    by_cases hindex : i = t.index
    · rw [if_pos hindex, decide_eq_true hindex]
    · rw [if_neg hindex, decide_eq_false hindex]
      by_cases h5 : i < 5
      · obtain ⟨t', rfl⟩ := MotionTrigger.exists_index h5
        rw [← contains_eq_bit]
        exact hothers t' fun heq => hindex (congrArg _ heq)
      · exact wellFormed_iff.mp hwell i (Nat.not_lt.mp h5)

end MotionTriggers

/-! ## Sets from text -/

namespace Settings

/-- An assignment leaves the triggers alone or sets one of them. -/
theorem wellFormed_assign {s s' : Settings} {sec : Section} {key : String} {value : List Char}
    (h : s.assign sec key value = .ok s') (hs : s.motionTriggers.WellFormed) : s'.motionTriggers.WellFormed := by
  cases sec with
  | bridge =>
    unfold assign assignBridge at h
    dsimp only at h
    split at h
    case h_6 => contradiction
    all_goals
      obtain ⟨_, -, rfl⟩ := map_eq_ok.mp h
      exact hs
  | motionTriggers =>
    unfold assign assignTrigger at h
    dsimp only at h
    split at h
    · obtain ⟨on, -, rfl⟩ := map_eq_ok.mp h
      exact MotionTriggers.wellFormed_set.mpr hs
    · contradiction

theorem wellFormed_readLine {state state' : Settings × Section} {line : List Char} (h : readLine state line = .ok state')
    (hs : state.1.motionTriggers.WellFormed) : state'.1.motionTriggers.WellFormed := by
  unfold readLine at h
  dsimp only at h
  split at h
  · obtain rfl := Except.ok.inj h
    exact hs
  · obtain rfl := Except.ok.inj h
    exact hs
  · obtain ⟨sec, -, rfl⟩ := map_eq_ok.mp h
    exact hs
  · split at h
    · contradiction
    · obtain ⟨s, hassign, rfl⟩ := map_eq_ok.mp h
      exact wellFormed_assign hassign hs

theorem wellFormed_foldlM {lines : List (List Char)} {state state' : Settings × Section}
    (h : lines.foldlM readLine state = .ok state') (hs : state.1.motionTriggers.WellFormed) :
    state'.1.motionTriggers.WellFormed := by
  induction lines generalizing state with
  | nil =>
    obtain rfl := Except.ok.inj h
    exact hs
  | cons line lines ih =>
    rw [List.foldlM_cons] at h
    cases hline : readLine state line with
    | error cause =>
      rw [hline] at h
      contradiction
    | ok next =>
      rw [hline] at h
      exact ih h (wellFormed_readLine hline hs)

/-- **Triggers that come from text are well formed.** -/
theorem wellFormed_of_ofText {bytes : List UInt8} {s : Settings} (h : ofText bytes = .ok s) :
    s.motionTriggers.WellFormed := by
  unfold ofText at h
  split at h
  · contradiction
  · split at h
    · next hparse =>
      obtain rfl := Except.ok.inj h
      obtain ⟨state, hread, rfl⟩ := map_eq_ok.mp hparse
      exact wellFormed_foldlM hread (show MotionTriggers.WellFormed {} by decide)
    · contradiction

end Settings

end DoorBridge
