import DoorBridge.Obstruction
import Mathlib.Data.List.Basic
import Mathlib.Data.List.Induction
import Mathlib.Tactic.Common

/-!
# Proofs.Obstruction — what a row of samples says of the beam

* `ObstructionSampler.after` is the sampler after a row of samples, `transitions` the answers it gave on the way.  One
  sample changes each part of the sampler by a rule of its own (`lastAsleep_take`, `obstructed_take`, `answer_take`).
* `sleptAt` and `Blocked` say what a row means without the sampler: when the beam slept last, and that a sample found the
  line held high for long enough, with no clear one after it.
* The sampler says what the row means, and tells of every change once (`obstructed_iff_blocked`).
-/

namespace DoorBridge

/-- What one period shows of the line. -/
structure BeamSample where
  pulses : Nat
  high : Bool
  /-- End of the period, in milliseconds. -/
  time : Nat
  deriving DecidableEq, Repr

/-- The line is low without a pulse. -/
def BeamSample.isAsleep (x : BeamSample) : Bool := x.pulses = 0 ∧ x.high = false

namespace ObstructionSampler

def take (s : ObstructionSampler) (x : BeamSample) : Option Bool × ObstructionSampler := s.sample x.pulses x.high x.time

/-- The sampler after a row of samples. -/
def after (s : ObstructionSampler) (row : List BeamSample) : ObstructionSampler := row.foldl (fun s x => (s.take x).2) s

/-- The new states that the sampler answers on the way through a row of samples. -/
def transitions (s : ObstructionSampler) : List BeamSample → List Bool
  | [] => []
  | x :: row => (s.take x).1.toList ++ (s.take x).2.transitions row

/-- When the beam was last seen asleep; zero if never. -/
def sleptAt (row : List BeamSample) : Nat := ((row.filter (·.isAsleep)).getLast?.map (·.time)).getD 0

/-- A sample finds the line high without a pulse, and longer than `blockedHold` since the beam slept. -/
def Holds (earlier : List BeamSample) (x : BeamSample) : Prop :=
  x.pulses = 0 ∧ x.high = true ∧ blockedHold < x.time - sleptAt earlier

/-- The sample at an index finds the line held for long enough, and no later one finds it clear. -/
structure Blocked (row : List BeamSample) (i : Nat) : Prop where
  holds : ∃ x ∈ row[i]?, Holds (row.take i) x
  unclear : ∀ k, i < k → ∀ y ∈ row[k]?, y.pulses ≤ clearPulses

variable {s : ObstructionSampler} {x : BeamSample} {row : List BeamSample} {i : Nat}

/-! ## One sample -/

/-- A sample is clear, tells nothing, finds the beam asleep, or finds the line high: for long enough, or not. -/
theorem take_cases (s : ObstructionSampler) (x : BeamSample) :
    (clearPulses < x.pulses ∧ s.take x = s.become false) ∨
      (x.pulses ≤ clearPulses ∧ x.pulses ≠ 0 ∧ s.take x = (none, s)) ∨
      (x.pulses = 0 ∧ x.high = false ∧ s.take x = (none, { s with lastAsleep := x.time })) ∨
      (x.pulses = 0 ∧ x.high = true ∧ blockedHold < x.time - s.lastAsleep ∧ s.take x = s.become true) ∨
      x.pulses = 0 ∧ x.high = true ∧ ¬ blockedHold < x.time - s.lastAsleep ∧ s.take x = (none, s) := by
  obtain ⟨pulses, high, time⟩ := x
  unfold take sample
  by_cases hclear : clearPulses < pulses
  · exact .inl ⟨hclear, if_pos hclear⟩
  by_cases hpulses : pulses = 0
  · subst hpulses
    cases high with
    | false => exact .inr (.inr (.inl ⟨rfl, rfl, rfl⟩))
    | true =>
      by_cases hheld : blockedHold < time - s.lastAsleep
      · exact .inr (.inr (.inr (.inl ⟨rfl, rfl, hheld, if_pos hheld⟩)))
      · exact .inr (.inr (.inr (.inr ⟨rfl, rfl, hheld, if_neg hheld⟩)))
  · exact .inr (.inl ⟨Nat.le_of_not_lt hclear, hpulses, by simp [hclear, hpulses]⟩)

theorem lastAsleep_take (s : ObstructionSampler) (x : BeamSample) :
    (s.take x).2.lastAsleep = if x.isAsleep then x.time else s.lastAsleep := by
  unfold BeamSample.isAsleep
  rcases s.take_cases x with ⟨hclear, htake⟩ | ⟨-, hpulses, htake⟩ | ⟨hpulses, hlow, htake⟩ |
    ⟨hpulses, hhigh, -, htake⟩ | ⟨hpulses, hhigh, -, htake⟩
  · have hpulses : x.pulses ≠ 0 := by omega
    simp [htake, become, hpulses]
  · simp [htake, hpulses]
  · simp [htake, hpulses, hlow]
  · simp [htake, become, hhigh]
  · simp [htake, hhigh]

/-- A clear sample takes the obstruction away, one that holds brings it, and any other leaves it. -/
theorem obstructed_take (s : ObstructionSampler) (x : BeamSample) : (s.take x).2.obstructed = true ↔
    x.pulses ≤ clearPulses ∧
      (s.obstructed = true ∨ x.pulses = 0 ∧ x.high = true ∧ blockedHold < x.time - s.lastAsleep) := by
  rcases s.take_cases x with ⟨hclear, htake⟩ | ⟨hle, hpulses, htake⟩ | ⟨hpulses, hlow, htake⟩ |
    ⟨hpulses, hhigh, hheld, htake⟩ | ⟨hpulses, hhigh, hheld, htake⟩
  · simp [htake, become, Nat.not_le_of_lt hclear]
  · simp [htake, hle, hpulses]
  · simp [htake, hpulses, hlow]
  · simp [htake, become, hpulses, hhigh, hheld]
  · simp [htake, hpulses, hhigh, hheld]

/-- The answer is the new state, if it is one. -/
theorem answer_take (s : ObstructionSampler) (x : BeamSample) :
    (s.take x).1 = if s.obstructed = (s.take x).2.obstructed then none else some (s.take x).2.obstructed := by
  rcases s.take_cases x with ⟨-, htake⟩ | ⟨-, -, htake⟩ | ⟨-, -, htake⟩ | ⟨-, -, -, htake⟩ |
    ⟨-, -, -, htake⟩ <;> simp [htake, become]

/-! ## Rows of samples -/

theorem after_concat (s : ObstructionSampler) (row : List BeamSample) (x : BeamSample) :
    s.after (row ++ [x]) = ((s.after row).take x).2 := List.foldl_concat ..

theorem sleptAt_concat (row : List BeamSample) (x : BeamSample) :
    sleptAt (row ++ [x]) = if x.isAsleep then x.time else sleptAt row := by
  unfold sleptAt
  cases hasleep : x.isAsleep <;> simp [List.filter_append, hasleep]

/-- The sampler remembers when the beam slept last. -/
theorem lastAsleep_after (row : List BeamSample) : (after {} row).lastAsleep = sleptAt row := by
  induction row using List.reverseRecOn with
  | nil => rfl
  | append_singleton row x ih => rw [after_concat, lastAsleep_take, sleptAt_concat, ih]

theorem Blocked.lt_length (h : Blocked row i) : i < row.length := by
  obtain ⟨x, hx, -⟩ := h.holds
  exact (List.getElem?_eq_some_iff.mp hx).1

/-- One more sample: what was blocked stays so unless the sample is clear, and the sample itself may hold. -/
theorem blocked_concat : Blocked (row ++ [x]) i ↔
    Blocked row i ∧ x.pulses ≤ clearPulses ∨ i = row.length ∧ Holds row x := by
  constructor
  · intro h
    have hlt := h.lt_length
    obtain ⟨⟨y, hy, hholds⟩, hunclear⟩ := h
    rw [List.length_append, List.length_singleton] at hlt
    rcases Nat.lt_or_eq_of_le (Nat.le_of_lt_succ hlt) with hi | rfl
    · rw [List.getElem?_append_left hi] at hy
      rw [List.take_append_of_le_length (Nat.le_of_lt hi)] at hholds
      refine .inl ⟨⟨⟨y, hy, hholds⟩, fun k hk z hz => hunclear k hk z ?_⟩, hunclear row.length hi x ?_⟩
      · rw [List.getElem?_append_left (List.getElem?_eq_some_iff.mp hz).1]
        exact hz
      · exact List.getElem?_concat_length
    · rw [List.getElem?_concat_length] at hy
      obtain rfl := Option.some.inj hy
      rw [List.take_left] at hholds
      exact .inr ⟨rfl, hholds⟩
  · rintro (⟨h, hx⟩ | ⟨rfl, hholds⟩)
    · have hi := h.lt_length
      obtain ⟨⟨y, hy, hholds⟩, hunclear⟩ := h
      refine ⟨⟨y, ?_, ?_⟩, fun k hk z hz => ?_⟩
      · rw [List.getElem?_append_left hi]
        exact hy
      · rw [List.take_append_of_le_length (Nat.le_of_lt hi)]
        exact hholds
      · rcases Nat.lt_trichotomy k row.length with hlt | rfl | hgt
        · rw [List.getElem?_append_left hlt] at hz
          exact hunclear k hk z hz
        · rw [List.getElem?_concat_length] at hz
          obtain rfl := Option.some.inj hz
          exact hx
        · rw [List.getElem?_eq_none (by simp; omega)] at hz
          contradiction
    · refine ⟨⟨x, List.getElem?_concat_length, ?_⟩, fun k hk z hz => ?_⟩
      · rw [List.take_left]
        exact hholds
      · rw [List.getElem?_eq_none (by simp; omega)] at hz
        contradiction

/-- **The state after a row is what the row means.** -/
theorem obstructed_after (row : List BeamSample) : (after {} row).obstructed = true ↔ ∃ i, Blocked row i := by
  induction row using List.reverseRecOn with
  | nil =>
    refine ⟨nofun, fun ⟨i, h⟩ => ?_⟩
    exact absurd h.lt_length (Nat.not_lt_zero i)
  | append_singleton row x ih =>
    rw [after_concat, obstructed_take, ih, lastAsleep_after]
    constructor
    · rintro ⟨hx, ⟨i, h⟩ | hholds⟩
      · exact ⟨i, blocked_concat.mpr (.inl ⟨h, hx⟩)⟩
      · exact ⟨row.length, blocked_concat.mpr (.inr ⟨rfl, hholds⟩)⟩
    · rintro ⟨i, h⟩
      rcases blocked_concat.mp h with ⟨h, hx⟩ | ⟨-, hholds⟩
      · exact ⟨hx, .inl ⟨i, h⟩⟩
      · exact ⟨by rw [hholds.1]; exact Nat.zero_le _, .inr hholds⟩

/-- The answers alternate, and the first one differs from the state before. -/
theorem transitions_alternate (s : ObstructionSampler) (row : List BeamSample) :
    (s.obstructed :: s.transitions row).IsChain (· ≠ ·) := by
  induction row generalizing s with
  | nil => exact .singleton _
  | cons x row ih =>
    have hrest := ih (s.take x).2
    rw [transitions, answer_take]
    by_cases hsame : s.obstructed = (s.take x).2.obstructed
    · rw [if_pos hsame, Option.toList_none, List.nil_append, hsame]
      exact hrest
    · rw [if_neg hsame, Option.toList_some, List.singleton_append]
      exact .cons_cons hsame hrest

end ObstructionSampler

/-- **The obstruction state says what the samples mean.**  After every row of samples the path is taken to be blocked exactly
if some sample found the line high without a pulse, more than `blockedHold` after the beam was last seen asleep before it,
and no sample since then had more than `clearPulses` pulses.  A sample answers a state exactly if it changes the state to
it, so the answers alternate, the first being that the path is blocked. -/
theorem obstructed_iff_blocked (row : List BeamSample) (x : BeamSample) :
    ((ObstructionSampler.after {} row).obstructed = true ↔ ∃ i, ObstructionSampler.Blocked row i) ∧
      (∀ b, ((ObstructionSampler.after {} row).take x).1 = some b ↔
        (ObstructionSampler.after {} row).obstructed ≠ b ∧
          (ObstructionSampler.after {} (row ++ [x])).obstructed = b) ∧
      (false :: ObstructionSampler.transitions {} row).IsChain (· ≠ ·) := by
  refine ⟨ObstructionSampler.obstructed_after row, fun b => ?_, ObstructionSampler.transitions_alternate {} row⟩
  rw [ObstructionSampler.after_concat, ObstructionSampler.answer_take]
  split
  · next hsame =>
    rw [hsame]
    exact ⟨nofun, fun ⟨hne, heq⟩ => absurd heq hne⟩
  · next hnew =>
    rw [Option.some.injEq]
    exact ⟨fun heq => ⟨heq ▸ hnew, heq⟩, fun h => h.2⟩

/-- The line is held, then clear, then held again right after the beam slept. -/
example : ObstructionSampler.transitions {} [⟨0, true, 701⟩, ⟨4, true, 751⟩, ⟨0, false, 801⟩, ⟨0, true, 1501⟩] =
    [true, false] := by decide

end DoorBridge
