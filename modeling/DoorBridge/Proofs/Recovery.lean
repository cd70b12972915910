import DoorBridge.Recovery
import Mathlib.Data.List.Basic
import Mathlib.Data.List.Induction
import Mathlib.Tactic.Common

/-!
# Proofs.Recovery — which presses a completed sequence is made of

* `Recovery.after` is the counter after a row of presses.  `firesAt` says whether the press at an index completes a
  sequence, `joinsAt` whether it is counted for the window that is open when it comes, and `CountsToward` which presses
  were counted toward which completed sequence.
* `Recovery.Tally` is what every row of presses keeps (`tally`): the counted presses are the last ones of the row, the
  first of them opened the window, and each later one joined it.
* So the press that completes a sequence is the fifth of five in a row within the window, and none of them was counted
  before (`fires_on_five_quick_presses`).
* In a row in time order the presses that open windows settle everything: `joinsAt_iff` says whether a press is counted
  for the window of an earlier one, and `firesAt_iff` whether the fifth press of a count completes a sequence.  Five
  quick presses need the first of them to open its own window (`five_quick_presses_fire_iff`).
-/

namespace DoorBridge

namespace Recovery

/-- The counter after a row of presses, given by their times. -/
def after (r : Recovery) (times : List Nat) : Recovery := times.foldl (fun r now => (r.press now).2) r

/-- Whether there is a press at an index that completes a sequence. -/
def firesAt (r : Recovery) (times : List Nat) (i : Nat) : Bool :=
  times[i]?.any fun now => ((r.after (times.take i)).press now).1

/-- Whether there is a press at an index that is counted for the window that is open when it comes. -/
def joinsAt (r : Recovery) (times : List Nat) (i : Nat) : Bool :=
  times[i]?.any fun now => (r.after (times.take i)).isOpen now

/-- The press at an index was counted toward the sequence that another one completes: no later press, up to that one,
began a new count. -/
structure CountsToward (r : Recovery) (times : List Nat) (j i : Nat) : Prop where
  le : j ≤ i
  fires : r.firesAt times i = true
  joins : ∀ k, j < k → k ≤ i → r.joinsAt times k = true

variable {r : Recovery} {times : List Nat} {now i window : Nat}

/-! ## One press -/

/-- A press completes a sequence, continues one, or begins one. -/
theorem press_cases (r : Recovery) (now : Nat) :
    (r.isOpen now = true ∧ recoveryPresses ≤ r.presses + 1 ∧
        r.press now = (true, { r with presses := 0, deadline? := none })) ∨
      (r.isOpen now = true ∧ r.presses + 1 < recoveryPresses ∧
        r.press now = (false, { r with presses := r.presses + 1 })) ∨
      r.isOpen now = false ∧ r.press now = (false, { r with presses := 1, deadline? := some (now + r.window) }) := by
  unfold press count
  cases hopen : r.isOpen now with
  | false => exact .inr (.inr ⟨rfl, rfl⟩)
  | true =>
    by_cases hmore : r.presses + 1 < recoveryPresses
    · exact .inr (.inl ⟨rfl, hmore, by simp [hmore]⟩)
    · exact .inl ⟨rfl, Nat.le_of_not_lt hmore, by simp [hmore]⟩

/-- A press that completes a sequence was counted for the open window, and leaves none open. -/
theorem of_fires (h : (r.press now).1 = true) :
    r.isOpen now = true ∧ recoveryPresses ≤ r.presses + 1 ∧ (r.press now).2.deadline? = none := by
  rcases r.press_cases now with ⟨hopen, hlast, hpress⟩ | ⟨-, -, hpress⟩ | ⟨-, hpress⟩
  · exact ⟨hopen, hlast, by rw [hpress]⟩
  · rw [hpress] at h
    contradiction
  · rw [hpress] at h
    contradiction

theorem exists_of_isOpen (h : r.isOpen now = true) : ∃ deadline, r.deadline? = some deadline ∧ now ≤ deadline := by
  unfold isOpen at h
  split at h
  · next deadline hdeadline => exact ⟨deadline, hdeadline, of_decide_eq_true h⟩
  · contradiction

theorem isOpen_of_deadline?_eq_none (h : r.deadline? = none) : r.isOpen now = false := by
  unfold isOpen
  rw [h]

/-! ## Rows of presses -/

theorem after_concat (r : Recovery) (times : List Nat) (now : Nat) :
    r.after (times ++ [now]) = ((r.after times).press now).2 := List.foldl_concat ..

/-- What comes later does not count. -/
theorem joinsAt_append (hi : i < times.length) (later : List Nat) :
    r.joinsAt (times ++ later) i = r.joinsAt times i := by
  unfold joinsAt
  rw [List.getElem?_append_left hi, List.take_append_of_le_length (Nat.le_of_lt hi)]

theorem joinsAt_concat (r : Recovery) (times : List Nat) (now : Nat) :
    r.joinsAt (times ++ [now]) times.length = (r.after times).isOpen now := by
  unfold joinsAt
  rw [List.getElem?_concat_length, List.take_left, Option.any_some]

section At

variable (hnow : times[i]? = some now)

include hnow

theorem after_take_succ : r.after (times.take (i + 1)) = ((r.after (times.take i)).press now).2 := by
  rw [List.take_add_one, hnow, Option.toList_some, after_concat]

theorem joinsAt_eq : r.joinsAt times i = (r.after (times.take i)).isOpen now := by
  rw [joinsAt, hnow, Option.any_some]

theorem firesAt_eq : r.firesAt times i = ((r.after (times.take i)).press now).1 := by
  rw [firesAt, hnow, Option.any_some]

end At

/-- Where there is a press the row can be cut. -/
theorem exists_of_firesAt (h : r.firesAt times i = true) :
    ∃ now later, times = times.take i ++ now :: later ∧ (times.take i).length = i ∧
      ((r.after (times.take i)).press now).1 = true := by
  obtain ⟨now, hnow, hfires⟩ := (Option.any_eq_true ..).mp h
  obtain ⟨hi, rfl⟩ := List.getElem?_eq_some_iff.mp hnow
  refine ⟨times[i], times.drop (i + 1), ?_, List.length_take_of_le (Nat.le_of_lt hi), hfires⟩
  rw [List.getElem_cons_drop, List.take_append_drop]

/-- The press after a completed sequence begins a new count. -/
theorem joinsAt_succ_of_firesAt (h : r.firesAt times i = true) : r.joinsAt times (i + 1) = false := by
  obtain ⟨now, later, htimes, hlength, hfires⟩ := exists_of_firesAt h
  have hafter : (r.after (times.take (i + 1))).deadline? = none := by
    have hnow : times[i]? = some now := by
      rw [htimes, List.getElem?_append_right (Nat.le_of_eq hlength), hlength, Nat.sub_self]
      rfl
    rw [after_take_succ hnow]
    exact (of_fires hfires).2.2
  unfold joinsAt
  rw [Option.any_eq_false]
  intro next _
  rw [isOpen_of_deadline?_eq_none hafter]

/-- What the counter knows of a row of presses: those that are counted are the last ones, the first of them opened the
window, and the others joined it. -/
structure Tally (length : Nat) (times : List Nat) (r : Recovery) : Prop where
  window : r.window = length
  few : r.presses < recoveryPresses
  le : r.presses ≤ times.length
  deadline : r.deadline? =
    if r.presses = 0 then none else times[times.length - r.presses]?.map (· + length)
  opened : 0 < r.presses → joinsAt { window := length } times (times.length - r.presses) = false
  joined : ∀ k, times.length - r.presses < k → k < times.length → joinsAt { window := length } times k = true

/-- A window is open only if a press is counted. -/
theorem Tally.presses_pos (h : Tally window times r) (hopen : r.isOpen now = true) : 0 < r.presses := by
  apply Nat.pos_of_ne_zero
  intro hnone
  have hdeadline := h.deadline
  rw [if_pos hnone] at hdeadline
  rw [isOpen_of_deadline?_eq_none hdeadline] at hopen
  contradiction

/-- **The counter keeps its tally.** -/
theorem tally (window : Nat) (times : List Nat) : Tally window times (after { window } times) := by
  induction times using List.reverseRecOn with
  | nil => exact ⟨rfl, Nat.zero_lt_succ 4, Nat.zero_le _, rfl, nofun, nofun⟩
  | append_singleton times now ih =>
    have hlast := joinsAt_concat { window } times now
    rw [after_concat]
    generalize after { window } times = r at ih hlast ⊢
    have hlength : (times ++ [now]).length = times.length + 1 := List.length_append
    rcases r.press_cases now with ⟨-, -, hpress⟩ | ⟨hopen, hmore, hpress⟩ | ⟨hclosed, hpress⟩
    · rw [hpress]
      refine ⟨ih.window, Nat.zero_lt_succ 4, Nat.zero_le _, rfl, nofun, fun k hlt hk => ?_⟩
      exact absurd hk (Nat.not_lt_of_le (Nat.le_of_lt hlt))
    · -- the row and the count grow by one, so the press that opened the window stays where it was
      have hpos := ih.presses_pos hopen
      have hle := ih.le
      have hsame : (times ++ [now]).length - (r.presses + 1) = times.length - r.presses := by omega
      rw [hpress]
      refine ⟨ih.window, hmore, ?_, ?_, fun _ => ?_, fun k hlt hk => ?_⟩
      · dsimp only
        omega
      · dsimp only
        rw [hsame, List.getElem?_append_left (by omega), if_neg (Nat.succ_ne_zero _), ih.deadline, if_neg (by omega)]
      · dsimp only
        rw [hsame, joinsAt_append (by omega)]
        exact ih.opened hpos
      · dsimp only at hlt
        rw [hsame] at hlt
        rcases Nat.lt_or_eq_of_le (Nat.le_of_lt_succ (hlength ▸ hk)) with hk | rfl
        · rw [joinsAt_append hk]
          exact ih.joined k hlt hk
        · rw [hlast, hopen]
    · rw [hpress]
      have hindex : (times ++ [now]).length - 1 = times.length := by omega
      refine ⟨ih.window, Nat.one_lt_succ_succ 3, by dsimp only; omega, ?_, fun _ => ?_, fun k hlt hk => ?_⟩
      · dsimp only
        rw [hindex, List.getElem?_concat_length, ih.window]
        rfl
      · dsimp only
        rw [hindex, hlast, hclosed]
      · dsimp only at hlt
        omega

/-! ## Completed sequences -/

/-- **A press that completes a sequence** is the fifth press that was counted: the window was opened by the press four
places before it, and the ones in between joined that window. -/
theorem tally_of_firesAt (h : firesAt { window } times i = true) :
    4 ≤ i ∧ (∃ first ∈ times[i - 4]?, ∃ last ∈ times[i]?, last ≤ first + window) ∧
      joinsAt { window } times (i - 4) = false ∧
      ∀ k, i - 4 < k → k ≤ i → joinsAt { window } times k = true := by
  obtain ⟨now, later, htimes, hlength, hfires⟩ := exists_of_firesAt h
  have htally := tally window (times.take i)
  have hnow := joinsAt_concat { window } (times.take i) now
  generalize after { window } (times.take i) = r at htally hfires hnow
  generalize times.take i = earlier at htimes hlength htally hnow
  subst htimes hlength
  obtain ⟨hopen, hfive, -⟩ := of_fires hfires
  have hfour : r.presses = 4 := by
    have hfew := htally.few
    unfold recoveryPresses at hfive hfew
    omega
  obtain ⟨hwindow, -, hle, hdeadline, hopened, hjoined⟩ := htally
  rw [hfour] at hle hdeadline hopened hjoined
  have hbefore (k : Nat) (hk : k < earlier.length) :
      joinsAt { window } (earlier ++ now :: later) k = joinsAt { window } earlier k := joinsAt_append hk _
  refine ⟨hle, ?_, ?_, fun k hlt hk => ?_⟩
  · obtain ⟨deadline, hopened?, hle'⟩ := exists_of_isOpen hopen
    rw [if_neg (by decide), hopened?] at hdeadline
    obtain ⟨first, hfirst, hwindow⟩ := Option.map_eq_some_iff.mp hdeadline.symm
    refine ⟨first, ?_, now, ?_, hwindow ▸ hle'⟩
    · rw [List.getElem?_append_left (by omega)]
      exact hfirst
    · simp
  · rw [hbefore _ (by omega)]
    exact hopened (by decide)
  · rcases Nat.lt_or_eq_of_le hk with hk | rfl
    · rw [hbefore k hk]
      exact hjoined k hlt hk
    · have hcut : earlier ++ now :: later = (earlier ++ [now]) ++ later := List.append_cons ..
      rw [hcut, joinsAt_append (by simp), hnow, hopen]

/-- Five presses in a row are counted toward a completed sequence, and no others. -/
theorem countsToward_iff {j : Nat} (h : firesAt { window } times i = true) :
    CountsToward { window } times j i ↔ i - 4 ≤ j ∧ j ≤ i := by
  obtain ⟨-, -, hopened, hjoined⟩ := tally_of_firesAt h
  constructor
  · intro hcounts
    refine ⟨Nat.le_of_not_lt fun hlt => ?_, hcounts.le⟩
    rw [hcounts.joins (i - 4) hlt (Nat.sub_le i 4)] at hopened
    contradiction
  · rintro ⟨hfirst, hlast⟩
    exact ⟨hlast, h, fun k hlt hle => hjoined k (Nat.lt_of_le_of_lt hfirst hlt) hle⟩

/-- A press counts toward one completed sequence at most. -/
theorem CountsToward.unique {j i' : Nat} (h : CountsToward r times j i) (h' : CountsToward r times j i') : i = i' := by
  -- after the earlier of the two a new count begins, so the press would not have been counted for the later one
  have hnot {a b : Nat} (ha : CountsToward r times j a) (hb : CountsToward r times j b) : ¬ a < b := by
    intro hlt
    have hjoins := hb.joins (a + 1) (Nat.lt_succ_of_le ha.le) hlt
    rw [joinsAt_succ_of_firesAt ha.fires] at hjoins
    contradiction
  exact Nat.le_antisymm (Nat.le_of_not_lt (hnot h' h)) (Nat.le_of_not_lt (hnot h h'))

end Recovery

/-- **The recovery sequence is completed only by five quick presses.**  For every length of the window and every row of
presses: let the press at an index complete a sequence.  Then there are four presses before it, and it comes no later than
the length of the window after the first of them.  Exactly these five are counted toward the sequence, and none of them
was counted toward an earlier one. -/
theorem fires_on_five_quick_presses (window : Nat) (times : List Nat) {i : Nat}
    (hfires : Recovery.firesAt { window } times i = true) :
    4 ≤ i ∧ (∃ first ∈ times[i - 4]?, ∃ last ∈ times[i]?, last ≤ first + window) ∧
      (∀ j, Recovery.CountsToward { window } times j i ↔ i - 4 ≤ j ∧ j ≤ i) ∧
      ∀ i' < i, ∀ j, i - 4 ≤ j → j ≤ i → ¬ Recovery.CountsToward { window } times j i' := by
  obtain ⟨hfour, hquick, -, -⟩ := Recovery.tally_of_firesAt hfires
  refine ⟨hfour, hquick, fun j => Recovery.countsToward_iff hfires, fun i' hearlier j hfirst hlast hcounts => ?_⟩
  have hsame := hcounts.unique ((Recovery.countsToward_iff hfires).mpr ⟨hfirst, hlast⟩)
  exact Nat.ne_of_lt hearlier hsame

/-- Four presses within three seconds, and five more after the window has closed. -/
def hesitantPresses : List Nat := [0, 1000, 2000, 3000, 3001, 3100, 3200, 3300, 3400]

/-- The last of them completes a sequence that the fifth began. -/
theorem fires_on_five_quick_presses_hesitant :
    Recovery.firesAt { window := 3000 } hesitantPresses 8 = true ∧
      (∃ first ∈ hesitantPresses[4]?, ∃ last ∈ hesitantPresses[8]?, last ≤ first + 3000) ∧
      ¬ Recovery.CountsToward { window := 3000 } hesitantPresses 3 8 := by
  have hfires : Recovery.firesAt { window := 3000 } hesitantPresses 8 = true := by decide
  obtain ⟨-, hquick, hcounted, -⟩ := fires_on_five_quick_presses 3000 hesitantPresses hfires
  exact ⟨hfires, hquick, fun hcounts => absurd ((hcounted 3).mp hcounts).1 (by decide)⟩

/-! ## Presses in time order -/

namespace Recovery

/-- There are presses at both indices, and the second comes no later than the length of the window after the first. -/
def Within (window : Nat) (times : List Nat) (i k : Nat) : Prop :=
  ∃ first ∈ times[i]?, ∃ last ∈ times[k]?, last ≤ first + window

section Ordered

variable {window i j k o : Nat} {times : List Nat} (hordered : times.Pairwise (· ≤ ·))

include hordered

theorem time_le_time {earlier later : Nat} (hle : i ≤ k) (hearlier : times[i]? = some earlier)
    (hlater : times[k]? = some later) : earlier ≤ later := by
  obtain ⟨hi, rfl⟩ := List.getElem?_eq_some_iff.mp hearlier
  obtain ⟨hk, rfl⟩ := List.getElem?_eq_some_iff.mp hlater
  rcases Nat.lt_or_eq_of_le hle with hlt | rfl
  · exact List.pairwise_iff_getElem.mp hordered i k hi hk hlt
  · exact Nat.le_refl _

/-- Presses between two that come within the window come within it, too. -/
theorem Within.between {i' k' : Nat} (h : Within window times i k) (hi : i ≤ i') (hle : i' ≤ k') (hk : k' ≤ k) :
    Within window times i' k' := by
  obtain ⟨first, hfirst, last, hlast, hquick⟩ := h
  have hlength : k < times.length := (List.getElem?_eq_some_iff.mp hlast).1
  have hi' : times[i']? = some times[i'] := List.getElem?_eq_getElem (by omega)
  have hk' : times[k']? = some times[k'] := List.getElem?_eq_getElem (by omega)
  have hlow : first ≤ times[i'] := time_le_time hordered hi hfirst hi'
  have hhigh : times[k'] ≤ last := time_le_time hordered hk hk' hlast
  exact ⟨_, hi', _, hk', by omega⟩

/-- The state of a count whose window was opened by a press: up to four presses have been counted, none of which came
after the window. -/
theorem after_of_opens {m : Nat} (hopens : joinsAt { window } times o = false) (hfew : m < 4)
    (hwithin : Within window times o (o + m)) :
    ∃ first ∈ times[o]?, after { window } (times.take (o + m + 1)) = ⟨window, m + 1, some (first + window)⟩ := by
  induction m with
  | zero =>
    obtain ⟨first, hfirst, -⟩ := hwithin
    have hwindow := (tally window (times.take o)).window
    rw [joinsAt_eq hfirst] at hopens
    refine ⟨first, hfirst, ?_⟩
    rw [Nat.add_zero, after_take_succ hfirst]
    rcases (after { window } (times.take o)).press_cases first with ⟨hopen, -⟩ | ⟨hopen, -⟩ | ⟨-, hpress⟩
    · rw [hopens] at hopen
      contradiction
    · rw [hopens] at hopen
      contradiction
    · rw [hpress, hwindow]
  | succ m ih =>
    obtain ⟨first, hfirst, hafter⟩ := ih (by omega) (hwithin.between hordered (Nat.le_refl o) (by omega) (by omega))
    obtain ⟨first', hfirst', now, hnow, hquick⟩ := hwithin
    obtain rfl : first' = first := Option.some.inj (hfirst'.symm.trans hfirst)
    refine ⟨first', hfirst, ?_⟩
    rw [after_take_succ hnow, ← Nat.add_assoc o m 1, hafter]
    have hfive : m + 1 + 1 < recoveryPresses := by
      unfold recoveryPresses
      omega
    simp [press, count, isOpen, hquick, hfive]

/-- **Which presses are counted for an open window:** those that come within the window of one of the four presses
before them, if that one opened it. -/
theorem joinsAt_iff : joinsAt { window } times j = true ↔
    ∃ o, o < j ∧ j ≤ o + 4 ∧ joinsAt { window } times o = false ∧ Within window times o j := by
  constructor
  · intro hjoins
    obtain ⟨now, hnow, hopen⟩ := (Option.any_eq_true ..).mp hjoins
    have hlength : j ≤ times.length := Nat.le_of_lt (List.getElem?_eq_some_iff.mp hnow).1
    have htally := tally window (times.take j)
    generalize hafter : after { window } (times.take j) = r at htally hopen
    have hpos := htally.presses_pos hopen
    obtain ⟨-, hfew, hle, hdeadline, hopened, -⟩ := htally
    rw [List.length_take_of_le hlength] at hle hdeadline hopened
    unfold recoveryPresses at hfew
    obtain ⟨deadline, hopened?, hbefore⟩ := exists_of_isOpen hopen
    rw [if_neg (by omega), hopened?] at hdeadline
    obtain ⟨first, hfirst, hwindow⟩ := Option.map_eq_some_iff.mp hdeadline.symm
    rw [List.getElem?_take_of_lt (by omega)] at hfirst
    refine ⟨j - r.presses, by omega, by omega, ?_, first, hfirst, now, hnow, by omega⟩
    have hsame : joinsAt { window } (times.take j ++ times.drop j) (j - r.presses) =
        joinsAt { window } (times.take j) (j - r.presses) :=
      joinsAt_append (by rw [List.length_take_of_le hlength]; omega) _
    rw [List.take_append_drop] at hsame
    rw [hsame]
    exact hopened hpos
  · rintro ⟨o, hlt, hle, hopens, hwithin⟩
    obtain ⟨m, rfl⟩ : ∃ m, j = o + m + 1 := ⟨j - o - 1, by omega⟩
    obtain ⟨first, hfirst, hafter⟩ := after_of_opens hordered hopens (m := m) (by omega)
      (hwithin.between hordered (Nat.le_refl o) (by omega) (by omega))
    obtain ⟨first', hfirst', now, hnow, hquick⟩ := hwithin
    obtain rfl : first' = first := Option.some.inj (hfirst'.symm.trans hfirst)
    rw [joinsAt_eq hnow, hafter]
    exact decide_eq_true hquick

/-- **Which presses complete a sequence:** the fourth press after one that opened a window, if it comes within it. -/
theorem firesAt_iff : firesAt { window } times (o + 4) = true ↔
    joinsAt { window } times o = false ∧ Within window times o (o + 4) := by
  constructor
  · intro hfires
    obtain ⟨-, hquick, hopens, -⟩ := tally_of_firesAt hfires
    exact ⟨hopens, hquick⟩
  · rintro ⟨hopens, hwithin⟩
    obtain ⟨first, hfirst, hafter⟩ := after_of_opens hordered hopens (m := 3) (by omega)
      (hwithin.between hordered (Nat.le_refl o) (by omega) (by omega))
    obtain ⟨first', hfirst', now, hnow, hquick⟩ := hwithin
    obtain rfl : first' = first := Option.some.inj (hfirst'.symm.trans hfirst)
    rw [firesAt_eq hnow, hafter]
    simp [press, count, isOpen, hquick, recoveryPresses]

/-- A press completes a sequence only as the fifth of its count. -/
theorem exists_opens_of_firesAt (h : firesAt { window } times i = true) :
    ∃ o, i = o + 4 ∧ joinsAt { window } times o = false ∧ Within window times o (o + 4) := by
  obtain ⟨o, rfl⟩ : ∃ o, i = o + 4 := ⟨i - 4, by have := (tally_of_firesAt h).1; omega⟩
  exact ⟨o, rfl, (firesAt_iff hordered).mp h⟩

/-- A count that is not completed in its window ends with a press that opens the next one. -/
theorem exists_opens_of_not_within (hout : ¬ Within window times o (o + 4)) :
    ∃ k, o < k ∧ k ≤ o + 4 ∧ joinsAt { window } times k = false := by
  by_contra hnone
  have hall : ∀ k, o < k → k ≤ o + 4 → joinsAt { window } times k = true := by
    intro k hlt hle
    by_contra hopens
    exact hnone ⟨k, hlt, hle, Bool.eq_false_iff.mpr hopens⟩
  -- the last of the four is counted for a window, but not for that of the first press
  obtain ⟨o', hlt, hle, hopens, hwithin⟩ := (joinsAt_iff hordered).mp (hall (o + 4) (by omega) (Nat.le_refl _))
  rcases Nat.lt_or_eq_of_le (show o ≤ o' by omega) with hlater | rfl
  · rw [hall o' hlater (by omega)] at hopens
    contradiction
  · exact hout hwithin

/-- Eight quick presses always complete a sequence. -/
theorem exists_firesAt_of_eight (hquick : Within window times j (j + 7)) :
    ∃ i, j ≤ i ∧ i ≤ j + 7 ∧ firesAt { window } times i = true := by
  by_cases hopens : joinsAt { window } times j = false
  · exact ⟨j + 4, by omega, by omega,
      (firesAt_iff hordered).mpr ⟨hopens, hquick.between hordered (Nat.le_refl j) (by omega) (by omega)⟩⟩
  obtain ⟨o, hlt, hle, hopened, hjoined⟩ := (joinsAt_iff hordered).mp (Bool.not_eq_false _ ▸ hopens)
  by_cases hwithin : Within window times o (o + 4)
  · exact ⟨o + 4, by omega, by omega, (firesAt_iff hordered).mpr ⟨hopened, hwithin⟩⟩
  -- the window of the earlier press closes on the way, and the press after it has the rest of the eight for its own
  obtain ⟨k, hok, hko, hnext⟩ := exists_opens_of_not_within hordered hwithin
  have hjk : j < k := by
    by_contra hkj
    have hjoins := (joinsAt_iff hordered).mpr
      ⟨o, hok, hko, hopened, hjoined.between hordered (Nat.le_refl o) (by omega) (by omega)⟩
    rw [hnext] at hjoins
    contradiction
  exact ⟨k + 4, by omega, by omega,
    (firesAt_iff hordered).mpr ⟨hnext, hquick.between hordered (by omega) (by omega) (by omega)⟩⟩

end Ordered

end Recovery

/-- **When five quick presses complete a sequence.**  For every length of the window and every row of presses in time
order, let five presses in a row come within the window.

* Let none of them be counted toward a sequence that is completed before the fifth.  Then one of them completes a
  sequence exactly if the first of them is not counted for a window that is open when it comes, that is, if it comes
  within the window of none of the four presses before it that opened one.
* In any case one of them completes a sequence exactly if the count to which the first of them belongs is completed: the
  press that opened its window, itself or one of the four before it, is followed by four more within that window.
* Eight presses in a row within the window complete a sequence, whatever came before them. -/
theorem five_quick_presses_fire_iff (window : Nat) {times : List Nat} (hordered : times.Pairwise (· ≤ ·)) {j : Nat}
    (hquick : Recovery.Within window times j (j + 4)) :
    ((∀ k, j ≤ k → k ≤ j + 4 → ∀ i < j + 4, ¬ Recovery.CountsToward { window } times k i) →
        ((∃ i, j ≤ i ∧ i ≤ j + 4 ∧ Recovery.firesAt { window } times i = true) ↔
          Recovery.joinsAt { window } times j = false)) ∧
      (Recovery.joinsAt { window } times j = true ↔ ∃ o, o < j ∧ j ≤ o + 4 ∧
        Recovery.joinsAt { window } times o = false ∧ Recovery.Within window times o j) ∧
      ((∃ i, j ≤ i ∧ i ≤ j + 4 ∧ Recovery.firesAt { window } times i = true) ↔
        ∃ o, o ≤ j ∧ j ≤ o + 4 ∧ Recovery.joinsAt { window } times o = false ∧
          Recovery.Within window times o (o + 4)) ∧
      (Recovery.Within window times j (j + 7) →
        ∃ i, j ≤ i ∧ i ≤ j + 7 ∧ Recovery.firesAt { window } times i = true) := by
  refine ⟨fun hfresh => ⟨?_, fun hopens => ?_⟩, Recovery.joinsAt_iff hordered, ⟨?_, ?_⟩,
    Recovery.exists_firesAt_of_eight hordered⟩
  · rintro ⟨i, hle, hi, hfires⟩
    obtain rfl : i = j + 4 := by
      by_contra hne
      exact hfresh i hle hi i (by omega) ((Recovery.countsToward_iff hfires).mpr ⟨Nat.sub_le i 4, Nat.le_refl i⟩)
    exact ((Recovery.firesAt_iff hordered).mp hfires).1
  · exact ⟨j + 4, by omega, Nat.le_refl _, (Recovery.firesAt_iff hordered).mpr ⟨hopens, hquick⟩⟩
  · rintro ⟨i, hle, hi, hfires⟩
    obtain ⟨o, rfl, hopens, hwithin⟩ := Recovery.exists_opens_of_firesAt hordered hfires
    exact ⟨o, by omega, by omega, hopens, hwithin⟩
  · rintro ⟨o, hle, hj, hopens, hwithin⟩
    exact ⟨o + 4, by omega, by omega, (Recovery.firesAt_iff hordered).mpr ⟨hopens, hwithin⟩⟩

/-- Two presses two seconds apart, and five more just after the window of the first of them. -/
def strayPresses : List Nat := [0, 2000, 3001, 3002, 3003, 3004, 3005]

/-- The five after the window complete a sequence. -/
theorem five_quick_presses_fire_iff_stray :
    Recovery.Within 3000 strayPresses 2 6 ∧ Recovery.joinsAt { window := 3000 } strayPresses 2 = false ∧
      ∃ i, 2 ≤ i ∧ i ≤ 6 ∧ Recovery.firesAt { window := 3000 } strayPresses i = true := by
  have hordered : strayPresses.Pairwise (· ≤ ·) := by decide
  have hquick : Recovery.Within 3000 strayPresses 2 6 := ⟨3001, rfl, 3005, rfl, by decide⟩
  have hopens : Recovery.joinsAt { window := 3000 } strayPresses 2 = false := by decide
  have hnone : ∀ i < 6, Recovery.firesAt { window := 3000 } strayPresses i = false := by decide
  obtain ⟨hfire, -⟩ := five_quick_presses_fire_iff 3000 hordered hquick
  refine ⟨hquick, hopens, (hfire fun k _ _ i hi hcounts => ?_).mpr hopens⟩
  have hfires := hcounts.fires
  rw [hnone i hi] at hfires
  contradiction

/-- Five presses within little more than a second complete no sequence if the first of them falls in the window of an
earlier press: none of them was counted before, and none of them fires. -/
theorem five_quick_presses_missed :
    strayPresses.Pairwise (· ≤ ·) ∧ Recovery.Within 3000 strayPresses 1 5 ∧
      (∀ k, 1 ≤ k → k ≤ 5 → ∀ i < 5, ¬ Recovery.CountsToward { window := 3000 } strayPresses k i) ∧
      ∀ i ≤ 5, Recovery.firesAt { window := 3000 } strayPresses i = false := by
  have hnone : ∀ i ≤ 5, Recovery.firesAt { window := 3000 } strayPresses i = false := by decide
  refine ⟨by decide, ⟨2000, rfl, 3004, rfl, by decide⟩, fun k _ _ i hi hcounts => ?_, hnone⟩
  have hfires := hcounts.fires
  rw [hnone i (Nat.le_of_lt hi)] at hfires
  contradiction

end DoorBridge
