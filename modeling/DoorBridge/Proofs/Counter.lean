import DoorBridge.Identity
import Mathlib.Tactic.Common

/-!
# Proofs.Counter — the cycle of rolling codes

Stepping skips zero, so the codes `1, …, 2^28 - 1` form a cycle of `2^28 - 1` codes.

* `codeAfter c n` is the code `n` steps after `c`; on the cycle it has a closed form (`codeAfter_eq`), and less
  than a whole round never comes back (`codeAfter_ne`).
* `codesBetween a b` is the number of steps from `a` to `b` (`codesBetween_codeAfter`).
* `advance_saveInterval`: the step taken at boot is `bootSteps` steps, nine across the wrap and ten elsewhere.
* `needsSave_iff`: a save is due exactly when the counter has come to where a boot from the save point would
  start.
-/

namespace DoorBridge

/-- The code that comes some steps after another. -/
def codeAfter (c : Nat) : Nat → Nat
  | 0 => c
  | n + 1 => advance (codeAfter c n) 1

/-- Number of codes on the cycle: all 28-bit counters but zero. -/
def cycleLength : Nat := counterBound - 1

/-- Number of steps from one code of the cycle to another. -/
def codesBetween (a b : Nat) : Nat := (b + cycleLength - a) % cycleLength

/-- Steps that a boot takes from a stored code.  The jump is taken before zero is skipped, so one across the wrap
is a step shorter. -/
def bootSteps (c : Nat) : Nat := if c + saveInterval ≤ counterBound then 10 else 9

theorem counterBound_val : counterBound = 268435456 := rfl

theorem cycleLength_val : cycleLength = 268435455 := rfl

/-! ## Stepping -/

theorem advance_eq (c n : Nat) :
    advance c n = if (c + n) % counterBound = 0 then 1 else (c + n) % counterBound := by
  rw [advance]
  split
  · next h => rw [if_pos h]
  · next h => rw [if_neg h]

theorem advance_pos (c n : Nat) : 0 < advance c n := by
  rw [advance_eq]
  split <;> omega

theorem advance_lt (c n : Nat) : advance c n < counterBound := by
  rw [advance_eq, counterBound_val]
  split <;> omega

theorem codeAfter_add (c m n : Nat) : codeAfter (codeAfter c m) n = codeAfter c (m + n) := by
  induction n with
  | zero => rfl
  | succ n ih => rw [codeAfter, ih, Nat.add_succ, codeAfter]

/-- A code after some steps, in closed form. -/
theorem codeAfter_eq {c : Nat} (hpos : 0 < c) (hlt : c < counterBound) (n : Nat) :
    codeAfter c n = (c - 1 + n) % cycleLength + 1 := by
  rw [counterBound_val] at hlt
  induction n with
  | zero =>
    rw [codeAfter, cycleLength_val]
    omega
  | succ n ih =>
    rw [codeAfter, ih, advance_eq, counterBound_val, cycleLength_val]
    split <;> omega

theorem codeAfter_succ_pos (c n : Nat) : 0 < codeAfter c (n + 1) := advance_pos (codeAfter c n) 1

theorem codeAfter_pos {c : Nat} (hpos : 0 < c) : ∀ n, 0 < codeAfter c n
  | 0 => hpos
  | n + 1 => codeAfter_succ_pos c n

theorem codeAfter_lt {c : Nat} (hlt : c < counterBound) : ∀ n, codeAfter c n < counterBound
  | 0 => hlt
  | n + 1 => advance_lt (codeAfter c n) 1

/-- Less than a whole round never comes back to a code. -/
theorem codeAfter_ne {c m n : Nat} (hpos : 0 < c) (hlt : c < counterBound) (hmn : m < n)
    (hround : n < m + cycleLength) : codeAfter c m ≠ codeAfter c n := by
  rw [codeAfter_eq hpos hlt, codeAfter_eq hpos hlt]
  rw [cycleLength_val] at *
  omega

/-- Steps are counted right as long as they are less than a whole round. -/
theorem codesBetween_codeAfter {c n d : Nat} (hpos : 0 < c) (hlt : c < counterBound) (hd : d < cycleLength) :
    codesBetween (codeAfter c n) (codeAfter c (n + d)) = d := by
  rw [codesBetween, codeAfter_eq hpos hlt, codeAfter_eq hpos hlt]
  rw [cycleLength_val] at *
  omega

/-- Before the first wrap a counter that started from zero is its number of steps. -/
theorem codeAfter_zero {n : Nat} (h : n < counterBound) : codeAfter 0 n = n := by
  induction n with
  | zero => rfl
  | succ n ih =>
    rw [codeAfter, ih (by omega), advance_eq, Nat.mod_eq_of_lt h, if_neg (by omega)]

/-! ## The step taken at boot -/

theorem bootSteps_cases (c : Nat) :
    c + 10 ≤ counterBound ∧ bootSteps c = 10 ∨ counterBound < c + 10 ∧ bootSteps c = 9 := by
  rw [bootSteps, saveInterval]
  split <;> omega

theorem bootSteps_le (c : Nat) : 9 ≤ bootSteps c ∧ bootSteps c ≤ 10 := by
  have h := bootSteps_cases c
  omega

theorem advance_saveInterval {c : Nat} (hpos : 0 < c) (hlt : c < counterBound) :
    advance c saveInterval = codeAfter c (bootSteps c) := by
  rw [codeAfter_eq hpos hlt, advance_eq, bootSteps, saveInterval]
  rw [counterBound_val] at *
  rw [cycleLength_val]
  split <;> split <;> omega

theorem bootCounter_lt (stored : Option UInt32) : Identity.bootCounter stored < counterBound := by
  rw [Identity.bootCounter]
  split
  · decide
  · exact advance_lt _ _

/-- A boot starts some steps after the stored code. -/
theorem bootCounter_stored {w : UInt32} {c n : Nat} (hlt : c < counterBound) (hpos : 0 < codeAfter c n)
    (hw : w.toNat % counterBound = codeAfter c n) :
    Identity.bootCounter (some w) = codeAfter c (n + bootSteps (codeAfter c n)) := by
  rw [← codeAfter_add, ← advance_saveInterval hpos (codeAfter_lt hlt n)]
  rw [Identity.bootCounter, Option.getD_some, hw]
  split
  · next hzero => omega
  · rfl

/-- A code survives being stored as a word. -/
theorem toNat_ofNat_codeAfter {c : Nat} (hlt : c < counterBound) (n : Nat) :
    (UInt32.ofNat (codeAfter c n)).toNat % counterBound = codeAfter c n := by
  have h := codeAfter_lt hlt n
  rw [UInt32.toNat_ofNat', counterBound_val] at *
  omega

theorem bootCounter_saved {c n : Nat} (hlt : c < counterBound) (hpos : 0 < codeAfter c n) :
    Identity.bootCounter (some (.ofNat (codeAfter c n))) = codeAfter c (n + bootSteps (codeAfter c n)) :=
  bootCounter_stored hlt hpos (toNat_ofNat_codeAfter hlt n)

/-! ## When a save is due -/

/-- The distance that decides about a save, a few steps after the save point. -/
theorem distance_codeAfter {c k : Nat} (hlt : c < counterBound) (hk : k ≤ bootSteps c) :
    saveInterval ≤ (codeAfter c k + counterBound - c % counterBound) % counterBound ↔ k = bootSteps c := by
  have hsteps := bootSteps_cases c
  rw [Nat.mod_eq_of_lt hlt, saveInterval]
  rcases Nat.eq_zero_or_pos c with rfl | hpos
  · rw [codeAfter_zero (by rw [counterBound_val]; omega)]
    rw [counterBound_val] at hsteps ⊢
    omega
  · rw [codeAfter_eq hpos hlt]
    rw [counterBound_val] at hlt hsteps ⊢
    rw [cycleLength_val]
    generalize bootSteps c = b at *
    by_cases hlap : c - 1 + k < 268435455
    · rw [Nat.mod_eq_of_lt hlap]
      omega
    · have hmod : (c - 1 + k) % 268435455 = c - 1 + k - 268435455 := by
        rw [Nat.mod_eq_sub_mod (by omega), Nat.mod_eq_of_lt (by omega)]
      rw [hmod]
      omega

/-- A save is due exactly when the counter has come to where a boot from the save point would start. -/
theorem needsSave_iff {i : Identity} {c k : Nat} (hlt : c < counterBound) (hsaved : i.lastSaved = c)
    (hrolling : i.rolling = codeAfter c k) (hk : k ≤ bootSteps c) : i.needsSave = true ↔ k = bootSteps c := by
  rw [Identity.needsSave, decide_eq_true_iff, hsaved, hrolling]
  exact distance_codeAfter hlt hk

end DoorBridge
