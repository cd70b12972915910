import DoorBridge.Frame.Counter
import DoorBridge.Proofs.Bits

/-!
# Proofs.Frame.Counter — the counter is read back from the digits of the two halves

* `digitsOfBits?_eq_some_iff`: two bits a digit, and no other spelling of a row of digits.
* `riffle_deal`, `deal_riffle`: dealing a row in two and riffling it together are inverse.
* `mirror_mirror`: mirroring the 28 bits twice changes nothing.
* `counterOfHalves_counterHalves` and `counterHalves_of_counterOfHalves`: each counter below the bound has one
  spelling, and each accepted spelling is the one of its counter.
-/

namespace DoorBridge

/-! ## Digits -/

@[simp] theorem length_digitBits (d : Fin 3) : (digitBits d).length = 2 := rfl

theorem digitOfBits?_eq_some_iff (a b : Bool) (d : Fin 3) : digitOfBits? a b = some d ↔ digitBits d = [a, b] := by
  revert a b d
  decide

@[simp] theorem length_flatMap_digitBits (ds : List (Fin 3)) : (ds.flatMap digitBits).length = 2 * ds.length := by
  induction ds with
  | nil => rfl
  | cons d ds ih =>
    rw [List.flatMap_cons, List.length_append, ih, length_digitBits, List.length_cons]
    omega

theorem take_flatMap_digitBits (n : Nat) (ds : List (Fin 3)) :
    (ds.flatMap digitBits).take (2 * n) = (ds.take n).flatMap digitBits := by
  induction n generalizing ds with
  | zero => simp
  | succ n ih =>
    cases ds with
    | nil => simp
    | cons d ds =>
      have h2 : 2 * (n + 1) = (digitBits d).length + 2 * n := by rw [length_digitBits]; omega
      rw [List.flatMap_cons, h2, List.take_length_add_append, ih, List.take_succ_cons, List.flatMap_cons]

/-- Digits are read back from their bits. -/
theorem digitsOfBits?_flatMap (ds : List (Fin 3)) : digitsOfBits? (ds.flatMap digitBits) = some ds := by
  induction ds with
  | nil => rfl
  | cons d ds ih =>
    obtain ⟨a, b, hab⟩ : ∃ a b, digitBits d = [a, b] := ⟨_, _, rfl⟩
    have hd : digitOfBits? a b = some d := (digitOfBits?_eq_some_iff a b d).mpr hab
    rw [List.flatMap_cons, hab, List.cons_append, List.cons_append, List.nil_append, digitsOfBits?, hd, ih]

/-- A row of bits spells at most one row of digits, two bits each. -/
theorem eq_flatMap_of_digitsOfBits? : ∀ (bits : List Bool) (ds : List (Fin 3)),
    digitsOfBits? bits = some ds → bits = ds.flatMap digitBits
  | [], ds, h => by
    obtain rfl : [] = ds := by simpa [digitsOfBits?] using h
    rfl
  | [_], ds, h => by simp [digitsOfBits?] at h
  | a :: b :: bits, ds, h => by
    rw [digitsOfBits?] at h
    split at h
    · next d rest hd hrest =>
      obtain rfl : d :: rest = ds := by simpa using h
      have hbits : bits = rest.flatMap digitBits := eq_flatMap_of_digitsOfBits? bits rest hrest
      rw [List.flatMap_cons, (digitOfBits?_eq_some_iff a b d).mp hd, ← hbits]
      rfl
    · cases h

theorem digitsOfBits?_eq_some_iff (bits : List Bool) (ds : List (Fin 3)) :
    digitsOfBits? bits = some ds ↔ bits = ds.flatMap digitBits :=
  ⟨eq_flatMap_of_digitsOfBits? bits ds, fun h => h ▸ digitsOfBits?_flatMap ds⟩

/-! ## Dealing -/

section Dealing

variable {α : Type}

theorem deal_cons_cons (a b : α) (l : List α) : deal (a :: b :: l) = (a :: (deal l).1, b :: (deal l).2) := rfl

theorem length_deal : ∀ (n : Nat) (l : List α), l.length = 2 * n → (deal l).1.length = n ∧ (deal l).2.length = n
  | 0, l, h => by
    have hnil : l = [] := List.length_eq_zero_iff.mp (by omega)
    subst hnil
    exact ⟨rfl, rfl⟩
  | n + 1, [], h => by simp at h
  | n + 1, [a], h => by simp at h; omega
  | n + 1, a :: b :: l, h => by
    have hl : l.length = 2 * n := by simp at h; omega
    obtain ⟨h1, h2⟩ := length_deal n l hl
    rw [deal_cons_cons]
    exact ⟨by rw [List.length_cons, h1], by rw [List.length_cons, h2]⟩

/-- A dealt row is put together again. -/
theorem riffle_deal : ∀ l : List α, riffle (deal l).1 (deal l).2 = l
  | [] => rfl
  | [a] => rfl
  | a :: b :: l => by
    have h : riffle (a :: (deal l).1) (b :: (deal l).2) = a :: b :: riffle (deal l).1 (deal l).2 := rfl
    rw [deal_cons_cons, h, riffle_deal l]

/-- Two rows of one length are dealt again from their riffle. -/
theorem deal_riffle : ∀ a b : List α, a.length = b.length → deal (riffle a b) = (a, b)
  | [], [], _ => rfl
  | [], _ :: _, h => by simp at h
  | _ :: _, [], h => by simp at h
  | x :: a, y :: b, h => by
    have hr : riffle (x :: a) (y :: b) = x :: y :: riffle a b := rfl
    rw [hr, deal_cons_cons, deal_riffle a b (by simpa using h)]

theorem length_riffle : ∀ a b : List α, a.length = b.length → (riffle a b).length = 2 * a.length
  | [], _, _ => rfl
  | _ :: _, [], h => by simp at h
  | x :: a, y :: b, h => by
    have hr : riffle (x :: a) (y :: b) = x :: y :: riffle a b := rfl
    rw [hr, List.length_cons, List.length_cons, length_riffle a b (by simpa using h), List.length_cons]
    omega

end Dealing

/-! ## Counters -/

theorem mirror_lt (c : Nat) : mirror c < counterBound := by
  have h : ofBits (bitsOf 28 c).reverse < 2 ^ (bitsOf 28 c).reverse.length := ofBits_lt _
  rwa [List.length_reverse, length_bitsOf] at h

/-- Mirroring twice changes nothing. -/
theorem mirror_mirror {c : Nat} (h : c < counterBound) : mirror (mirror c) = c := by
  have hlen : (bitsOf 28 c).reverse.length = 28 := by rw [List.length_reverse, length_bitsOf]
  rw [mirror, mirror, bitsOf_ofBits_of_length hlen, List.reverse_reverse, ofBits_bitsOf h]

theorem length_counterHalves (c : Nat) :
    (counterHalves c).1.length = 18 ∧ (counterHalves c).2.length = 18 := by
  obtain ⟨h1, h2⟩ := length_deal 9 (ternary 18 (mirror c)) (length_ternary 18 _)
  constructor
  · rw [counterHalves, length_flatMap_digitBits, h1]
  · rw [counterHalves, length_flatMap_digitBits, h2]

/-- A counter is read back from its halves. -/
theorem counterOfHalves_counterHalves {c : Nat} (h : c < counterBound) :
    counterOfHalves (counterHalves c).1 (counterHalves c).2 = .ok c := by
  have hroom : mirror c < 3 ^ 18 := lt_trans (mirror_lt c) (by decide)
  simp only [counterHalves, counterOfHalves, digitsOfBits?_flatMap, riffle_deal, ofTernary_ternary hroom]
  rw [if_pos (mirror_lt c), mirror_mirror h]

/-- The halves that spell a counter are the halves of that counter. -/
theorem counterHalves_of_counterOfHalves {a b : List Bool} {c : Nat} (ha : a.length = 18) (hb : b.length = 18)
    (h : counterOfHalves a b = .ok c) : c < counterBound ∧ counterHalves c = (a, b) := by
  rw [counterOfHalves] at h
  split at h
  · next da db hda hdb =>
    have ha' : a = da.flatMap digitBits := (digitsOfBits?_eq_some_iff a da).mp hda
    have hb' : b = db.flatMap digitBits := (digitsOfBits?_eq_some_iff b db).mp hdb
    have hda9 : da.length = 9 := by rw [ha', length_flatMap_digitBits] at ha; omega
    have hdb9 : db.length = 9 := by rw [hb', length_flatMap_digitBits] at hb; omega
    by_cases hv : ofTernary (riffle da db) < counterBound
    · obtain rfl : mirror (ofTernary (riffle da db)) = c := by simpa [hv] using h
      have hlen : (riffle da db).length = 18 := by rw [length_riffle _ _ (by omega), hda9]
      have hdigits : ternary 18 (ofTernary (riffle da db)) = riffle da db := hlen ▸ ternary_ofTernary _
      refine ⟨mirror_lt _, ?_⟩
      rw [counterHalves, mirror_mirror hv, hdigits, deal_riffle _ _ (by omega), ha', hb']
    · simp [hv] at h
  · cases h

/-- The first digits of a half are digits. -/
theorem digitsOfBits?_take_counterHalves (c n : Nat) :
    (∃ ds, digitsOfBits? ((counterHalves c).1.take (2 * n)) = some ds ∧ ds.length = min n 9) ∧
      ∃ ds, digitsOfBits? ((counterHalves c).2.take (2 * n)) = some ds ∧ ds.length = min n 9 := by
  obtain ⟨h1, h2⟩ := length_deal 9 (ternary 18 (mirror c)) (length_ternary 18 _)
  simp only [counterHalves, take_flatMap_digitBits]
  refine ⟨⟨_, digitsOfBits?_flatMap _, ?_⟩, ⟨_, digitsOfBits?_flatMap _, ?_⟩⟩
  · rw [List.length_take, h1]
  · rw [List.length_take, h2]

end DoorBridge
