import DoorBridge.Bits
import Mathlib.Tactic.Ring

/-!
# Proofs.Bits — rows of bits and digits read back

`bitsOf`/`ofBits` and `ternary`/`ofTernary` are inverse on rows of their own length and on numbers that fit, and
so are `bytesOf`/`bitsOfBytes` on whole bytes.
-/

namespace DoorBridge

/-! ## Bits -/

@[simp] theorem ofBits_nil : ofBits [] = 0 := rfl

/-- Reading a row on top of a value already read. -/
theorem foldl_ofBits (l : List Bool) (v : Nat) :
    l.foldl (fun v b => 2 * v + b.toNat) v = v * 2 ^ l.length + ofBits l := by
  induction l generalizing v with
  | nil => simp
  | cons b l ih =>
    have h : ofBits (b :: l) = b.toNat * 2 ^ l.length + ofBits l := by
      have h0 : ofBits (b :: l) = l.foldl (fun v b => 2 * v + b.toNat) b.toNat := by simp [ofBits]
      rw [h0, ih]
    rw [List.foldl_cons, ih, h, List.length_cons, pow_succ]
    ring

theorem ofBits_cons (b : Bool) (l : List Bool) : ofBits (b :: l) = b.toNat * 2 ^ l.length + ofBits l := by
  have h : ofBits (b :: l) = l.foldl (fun v b => 2 * v + b.toNat) b.toNat := by simp [ofBits]
  rw [h, foldl_ofBits]

theorem ofBits_lt (l : List Bool) : ofBits l < 2 ^ l.length := by
  induction l with
  | nil => simp
  | cons b l ih =>
    have hb : b.toNat ≤ 1 := Bool.toNat_le b
    have hm : b.toNat * 2 ^ l.length ≤ 1 * 2 ^ l.length := Nat.mul_le_mul_right _ hb
    rw [ofBits_cons, List.length_cons, pow_succ]
    omega

/-- Only the low `n` bits of a number matter to a row of `n` bits. -/
theorem bitsOf_mod (n x : Nat) : ∀ m ≤ n, bitsOf m (x % 2 ^ n) = bitsOf m x
  | 0, _ => rfl
  | m + 1, h => by
    have hm : (x % 2 ^ n).testBit m = x.testBit m := by
      rw [Nat.testBit_mod_two_pow]
      simp [show m < n by omega]
    rw [bitsOf, bitsOf, hm, bitsOf_mod n x m (by omega)]

/-- A row of bits is read back from its number. -/
theorem bitsOf_ofBits (l : List Bool) : bitsOf l.length (ofBits l) = l := by
  induction l with
  | nil => rfl
  | cons b l ih =>
    have hlt : ofBits l < 2 ^ l.length := ofBits_lt l
    have htop : (ofBits (b :: l)).testBit l.length = b := by
      rw [ofBits_cons, Nat.mul_comm, Nat.testBit_two_pow_mul_add _ hlt]
      cases b <;> simp
    have hrest : ofBits (b :: l) % 2 ^ l.length = ofBits l := by
      rw [ofBits_cons, Nat.mul_add_mod_of_lt hlt]
    rw [List.length_cons, bitsOf, htop, ← bitsOf_mod l.length _ l.length le_rfl, hrest, ih]

theorem bitsOf_ofBits_of_length {n : Nat} {l : List Bool} (h : l.length = n) : bitsOf n (ofBits l) = l := by
  subst h
  exact bitsOf_ofBits l

/-- A number is read back from its bits, up to the bits that do not fit. -/
theorem ofBits_bitsOf_mod (n x : Nat) : ofBits (bitsOf n x) = x % 2 ^ n := by
  induction n with
  | zero => simp [bitsOf, Nat.mod_one]
  | succ n ih =>
    rw [bitsOf, ofBits_cons, length_bitsOf, ih, Nat.mod_pow_succ, Nat.toNat_testBit]
    ring

theorem ofBits_bitsOf {n x : Nat} (h : x < 2 ^ n) : ofBits (bitsOf n x) = x := by
  rw [ofBits_bitsOf_mod, Nat.mod_eq_of_lt h]

/-! ## Ternary digits -/

/-- A row of digits is read back from its number. -/
theorem ternary_ofTernary (l : List (Fin 3)) : ternary l.length (ofTernary l) = l := by
  induction l with
  | nil => rfl
  | cons d l ih =>
    have hd : d.val < 3 := d.isLt
    have hlow : (ofTernary (d :: l)) % 3 = d.val := by rw [ofTernary]; omega
    have hhigh : (ofTernary (d :: l)) / 3 = ofTernary l := by rw [ofTernary]; omega
    rw [List.length_cons, ternary, hhigh, ih]
    exact congrArg (· :: l) (Fin.ext hlow)

/-- A number is read back from its digits. -/
theorem ofTernary_ternary {n x : Nat} (h : x < 3 ^ n) : ofTernary (ternary n x) = x := by
  induction n generalizing x with
  | zero =>
    have hx : x = 0 := by simpa using h
    rw [hx]
    rfl
  | succ n ih =>
    have hq : x / 3 < 3 ^ n := by
      rw [pow_succ] at h
      omega
    rw [ternary, ofTernary, ih hq]
    exact Nat.mod_add_div x 3

/-! ## Bytes -/

/-- The bits of the byte written by eight bits. -/
theorem bitsOf_byteOfBits {l : List Bool} (h : l.length = 8) : bitsOf 8 (UInt8.ofNat (ofBits l)).toNat = l := by
  have hlt : ofBits l < 2 ^ 8 := h ▸ ofBits_lt l
  rw [UInt8.toNat_ofNat_of_lt' hlt, bitsOf_ofBits_of_length h]

/-- The byte written by the bits of a byte. -/
theorem byteOfBits_bitsOf (b : UInt8) : UInt8.ofNat (ofBits (bitsOf 8 b.toNat)) = b := by
  rw [ofBits_bitsOf b.toNat_lt, UInt8.ofNat_toNat]

theorem bitsOfBytes_cons (b : UInt8) (bytes : List UInt8) :
    bitsOfBytes (b :: bytes) = bitsOf 8 b.toNat ++ bitsOfBytes bytes := by
  simp [bitsOfBytes]

theorem bitsOfBytes_append (a b : List UInt8) : bitsOfBytes (a ++ b) = bitsOfBytes a ++ bitsOfBytes b := by
  simp [bitsOfBytes]

@[simp] theorem length_bitsOfBytes (bytes : List UInt8) : (bitsOfBytes bytes).length = 8 * bytes.length := by
  induction bytes with
  | nil => rfl
  | cons b bytes ih =>
    rw [bitsOfBytes_cons, List.length_append, ih, length_bitsOf, List.length_cons]
    omega

theorem bytesOf_zero (bs : List Bool) : bytesOf 0 bs = [] := rfl

/-- The first byte of a row, and the bytes of the rest. -/
theorem bytesOf_succ (n : Nat) (bs : List Bool) :
    bytesOf (n + 1) bs = .ofNat (ofBits (bs.take 8)) :: bytesOf n (bs.drop 8) := by
  have hstep : ∀ i, byteAt bs (i + 1) = byteAt (bs.drop 8) i := by
    intro i
    rw [byteAt, byteAt, List.drop_drop, Nat.mul_succ, Nat.add_comm]
  have hfirst : byteAt bs 0 = UInt8.ofNat (ofBits (bs.take 8)) := by simp [byteAt]
  rw [bytesOf, List.range_succ_eq_map, List.map_cons, List.map_map, hfirst]
  exact congrArg (_ :: ·) (List.map_congr_left fun i _ => hstep i)

/-- The bytes of two rows of whole bytes, one after the other. -/
theorem bytesOf_append {m n : Nat} {a b : List Bool} (ha : a.length = 8 * m) :
    bytesOf (m + n) (a ++ b) = bytesOf m a ++ bytesOf n b := by
  induction m generalizing a with
  | zero =>
    have hnil : a = [] := List.length_eq_zero_iff.mp (by simpa using ha)
    rw [hnil, Nat.zero_add, List.nil_append, bytesOf_zero, List.nil_append]
  | succ m ih =>
    have hle : 8 ≤ a.length := by omega
    have hdrop : (a.drop 8).length = 8 * m := by rw [List.length_drop]; omega
    rw [Nat.succ_add, bytesOf_succ, bytesOf_succ, List.take_append_of_le_length hle, List.drop_append_of_le_length hle,
      ih hdrop, List.cons_append]

/-- Whole bytes keep every bit of a row. -/
theorem bitsOfBytes_bytesOf {n : Nat} {bs : List Bool} (h : bs.length = 8 * n) :
    bitsOfBytes (bytesOf n bs) = bs := by
  induction n generalizing bs with
  | zero =>
    have hnil : bs = [] := List.length_eq_zero_iff.mp (by simpa using h)
    rw [hnil]
    rfl
  | succ n ih =>
    have htake : (bs.take 8).length = 8 := by rw [List.length_take]; omega
    have hdrop : (bs.drop 8).length = 8 * n := by rw [List.length_drop]; omega
    rw [bytesOf_succ, bitsOfBytes_cons, bitsOf_byteOfBits htake, ih hdrop, List.take_append_drop]

/-- A row of bytes is read back from its bits. -/
theorem bytesOf_bitsOfBytes (bytes : List UInt8) : bytesOf bytes.length (bitsOfBytes bytes) = bytes := by
  induction bytes with
  | nil => rfl
  | cons b bytes ih =>
    have hlen : (bitsOf 8 b.toNat).length = 8 := length_bitsOf 8 _
    rw [List.length_cons, bytesOf_succ, bitsOfBytes_cons, List.take_left' hlen, List.drop_left' hlen, byteOfBits_bitsOf, ih]

end DoorBridge
