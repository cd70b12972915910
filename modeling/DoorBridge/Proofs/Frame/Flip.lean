import DoorBridge.Proofs.Message
import Mathlib.Data.Nat.Bitwise

/-!
# Proofs.Frame.Flip — one wrong bit does not change what a frame says

A single bit that noise has inverted outside the indicators cannot turn a packet into another one: the frame no longer
decodes, or it decodes to the same packet under another counter or id (`Message.decode_of_noise`).

* `OneOff`: two rows that differ in one place.  Cutting, inverting and taking rows apart keeps the difference in one place.
* `nibbleSum_ne_of_oneOff`: a nibble sum sees every single wrong bit, so a data word with one wrong bit needs other bits in
  the fixed value (`withParity_eq_self_iff`).
* `Half.decode_noise`: behind intact indicator bits, one wrong bit of a half reaches the data bits or the fixed bits, not
  both.
-/

namespace DoorBridge

/-- Two numbers are added without carry above and below a bit apart. -/
theorem mul_two_pow_add_xor {n r s : Nat} (a b : Nat) (hr : r < 2 ^ n) (hs : s < 2 ^ n) :
    (a * 2 ^ n + r) ^^^ (b * 2 ^ n + s) = (a ^^^ b) * 2 ^ n + (r ^^^ s) := by
  have hpos : 0 < 2 ^ n := Nat.two_pow_pos n
  have hdiv : ((a * 2 ^ n + r) ^^^ (b * 2 ^ n + s)) / 2 ^ n = a ^^^ b := by
    rw [Nat.xor_div_two_pow, Nat.mul_comm a, Nat.mul_comm b, Nat.mul_add_div hpos, Nat.mul_add_div hpos,
      Nat.div_eq_of_lt hr, Nat.div_eq_of_lt hs, Nat.add_zero, Nat.add_zero]
  have hmod : ((a * 2 ^ n + r) ^^^ (b * 2 ^ n + s)) % 2 ^ n = r ^^^ s := by
    rw [Nat.xor_mod_two_pow, Nat.mul_add_mod_of_lt hr, Nat.mul_add_mod_of_lt hs]
  rw [← hdiv, ← hmod, Nat.mul_comm (_ / _), Nat.div_add_mod]

/-! ## Rows that differ in one place -/

/-- Two rows of bits that differ in exactly one place. -/
inductive OneOff : List Bool → List Bool → Prop
  | here (b : Bool) (l : List Bool) : OneOff (b :: l) ((!b) :: l)
  | later (b : Bool) {l l' : List Bool} : OneOff l l' → OneOff (b :: l) (b :: l')

namespace OneOff

variable {l l' : List Bool}

theorem length_eq (h : OneOff l l') : l.length = l'.length := by
  induction h with
  | here => rfl
  | later b _ ih => rw [List.length_cons, List.length_cons, ih]

theorem modify {i : Nat} (h : i < l.length) : OneOff l (l.modify i not) := by
  induction l generalizing i with
  | nil => exact absurd h (Nat.not_lt_zero i)
  | cons b l ih =>
    cases i with
    | zero => exact .here b l
    | succ i => exact .later b (ih (Nat.lt_of_succ_lt_succ h))

theorem append_left (h : OneOff l l') (m : List Bool) : OneOff (m ++ l) (m ++ l') := by
  induction m with
  | nil => exact h
  | cons b m ih => exact .later b ih

theorem append_right (h : OneOff l l') (m : List Bool) : OneOff (l ++ m) (l' ++ m) := by
  induction h with
  | here b l => exact .here b (l ++ m)
  | later b _ ih => exact .later b ih

theorem flip (h : OneOff l l') (inverted : Bool) : OneOff (Scramble.flip inverted l) (Scramble.flip inverted l') := by
  induction h with
  | here b l =>
    have hb : (!b ^^ inverted) = !(b ^^ inverted) := by cases b <;> cases inverted <;> rfl
    show OneOff ((b ^^ inverted) :: Scramble.flip inverted l) ((!b ^^ inverted) :: Scramble.flip inverted l)
    rw [hb]
    exact .here _ _
  | later b _ ih => exact .later (b ^^ inverted) ih

/-- A cut leaves the difference on one side. -/
theorem split (h : OneOff l l') (n : Nat) :
    OneOff (l.take n) (l'.take n) ∧ l.drop n = l'.drop n ∨ l.take n = l'.take n ∧ OneOff (l.drop n) (l'.drop n) := by
  induction h generalizing n with
  | here b l =>
    cases n with
    | zero => exact .inr ⟨rfl, .here b l⟩
    | succ n => exact .inl ⟨.here b (l.take n), rfl⟩
  | @later b l l' h ih =>
    cases n with
    | zero => exact .inr ⟨rfl, .later b h⟩
    | succ n =>
      rcases ih n with ⟨htake, hdrop⟩ | ⟨htake, hdrop⟩
      · exact .inl ⟨.later b htake, hdrop⟩
      · exact .inr ⟨congrArg (b :: ·) htake, hdrop⟩

/-- One wrong bit adds one power of two without carry. -/
theorem exists_xor (h : OneOff l l') : ∃ k < l.length, ofBits l' = ofBits l ^^^ 2 ^ k := by
  induction h with
  | here b l =>
    refine ⟨l.length, Nat.lt_succ_self _, ?_⟩
    have hbit : (!b).toNat = b.toNat ^^^ 1 := by cases b <;> rfl
    have hmix := mul_two_pow_add_xor b.toNat 1 (ofBits_lt l) (Nat.two_pow_pos l.length)
    rw [ofBits_cons, ofBits_cons, hbit]
    simpa using hmix.symm
  | @later b l l' hrest ih =>
    obtain ⟨k, hk, hxor⟩ := ih
    refine ⟨k, Nat.lt_succ_of_lt hk, ?_⟩
    have hmix := mul_two_pow_add_xor b.toNat 0 (ofBits_lt l) (Nat.pow_lt_pow_right (by decide) hk)
    rw [ofBits_cons, ofBits_cons, ← hrest.length_eq, hxor]
    simpa using hmix.symm

end OneOff

/-! ## Parity -/

theorem nibbleSum_xor (a b : Nat) : nibbleSum (a ^^^ b) = nibbleSum a ^^^ nibbleSum b := by
  have hnibble : ∀ i, (a ^^^ b) >>> i % 16 = (a >>> i % 16) ^^^ (b >>> i % 16) := by
    intro i
    rw [Nat.shiftRight_xor_distrib]
    exact Nat.xor_mod_two_pow (n := 4)
  have hfold : ∀ (is : List Nat) (s t : Nat),
      is.foldl (fun sum i => sum ^^^ ((a ^^^ b) >>> (4 * i) % 16)) (s ^^^ t) =
        is.foldl (fun sum i => sum ^^^ (a >>> (4 * i) % 16)) s ^^^
          is.foldl (fun sum i => sum ^^^ (b >>> (4 * i) % 16)) t := by
    intro is
    induction is with
    | nil => exact fun s t => rfl
    | cons i is ih =>
      intro s t
      rw [List.foldl_cons, List.foldl_cons, List.foldl_cons, hnibble, ← ih]
      congr 1
      ac_rfl
  exact hfold _ 0 0

/-- A nibble sum sees every single wrong bit of a word. -/
theorem nibbleSum_ne_of_oneOff {l l' : List Bool} (h : OneOff l l') (hlength : l.length = 32) :
    nibbleSum (ofBits l') ≠ nibbleSum (ofBits l) := by
  obtain ⟨k, hk, hxor⟩ := h.exists_xor
  have hpower : ∀ k < 32, nibbleSum (2 ^ k) ≠ 0 := by decide
  intro heq
  have hzero : nibbleSum (ofBits l) ^^^ nibbleSum (2 ^ k) = nibbleSum (ofBits l) ^^^ 0 := by
    rw [← nibbleSum_xor, ← hxor, heq, Nat.xor_zero]
  exact hpower k (hlength ▸ hk) (Nat.xor_right_inj.mp hzero)

/-- A word that holds nothing but a parity nibble adds up to it. -/
theorem nibbleSum_parity {p : Nat} (h : p < 16) : nibbleSum (p * 0x1000) = p := by
  revert p
  decide

/-- The parity nibble is put back without carry. -/
theorem clearParity_xor (data : UInt32) : clearParity data ^^^ (data.toNat / 0x1000 % 16 * 0x1000) = data.toNat := by
  have hlow : data.toNat % 0x1000 < 2 ^ 12 := Nat.mod_lt _ (by decide)
  have hparity : data.toNat / 0x1000 % 16 * 0x1000 < 2 ^ 16 := by omega
  have hpart : data.toNat % 0x1000 ^^^ (data.toNat / 0x1000 % 16 * 0x1000) =
      data.toNat / 0x1000 % 16 * 0x1000 + data.toNat % 0x1000 := by
    simpa using mul_two_pow_add_xor 0 (data.toNat / 0x1000 % 16) hlow (Nat.two_pow_pos 12)
  have hwhole := mul_two_pow_add_xor (data.toNat / 0x10000) 0 (Nat.lt_trans hlow (by decide)) hparity
  rw [hpart, Nat.zero_mul, Nat.zero_add, Nat.xor_zero] at hwhole
  have hcleared : clearParity data = data.toNat / 0x10000 * 2 ^ 16 + data.toNat % 0x1000 := rfl
  rw [hcleared, hwhole]
  omega

/-- The parity nibble is right exactly if the nibbles of the whole data word add up to bits 32–35 of the fixed value. -/
theorem withParity_eq_self_iff (fixed : Nat) (data : UInt32) :
    withParity fixed data = data ↔ fixed / 0x100000000 % 16 = nibbleSum data.toNat := by
  have hd : data.toNat < 2 ^ 32 := data.toNat_lt
  have hcleared : clearParity data = data.toNat / 0x10000 * 0x10000 + data.toNat % 0x1000 := rfl
  have hsum : nibbleSum data.toNat = nibbleSum (clearParity data) ^^^ data.toNat / 0x1000 % 16 := by
    rw [← nibbleSum_parity (Nat.mod_lt _ (by decide)), ← nibbleSum_xor]
    exact congrArg nibbleSum (clearParity_xor data).symm
  have hp : (fixed / 0x100000000 % 16) ^^^ nibbleSum (clearParity data) < 16 :=
    Nat.xor_lt_two_pow (n := 4) (Nat.mod_lt _ (by decide)) (nibbleSum_lt _)
  have hword : (withParity fixed data).toNat =
      clearParity data + ((fixed / 0x100000000 % 16) ^^^ nibbleSum (clearParity data)) * 0x1000 := by
    rw [withParity, UInt32.toNat_ofNat_of_lt']
    rw [UInt32.size]
    omega
  have hnibble : withParity fixed data = data ↔
      (fixed / 0x100000000 % 16) ^^^ nibbleSum (clearParity data) = data.toNat / 0x1000 % 16 := by
    rw [← UInt32.toNat_inj, hword]
    omega
  rw [hnibble, hsum]
  constructor
  · intro h
    rw [← h, Nat.xor_comm (fixed / _ % _), ← Nat.xor_assoc, Nat.xor_self, Nat.zero_xor]
  · intro h
    rw [h, Nat.xor_comm, ← Nat.xor_assoc, Nat.xor_self, Nat.zero_xor]

/-! ## Halves -/

/-- Two trios of rows of which one row differs, in one place. -/
def Trio.OneOff (s t : Trio (List Bool)) : Prop :=
  ∃ i, DoorBridge.OneOff (s.get i) (t.get i) ∧ ∀ j, j ≠ i → s.get j = t.get j

theorem get_unweave_cons (a b c : Bool) (rest : List Bool) (i : Fin 3) :
    (unweave (a :: b :: c :: rest)).get i = (⟨a, b, c⟩ : Trio Bool).get i :: (unweave rest).get i := by
  match i with
  | 0 => rfl
  | 1 => rfl
  | 2 => rfl

/-- A wrong bit of an interleaved row is a wrong bit of one of the three rows. -/
theorem unweave_oneOff {n : Nat} {bits bits' : List Bool} (hlength : bits.length = 3 * n) (h : OneOff bits bits') :
    (unweave bits).OneOff (unweave bits') := by
  -- the cases are those of `unweave`: the wrong bit is one of the next three, or it comes later
  induction n generalizing bits bits' with
  | zero =>
    obtain rfl : bits = [] := List.length_eq_zero_iff.mp (by omega)
    cases h
  | succ n ih =>
    match bits, hlength with
    | a :: b :: c :: rest, hlength =>
      cases h with
      | here =>
        refine ⟨0, .here a _, fun j hj => ?_⟩
        match j, hj with
        | 0, hj => exact absurd rfl hj
        | 1, _ => rfl
        | 2, _ => rfl
      | later _ h =>
      cases h with
      | here =>
        refine ⟨1, .here b _, fun j hj => ?_⟩
        match j, hj with
        | 0, _ => rfl
        | 1, hj => exact absurd rfl hj
        | 2, _ => rfl
      | later _ h =>
      cases h with
      | here =>
        refine ⟨2, .here c _, fun j hj => ?_⟩
        match j, hj with
        | 0, _ => rfl
        | 1, _ => rfl
        | 2, hj => exact absurd rfl hj
      | later _ h =>
        obtain ⟨i, hi, hrest⟩ := ih (by simp at hlength; omega) h
        refine ⟨i, ?_, fun j hj => ?_⟩
        · rw [get_unweave_cons, get_unweave_cons]
          exact .later _ hi
        · rw [get_unweave_cons, get_unweave_cons, hrest j hj]

/-- A wrong bit of one slot is a wrong bit of the part that fills it. -/
theorem Scramble.empty_oneOff {s : Scramble} (hs : s.IsPermutation) {slots slots' : Trio (List Bool)}
    (h : slots.OneOff slots') : (s.empty slots).OneOff (s.empty slots') := by
  obtain ⟨i, hi, hrest⟩ := h
  refine ⟨s.order.get i, ?_, fun p hp => ?_⟩
  · rw [empty, empty, Trio.get_ofFn, Trio.get_ofFn, hs.slotOf_get]
    exact hi.flip _
  · have hslot : s.order.slotOf p ≠ i := by
      intro heq
      exact hp (by rw [← heq, hs.get_slotOf])
    rw [empty, empty, Trio.get_ofFn, Trio.get_ofFn, hrest _ hslot]

namespace Half

/-- Two halves of which at most one of the data bits and the fixed bits differ, the data bits in at most one place. -/
def Near (h h' : Half) : Prop := h.data = h'.data ∨ h.fixed = h'.fixed ∧ OneOff h.data h'.data

theorem near_ofParts (indicator : List Bool) {parts parts' : Trio (List Bool)} (h : parts.OneOff parts') :
    (ofParts indicator parts).Near (ofParts indicator parts') := by
  obtain ⟨i, hi, hrest⟩ := h
  unfold Near ofParts
  match i with
  | 0 =>
    have hsecond : parts.second = parts'.second := hrest 1 (by decide)
    rw [hsecond]
    rcases hi.split 10 with ⟨_, hdrop⟩ | ⟨htake, hdrop⟩
    · exact .inl (congrArg (· ++ _) hdrop)
    · exact .inr ⟨congrArg (· ++ _) htake, hdrop.append_right _⟩
  | 1 =>
    have hfirst : parts.first = parts'.first := hrest 0 (by decide)
    rw [hfirst]
    rcases hi.split 10 with ⟨_, hdrop⟩ | ⟨htake, hdrop⟩
    · exact .inl (congrArg (_ ++ ·) hdrop)
    · exact .inr ⟨congrArg (_ ++ ·) htake, hdrop.append_left _⟩
  | 2 =>
    have hfirst : parts.first = parts'.first := hrest 0 (by decide)
    have hsecond : parts.second = parts'.second := hrest 1 (by decide)
    rw [hfirst, hsecond]
    exact .inl rfl

/-- **One wrong bit of a half**, outside its indicator, reaches the data bits or the fixed bits, not both. -/
theorem decode_noise {header bits : List Bool} {h h' : Half} {k : Nat} (hbits : bits.length = 64) (hk : k < 64)
    (hindicator : k < 2 ∨ 10 ≤ k) (hd : decode header bits = .ok h) (hd' : decode header (bits.modify k not) = .ok h') :
    h.Near h' := by
  obtain ⟨_, s, hs, _, rfl⟩ := exists_scramble_of_decode hd
  obtain ⟨_, s', hs', _, rfl⟩ := exists_scramble_of_decode hd'
  rcases hindicator with hheader | hpayload
  · -- the frame-type bits do not enter the half
    have hsame : ∀ n, 2 ≤ n → (bits.modify k not).drop n = bits.drop n :=
      fun n hn => List.drop_modify_of_lt _ _ _ _ (Nat.lt_of_lt_of_le hheader hn)
    rw [hsame 2 le_rfl] at hs' ⊢
    obtain rfl : s = s' := Option.some.inj (hs.symm.trans hs')
    rw [hsame 10 (by decide)]
    exact .inl rfl
  · have hind : ((bits.modify k not).drop 2).take 8 = (bits.drop 2).take 8 := by
      have htake : ((bits.drop 2).take 8).length ≤ k - 2 := by simp; omega
      rw [List.drop_modify_of_ge _ _ _ _ (by omega), List.take_modify, List.modify_eq_self htake]
    rw [hind] at hs' ⊢
    obtain rfl : s = s' := Option.some.inj (hs.symm.trans hs')
    have hdrop : (bits.modify k not).drop 10 = (bits.drop 10).modify (k - 10) not :=
      List.drop_modify_of_ge _ _ _ _ hpayload
    have hlength : (bits.drop 10).length = 3 * 18 := by rw [List.length_drop, hbits]
    have honeOff : OneOff (bits.drop 10) ((bits.modify k not).drop 10) := hdrop ▸ .modify (by omega)
    exact near_ofParts _ (Scramble.empty_oneOff (Scramble.isPermutation_of_ofIndicator? hs)
      (unweave_oneOff hlength honeOff))

end Half

/-! ## Frames -/

namespace Frame

/-- The bits of a frame, in the order in which they are sent. -/
def bits (f : Frame) : List Bool := bitsOfBytes f.bytes

/-- The places of the eight indicator bits of each half. -/
def InIndicator (i : Nat) : Prop := 26 ≤ i ∧ i < 34 ∨ 90 ≤ i ∧ i < 98

instance (i : Nat) : Decidable (InIndicator i) := inferInstanceAs (Decidable (_ ∨ _))

/-- Two frames that agree in every bit but one. -/
def DifferOnlyAt (f g : Frame) (i : Nat) : Prop := ∀ j < 152, f.bits[j]? = g.bits[j]? ↔ j ≠ i

instance (f g : Frame) (i : Nat) : Decidable (f.DifferOnlyAt g i) := inferInstanceAs (Decidable (∀ j < 152, _))

variable {f g : Frame} {i : Nat}

@[simp] theorem length_bits (f : Frame) : f.bits.length = 152 := by
  rw [bits, length_bitsOfBytes, f.length_bytes]

theorem bits_eq_modify (h : f.DifferOnlyAt g i) : g.bits = f.bits.modify i not := by
  apply List.ext_getElem?
  intro j
  rw [List.getElem?_modify]
  by_cases hj : j < 152
  · have hjf : j < f.bits.length := by rwa [length_bits]
    have hjg : j < g.bits.length := by rwa [length_bits]
    have hiff := h j hj
    rw [List.getElem?_eq_getElem hjf, List.getElem?_eq_getElem hjg, Option.some_inj] at hiff
    rw [List.getElem?_eq_getElem hjf, List.getElem?_eq_getElem hjg, Option.map_eq_map, Option.map_some, Option.some_inj]
    by_cases hi : i = j
    · have hne : f.bits[j] ≠ g.bits[j] := fun heq => hiff.mp heq hi.symm
      rw [if_pos hi]
      exact Bool.eq_not.mpr hne.symm
    · rw [if_neg hi]
      exact (hiff.mpr fun heq => hi heq.symm).symm
  · rw [List.getElem?_eq_none (by rw [length_bits]; omega), List.getElem?_eq_none (by rw [length_bits]; omega)]
    rfl

theorem bitsOfBytes_take (n : Nat) (bytes : List UInt8) :
    bitsOfBytes (bytes.take n) = (bitsOfBytes bytes).take (8 * n) := by
  induction bytes generalizing n with
  | nil => simp [bitsOfBytes]
  | cons b bytes ih =>
    cases n with
    | zero => rfl
    | succ n =>
      have hlen : (bitsOf 8 b.toNat).length = 8 := length_bitsOf 8 _
      have hbyte : (bitsOf 8 b.toNat).take (8 * (n + 1)) = bitsOf 8 b.toNat := List.take_of_length_le (by omega)
      rw [List.take_succ_cons, bitsOfBytes_cons, bitsOfBytes_cons, ih, List.take_append, hbyte, hlen, Nat.mul_succ,
        Nat.add_sub_cancel]

theorem bitsOfBytes_drop (n : Nat) (bytes : List UInt8) :
    bitsOfBytes (bytes.drop n) = (bitsOfBytes bytes).drop (8 * n) := by
  induction bytes generalizing n with
  | nil => simp [bitsOfBytes]
  | cons b bytes ih =>
    cases n with
    | zero => rfl
    | succ n =>
      have hlen : (bitsOf 8 b.toNat).length = 8 := length_bitsOf 8 _
      have hbyte : (bitsOf 8 b.toNat).drop (8 * (n + 1)) = [] := List.drop_of_length_le (by omega)
      rw [List.drop_succ_cons, bitsOfBytes_cons, ih, List.drop_append, hbyte, hlen, List.nil_append, Nat.mul_succ,
        Nat.add_sub_cancel]

theorem firstHalf_eq (f : Frame) : f.firstHalf = (f.bits.drop 24).take 64 := by
  rw [firstHalf, bitsOfBytes_take, bitsOfBytes_drop, bits]

theorem secondHalf_eq (f : Frame) : f.secondHalf = f.bits.drop 88 := by
  rw [secondHalf, bitsOfBytes_drop, bits]

/-- A wrong bit outside the indicators leaves both halves alone, or it is a bit of one of them outside its indicator. -/
theorem halves_of_differOnlyAt (h : f.DifferOnlyAt g i) (hi : ¬ InIndicator i) :
    g.firstHalf = f.firstHalf ∧ g.secondHalf = f.secondHalf ∨
    (∃ k < 64, (k < 2 ∨ 10 ≤ k) ∧ g.firstHalf = f.firstHalf.modify k not) ∧ g.secondHalf = f.secondHalf ∨
    g.firstHalf = f.firstHalf ∧ ∃ k < 64, (k < 2 ∨ 10 ≤ k) ∧ g.secondHalf = f.secondHalf.modify k not := by
  unfold InIndicator at hi
  rw [firstHalf_eq, firstHalf_eq, secondHalf_eq, secondHalf_eq, bits_eq_modify h]
  rcases Nat.lt_or_ge i 24 with hopening | hopening
  · refine .inl ⟨?_, ?_⟩
    · rw [List.drop_modify_of_lt _ _ _ _ hopening]
    · rw [List.drop_modify_of_lt _ _ _ _ (by omega)]
  rw [List.drop_modify_of_ge _ _ _ _ hopening, List.take_modify]
  rcases Nat.lt_or_ge i 88 with hfirst | hsecond
  · refine .inr (.inl ⟨⟨i - 24, by omega, by omega, rfl⟩, ?_⟩)
    rw [List.drop_modify_of_lt _ _ _ _ hfirst]
  · have hout : ((f.bits.drop 24).take 64).length ≤ i - 24 := by
      rw [List.length_take, List.length_drop, length_bits]
      omega
    rw [List.modify_eq_self hout, List.drop_modify_of_ge _ _ _ _ hsecond]
    rcases Nat.lt_or_ge i 152 with hlt | hge
    · exact .inr (.inr ⟨rfl, i - 88, by omega, by omega, rfl⟩)
    · have hnone : (f.bits.drop 88).length ≤ i - 88 := by
        rw [List.length_drop, length_bits]
        omega
      exact .inl ⟨rfl, List.modify_eq_self hnone⟩

end Frame

namespace Word

variable {f g : Frame} {i : Nat} {w w' : Word}

/-- The data bits of the two halves, and what they spell. -/
theorem Reading.toNat_data {first second : Half} (h : Reading f w first second) :
    w.data.toNat = ofBits (first.data ++ second.data) ∧ (first.data ++ second.data).length = 32 := by
  have hlength : (first.data ++ second.data).length = 32 := by
    rw [List.length_append, (Half.encode_of_decode f.length_firstHalf h.firstHalf).1.data,
      (Half.encode_of_decode f.length_secondHalf h.secondHalf).1.data]
  refine ⟨?_, hlength⟩
  have hlt : ofBits (first.data ++ second.data) < 2 ^ 32 := hlength ▸ ofBits_lt _
  rw [h.data, UInt32.toNat_ofNat_of_lt' hlt]

/-- One wrong bit outside the indicators reaches the data word or the fixed value, not both. -/
theorem Reading.near {first second first' second' : Half} (hf : Reading f w first second)
    (hg : Reading g w' first' second') (h : f.DifferOnlyAt g i) (hi : ¬ Frame.InIndicator i) :
    first.data ++ second.data = first'.data ++ second'.data ∨
      w.fixed = w'.fixed ∧ OneOff (first.data ++ second.data) (first'.data ++ second'.data) := by
  have hfirst := hg.firstHalf
  have hsecond := hg.secondHalf
  rw [hf.fixed, hg.fixed]
  rcases Frame.halves_of_differOnlyAt h hi with
    ⟨hone, htwo⟩ | ⟨⟨k, hk, hplace, hone⟩, htwo⟩ | ⟨hone, k, hk, hplace, htwo⟩
  · rw [hone, hf.firstHalf] at hfirst
    rw [htwo, hf.secondHalf] at hsecond
    cases hfirst
    cases hsecond
    exact .inl rfl
  · rw [hone] at hfirst
    rw [htwo, hf.secondHalf] at hsecond
    cases hsecond
    rcases Half.decode_noise f.length_firstHalf hk hplace hf.firstHalf hfirst with hdata | ⟨hfixed, hdata⟩
    · exact .inl (congrArg (· ++ _) hdata)
    · exact .inr ⟨by rw [hfixed], hdata.append_right _⟩
  · rw [hone, hf.firstHalf] at hfirst
    rw [htwo] at hsecond
    cases hfirst
    rcases Half.decode_noise f.length_secondHalf hk hplace hf.secondHalf hsecond with hdata | ⟨hfixed, hdata⟩
    · exact .inl (congrArg (_ ++ ·) hdata)
    · exact .inr ⟨by rw [hfixed], hdata.append_left _⟩

/-- Two frames that decode carry one data word if they differ in one bit outside the indicators: a wrong data bit needs
another parity nibble, and the fixed value is the same then. -/
theorem data_eq_of_noise {first second first' second' : Half} (hf : Reading f w first second)
    (hg : Reading g w' first' second') (h : f.DifferOnlyAt g i) (hi : ¬ Frame.InIndicator i) : w'.data = w.data := by
  obtain ⟨hdata, hlength⟩ := hf.toNat_data
  obtain ⟨hdata', _⟩ := hg.toNat_data
  rcases hf.near hg h hi with hsame | ⟨hfixed, honeOff⟩
  · rw [hf.data, hg.data, hsame]
  · have hparity := (withParity_eq_self_iff _ _).mp hf.parity
    have hparity' := (withParity_eq_self_iff _ _).mp hg.parity
    rw [hdata, hfixed] at hparity
    rw [hdata', hparity] at hparity'
    exact absurd hparity'.symm (nibbleSum_ne_of_oneOff honeOff hlength)

end Word

namespace Message

/-- A word is read as a packet by its data word alone: the parity nibble holds the high nibble of the opcode. -/
theorem packet_ofWord_congr {w w' : Word} (hw : withParity w.fixed w.data = w.data)
    (hw' : withParity w'.fixed w'.data = w'.data) (hdata : w'.data = w.data) :
    (ofWord w').packet = (ofWord w).packet := by
  have hnibble : w.fixed / 0x100000000 % 16 = nibbleSum w.data.toNat := (withParity_eq_self_iff _ _).mp hw
  have hnibble' : w'.fixed / 0x100000000 % 16 = nibbleSum w'.data.toNat := (withParity_eq_self_iff _ _).mp hw'
  simp only [ofWord]
  rw [hnibble, hnibble', hdata]

/-- **Noise on one bit does not change a packet.**  A frame that differs in one bit from one that decodes, outside the
indicators, decodes to the same packet or not at all. -/
theorem decode_of_noise {f g : Frame} {i : Nat} {m : Message} (hf : decode f = .ok m) (h : f.DifferOnlyAt g i)
    (hi : ¬ Frame.InIndicator i) :
    (∃ cause, decode g = .error cause) ∨ ∃ m', decode g = .ok m' ∧ m'.packet = m.packet := by
  rw [decode] at hf ⊢
  cases hg : Word.decode g with
  | error cause => exact .inl ⟨_, rfl⟩
  | ok w' =>
    cases hfw : Word.decode f with
    | error cause =>
      rw [hfw] at hf
      cases hf
    | ok w =>
      rw [hfw] at hf
      cases hf
      obtain ⟨first, second, hread⟩ := Word.exists_reading hfw
      obtain ⟨first', second', hread'⟩ := Word.exists_reading hg
      have hdata := Word.data_eq_of_noise hread hread' h hi
      exact .inr ⟨_, rfl, packet_ofWord_congr hread.parity hread'.parity hdata⟩

/-- A request for the status whose sender id has lost its last bit is the same request in another name. -/
theorem decode_of_noise_status : ∃ f g : Frame, f.DifferOnlyAt g 126 ∧ ¬ Frame.InIndicator 126 ∧
    decode f = .ok ⟨.getStatus, 0x01234567, 0x00124539⟩ ∧ decode g = .ok ⟨.getStatus, 0x01234567, 0x00124538⟩ ∧
    ((∃ cause, decode g = .error cause) ∨ ∃ m', decode g = .ok m' ∧ m'.packet = .getStatus) := by
  let f : Frame := ⟨[0x55, 0x01, 0x00, 0x26, 0x34, 0x93, 0x4d, 0x35, 0xd2, 0x6d, 0x24, 0x5a, 0x27, 0x13, 0x3d, 0x63, 0x56,
    0xcb, 0x24], rfl⟩
  let g : Frame := ⟨[0x55, 0x01, 0x00, 0x26, 0x34, 0x93, 0x4d, 0x35, 0xd2, 0x6d, 0x24, 0x5a, 0x27, 0x13, 0x3d, 0x61, 0x56,
    0xcb, 0x24], rfl⟩
  have hf : decode f = .ok ⟨.getStatus, 0x01234567, 0x00124539⟩ := by decide +kernel
  have hg : decode g = .ok ⟨.getStatus, 0x01234567, 0x00124538⟩ := by decide +kernel
  have hdiffer : f.DifferOnlyAt g 126 := by decide +kernel
  have hplace : ¬ Frame.InIndicator 126 := by decide
  exact ⟨f, g, hdiffer, hplace, hf, hg, decode_of_noise hf hdiffer hplace⟩

end Message

end DoorBridge
