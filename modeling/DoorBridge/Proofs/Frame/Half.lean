import DoorBridge.Frame.Half
import DoorBridge.Proofs.Frame.Counter

/-!
# Proofs.Frame.Half — a half is read back from its 64 bits

* `Scramble.empty_fill`, `Scramble.fill_empty`: every scramble of the tables permutes the parts, so slots and
  parts determine each other.
* `unweave_weave`, `weave_unweave`: interleaving three rows of one length loses nothing.
* `Half.decode_encode` and `Half.encode_of_decode`: a well-formed half has one spelling under a header, and the
  bits that decode to a half are its spelling.
-/

namespace DoorBridge

/-! ## Trios -/

namespace Trio

variable {α : Type}

@[simp] theorem get_ofFn (f : Fin 3 → α) (i : Fin 3) : (ofFn f).get i = f i := by
  match i with
  | 0 => rfl
  | 1 => rfl
  | 2 => rfl

theorem ext_get {s t : Trio α} (h : ∀ i, s.get i = t.get i) : s = t := by
  obtain ⟨a, b, c⟩ := s
  obtain ⟨x, y, z⟩ := t
  obtain rfl : a = x := h 0
  obtain rfl : b = y := h 1
  obtain rfl : c = z := h 2
  rfl

end Trio

/-! ## The scramble -/

namespace Scramble

/-- Each part of a half fills exactly one slot. -/
structure IsPermutation (s : Scramble) : Prop where
  get_slotOf : ∀ p, s.order.get (s.order.slotOf p) = p
  slotOf_get : ∀ i, s.order.slotOf (s.order.get i) = i

theorem ofDigits_isPermutation (a b c d : Fin 3) : (ofDigits a b c d).IsPermutation where
  get_slotOf := by revert a b c d; decide
  slotOf_get := by revert a b c d; decide

theorem isPermutation_of_ofIndicator? {indicator : List Bool} {s : Scramble}
    (h : ofIndicator? indicator = some s) : s.IsPermutation := by
  rw [ofIndicator?] at h
  split at h
  · next a b c d _ =>
    obtain rfl : ofDigits a b c d = s := by simpa using h
    exact ofDigits_isPermutation a b c d
  · cases h

/-- Four digits choose a scramble. -/
theorem ofIndicator?_of_digits {indicator : List Bool} {ds : List (Fin 3)}
    (h : digitsOfBits? indicator = some ds) (hlen : ds.length = 4) : ∃ s, ofIndicator? indicator = some s := by
  match ds, hlen with
  | [a, b, c, d], _ => exact ⟨ofDigits a b c d, by rw [ofIndicator?, h]⟩

@[simp] theorem flip_flip (inverted : Bool) (bits : List Bool) : flip inverted (flip inverted bits) = bits := by
  simp [flip, Function.comp_def]

@[simp] theorem length_flip (inverted : Bool) (bits : List Bool) : (flip inverted bits).length = bits.length := by
  simp [flip]

/-- The parts are taken back from the slots they fill. -/
theorem empty_fill {s : Scramble} (hs : s.IsPermutation) (parts : Trio (List Bool)) :
    s.empty (s.fill parts) = parts := by
  refine Trio.ext_get fun p => ?_
  rw [empty, fill, Trio.get_ofFn, Trio.get_ofFn, flip_flip, hs.get_slotOf]

/-- The slots are filled again from the parts they gave. -/
theorem fill_empty {s : Scramble} (hs : s.IsPermutation) (slots : Trio (List Bool)) :
    s.fill (s.empty slots) = slots := by
  refine Trio.ext_get fun i => ?_
  rw [fill, empty, Trio.get_ofFn, Trio.get_ofFn, hs.slotOf_get, flip_flip]

theorem length_get_fill {s : Scramble} {parts : Trio (List Bool)} {n : Nat}
    (h : ∀ p, (parts.get p).length = n) (i : Fin 3) : ((s.fill parts).get i).length = n := by
  rw [fill, Trio.get_ofFn, length_flip, h]

theorem length_get_empty {s : Scramble} {slots : Trio (List Bool)} {n : Nat}
    (h : ∀ i, (slots.get i).length = n) (p : Fin 3) : ((s.empty slots).get p).length = n := by
  rw [empty, Trio.get_ofFn, length_flip, h]

end Scramble

/-! ## Interleaving -/

/-- Three rows of one length are taken apart again. -/
theorem unweave_weave : ∀ a b c : List Bool, a.length = b.length → b.length = c.length →
    unweave (weave a b c) = ⟨a, b, c⟩
  | [], [], [], _, _ => rfl
  | [], [], _ :: _, _, h => by simp at h
  | [], _ :: _, _, h, _ => by simp at h
  | _ :: _, [], _, h, _ => by simp at h
  | _ :: _, _ :: _, [], _, h => by simp at h
  | x :: a, y :: b, z :: c, hab, hbc => by
    have ih : unweave (weave a b c) = ⟨a, b, c⟩ := unweave_weave a b c (by simpa using hab) (by simpa using hbc)
    rw [weave, unweave, ih]

theorem length_weave : ∀ a b c : List Bool, a.length = b.length → b.length = c.length →
    (weave a b c).length = 3 * a.length
  | [], [], [], _, _ => rfl
  | [], [], _ :: _, _, h => by simp at h
  | [], _ :: _, _, h, _ => by simp at h
  | _ :: _, [], _, h, _ => by simp at h
  | _ :: _, _ :: _, [], _, h => by simp at h
  | x :: a, y :: b, z :: c, hab, hbc => by
    have ih := length_weave a b c (by simpa using hab) (by simpa using hbc)
    rw [weave, List.length_cons, List.length_cons, List.length_cons, ih, List.length_cons]
    omega

/-- A row taken apart is interleaved again. -/
theorem weave_unweave : ∀ (n : Nat) (bits : List Bool), bits.length = 3 * n →
    weave (unweave bits).first (unweave bits).second (unweave bits).third = bits ∧
      ∀ i, ((unweave bits).get i).length = n
  | 0, bits, h => by
    have hnil : bits = [] := List.length_eq_zero_iff.mp (by omega)
    subst hnil
    exact ⟨rfl, by decide⟩
  | n + 1, [], h => by simp at h
  | n + 1, [_], h => by simp at h; omega
  | n + 1, [_, _], h => by simp at h; omega
  | n + 1, a :: b :: c :: rest, h => by
    obtain ⟨hw, hl⟩ := weave_unweave n rest (by simp at h; omega)
    refine ⟨by rw [unweave, weave, hw], fun i => ?_⟩
    match i with
    | 0 => exact congrArg (· + 1) (hl 0)
    | 1 => exact congrArg (· + 1) (hl 1)
    | 2 => exact congrArg (· + 1) (hl 2)

/-! ## Halves -/

namespace Half

/-- A half of the right widths whose indicator holds digits. -/
structure WellFormed (h : Half) : Prop where
  digits : h.digits.length = 18
  fixed : h.fixed.length = 20
  data : h.data.length = 16
  indicator : ∃ s, Scramble.ofIndicator? h.indicator = some s

theorem length_indicator {h : Half} (hw : h.WellFormed) : h.indicator.length = 8 := by
  rw [indicator, List.length_take, hw.digits]
  rfl

theorem length_get_parts {h : Half} (hw : h.WellFormed) (p : Fin 3) : (h.parts.get p).length = 18 := by
  have hi := length_indicator hw
  match p with
  | 0 => simp [parts, Trio.get, hw.fixed, hw.data]
  | 1 => simp [parts, Trio.get, hw.fixed, hw.data]
  | 2 => simp [parts, Trio.get, hw.digits, hi]

/-- The bits of a well-formed half, its scramble given. -/
theorem encode_eq {header : List Bool} {h : Half} {s : Scramble} (hs : Scramble.ofIndicator? h.indicator = some s) :
    h.encode header = header ++ (h.indicator ++
      weave (s.fill h.parts).first (s.fill h.parts).second (s.fill h.parts).third) := by
  rw [encode, hs, List.append_assoc]

theorem length_encode {header : List Bool} {h : Half} (hheader : header.length = 2) (hw : h.WellFormed) :
    (h.encode header).length = 64 := by
  obtain ⟨s, hs⟩ := hw.indicator
  have hlen := Scramble.length_get_fill (s := s) (length_get_parts hw)
  have hfirst : (s.fill h.parts).first.length = 18 := hlen 0
  have hsecond : (s.fill h.parts).second.length = 18 := hlen 1
  have hthird : (s.fill h.parts).third.length = 18 := hlen 2
  have hwoven : (weave (s.fill h.parts).first (s.fill h.parts).second (s.fill h.parts).third).length = 54 := by
    rw [length_weave _ _ _ (hfirst.trans hsecond.symm) (hsecond.trans hthird.symm), hfirst]
  rw [encode_eq hs, List.length_append, List.length_append, hheader, length_indicator hw, hwoven]

/-- The half with a given indicator and given parts. -/
def ofParts (indicator : List Bool) (parts : Trio (List Bool)) : Half where
  digits := indicator ++ parts.third.take 10
  fixed := parts.first.take 10 ++ parts.second.take 10
  data := parts.first.drop 10 ++ parts.second.drop 10

/-- The parts of a half hold all of it. -/
theorem ofParts_parts {h : Half} (hw : h.WellFormed) : ofParts h.indicator h.parts = h := by
  have hd : (h.digits.drop 8).length = 10 := by rw [List.length_drop, hw.digits]
  have hf : (h.fixed.take 10).length = 10 := by rw [List.length_take, hw.fixed]; rfl
  have hf' : (h.fixed.drop 10).length = 10 := by rw [List.length_drop, hw.fixed]
  simp only [ofParts, parts, List.take_left' hd, List.take_left' hf, List.take_left' hf', List.drop_left' hf,
    List.drop_left' hf', List.take_append_drop, indicator]

section OfParts

variable {ind : List Bool} {p : Trio (List Bool)}

theorem indicator_ofParts (hind : ind.length = 8) : (ofParts ind p).indicator = ind := List.take_left' hind

theorem wellFormed_ofParts {s : Scramble} (hind : ind.length = 8) (hp : ∀ i, (p.get i).length = 18)
    (hs : Scramble.ofIndicator? ind = some s) : (ofParts ind p).WellFormed := by
  have hfirst : p.first.length = 18 := hp 0
  have hsecond : p.second.length = 18 := hp 1
  have hthird : p.third.length = 18 := hp 2
  refine ⟨?_, ?_, ?_, s, ?_⟩
  · rw [ofParts, List.length_append, hind, List.length_take, hthird]
    rfl
  · rw [ofParts, List.length_append, List.length_take, List.length_take, hfirst, hsecond]
    rfl
  · rw [ofParts, List.length_append, List.length_drop, List.length_drop, hfirst, hsecond]
  · rw [indicator_ofParts hind, hs]

/-- Parts are those of their half if the third one ends in a copy of the indicator. -/
theorem parts_ofParts (hind : ind.length = 8) (hp : ∀ i, (p.get i).length = 18) (hcopy : p.third.drop 10 = ind) :
    (ofParts ind p).parts = p := by
  have h1 : (p.first.take 10).length = 10 := by rw [List.length_take, show p.first.length = 18 from hp 0]; rfl
  have h2 : (p.first.drop 10).length = 8 := by rw [List.length_drop, show p.first.length = 18 from hp 0]
  rw [parts, indicator_ofParts hind]
  simp only [ofParts, List.take_left' h1, List.drop_left' h1, List.take_left' h2, List.drop_left' h2,
    List.take_append_drop, List.drop_left' hind]
  rw [← hcopy, List.take_append_drop]

end OfParts

/-- **A half is read back from its bits.** -/
theorem decode_encode {header : List Bool} {h : Half} (hheader : header.length = 2) (hw : h.WellFormed) :
    decode header (h.encode header) = .ok h := by
  obtain ⟨s, hs⟩ := hw.indicator
  have hi := length_indicator hw
  have hlen := Scramble.length_get_fill (s := s) (length_get_parts hw)
  have hcopy : h.parts.third.drop 10 = h.indicator :=
    List.drop_left' (by rw [List.length_drop, hw.digits])
  have hunweave : unweave (weave (s.fill h.parts).first (s.fill h.parts).second (s.fill h.parts).third) =
      s.fill h.parts := unweave_weave _ _ _ ((hlen 0).trans (hlen 1).symm) ((hlen 1).trans (hlen 2).symm)
  have hdrop : ∀ l : List Bool, (header ++ (h.indicator ++ l)).drop 10 = l := by
    intro l
    rw [← List.append_assoc]
    exact List.drop_left' (by rw [List.length_append, hheader, hi])
  rw [decode, encode_eq hs, List.take_left' hheader, List.drop_left' hheader, List.take_left' hi, hdrop, hunweave]
  simp only [ne_eq, not_true_eq_false, if_false, hs,
    Scramble.empty_fill (Scramble.isPermutation_of_ofIndicator? hs), hcopy]
  exact congrArg Except.ok (ofParts_parts hw)

/-- What has been checked of bits that decode to a half. -/
theorem exists_scramble_of_decode {header bits : List Bool} {h : Half} (hd : decode header bits = .ok h) :
    bits.take 2 = header ∧ ∃ s, Scramble.ofIndicator? ((bits.drop 2).take 8) = some s ∧
      (s.empty (unweave (bits.drop 10))).third.drop 10 = (bits.drop 2).take 8 ∧
      h = ofParts ((bits.drop 2).take 8) (s.empty (unweave (bits.drop 10))) := by
  rw [decode] at hd
  split at hd
  · cases hd
  next htype =>
  dsimp only at hd
  split at hd
  · cases hd
  next s hs =>
  split at hd
  · cases hd
  next hcopy =>
  cases hd
  exact ⟨not_not.mp htype, s, hs, not_not.mp hcopy, rfl⟩

/-- **The bits that decode to a half are the bits of that half.** -/
theorem encode_of_decode {header bits : List Bool} {h : Half}
    (hbits : bits.length = 64) (hd : decode header bits = .ok h) : h.WellFormed ∧ h.encode header = bits := by
  obtain ⟨htype, s, hs, hcopy, rfl⟩ := exists_scramble_of_decode hd
  obtain ⟨hweave, hslots⟩ := weave_unweave 18 (bits.drop 10) (by rw [List.length_drop, hbits])
  have hp := Scramble.length_get_empty (s := s) hslots
  have hi : ((bits.drop 2).take 8).length = 8 := by rw [List.length_take, List.length_drop, hbits]; rfl
  have hfill := Scramble.fill_empty (Scramble.isPermutation_of_ofIndicator? hs) (unweave (bits.drop 10))
  have hind := indicator_ofParts (p := s.empty (unweave (bits.drop 10))) hi
  refine ⟨wellFormed_ofParts hi hp hs, ?_⟩
  rw [encode_eq (hind.symm ▸ hs), parts_ofParts hi hp hcopy, hfill, hweave, hind, ← htype]
  have hjoin : (bits.drop 2).take 8 ++ bits.drop 10 = bits.drop 2 := by
    rw [show bits.drop 10 = (bits.drop 2).drop 8 by rw [List.drop_drop], List.take_append_drop]
  rw [hjoin, List.take_append_drop]

end Half

end DoorBridge
