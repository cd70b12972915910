import DoorBridge.Frame.Word
import DoorBridge.Proofs.Frame.Half

/-!
# Proofs.Frame.Word — words and frames determine each other

`Word.encode` succeeds exactly on the words whose counter and fixed value fit, a frame it gives decodes to the
word with its parity nibble put right, and every frame that decodes is the frame of the word it decodes to
(`Word.encode_decode_bijection`).

* `Frame.firstHalf_ofHalves`, `Frame.secondHalf_ofHalves`, `Frame.ofHalves_halves`: a frame behind the preamble is
  its two halves.
* `withParity_withParity`: the parity nibble does not depend on the nibble it replaces.
-/

namespace DoorBridge

/-! ## Frames and their halves -/

namespace Frame

theorem ext_bytes {f g : Frame} (h : f.bytes = g.bytes) : f = g := by
  obtain ⟨_, _⟩ := f
  obtain ⟨_, _⟩ := g
  obtain rfl := h
  rfl

@[simp] theorem length_preamble : preamble.length = 3 := rfl

theorem take_ofHalves (a b : List Bool) : (ofHalves a b).bytes.take 3 = preamble :=
  List.take_left' length_preamble

theorem drop_ofHalves {a b : List Bool} (ha : a.length = 64) :
    (ofHalves a b).bytes.drop 3 = bytesOf 8 a ++ bytesOf 8 b := by
  have h : (ofHalves a b).bytes.drop 3 = bytesOf 16 (a ++ b) := List.drop_left' length_preamble
  rw [h]
  exact bytesOf_append (m := 8) (n := 8) ha

theorem firstHalf_ofHalves {a b : List Bool} (ha : a.length = 64) : (ofHalves a b).firstHalf = a := by
  rw [firstHalf, drop_ofHalves ha, List.take_left' (length_bytesOf 8 a), bitsOfBytes_bytesOf ha]

theorem secondHalf_ofHalves {a b : List Bool} (ha : a.length = 64) (hb : b.length = 64) :
    (ofHalves a b).secondHalf = b := by
  have h : (ofHalves a b).bytes.drop 11 = ((ofHalves a b).bytes.drop 3).drop 8 := by rw [List.drop_drop]
  rw [secondHalf, h, drop_ofHalves ha, List.drop_left' (length_bytesOf 8 a), bitsOfBytes_bytesOf hb]

theorem length_firstHalf (f : Frame) : f.firstHalf.length = 64 := by
  rw [firstHalf, length_bitsOfBytes, List.length_take, List.length_drop, f.length_bytes]
  rfl

theorem length_secondHalf (f : Frame) : f.secondHalf.length = 64 := by
  rw [secondHalf, length_bitsOfBytes, List.length_drop, f.length_bytes]

/-- A frame that starts with the preamble is put together from its halves. -/
theorem ofHalves_halves {f : Frame} (h : f.bytes.take 3 = preamble) : ofHalves f.firstHalf f.secondHalf = f := by
  apply ext_bytes
  have hlen : (f.bytes.drop 3).length = 16 := by rw [List.length_drop, f.length_bytes]
  have hrest : (f.bytes.drop 3).take 8 ++ f.bytes.drop 11 = f.bytes.drop 3 := by
    rw [show f.bytes.drop 11 = (f.bytes.drop 3).drop 8 by rw [List.drop_drop], List.take_append_drop]
  have hbytes : bytesOf 16 (bitsOfBytes (f.bytes.drop 3)) = f.bytes.drop 3 := hlen ▸ bytesOf_bitsOfBytes _
  have hof : (ofHalves f.firstHalf f.secondHalf).bytes = preamble ++ bytesOf 16 (f.firstHalf ++ f.secondHalf) := rfl
  rw [hof, firstHalf, secondHalf, ← bitsOfBytes_append, hrest, hbytes, ← h, List.take_append_drop]

end Frame

/-! ## Parity -/

theorem nibbleSum_lt (word : Nat) : nibbleSum word < 16 := by
  have hfold : ∀ (l : List Nat) (sum : Nat), sum < 2 ^ 4 →
      l.foldl (fun sum i => sum ^^^ (word >>> (4 * i) % 16)) sum < 2 ^ 4 := by
    intro l
    induction l with
    | nil => exact fun sum h => h
    | cons i l ih =>
      intro sum h
      exact ih _ (Nat.xor_lt_two_pow h (Nat.mod_lt _ (by decide)))
  exact hfold _ 0 (by decide)

/-- A word with its parity nibble keeps every other nibble. -/
theorem toNat_withParity (fixed : Nat) (data : UInt32) : ∃ p < 16, (withParity fixed data).toNat =
    data.toNat / 0x10000 * 0x10000 + data.toNat % 0x1000 + p * 0x1000 := by
  have hp : (fixed / 0x100000000 % 16) ^^^ nibbleSum (clearParity data) < 16 :=
    Nat.xor_lt_two_pow (n := 4) (Nat.mod_lt _ (by decide)) (nibbleSum_lt _)
  refine ⟨_, hp, ?_⟩
  have hd : data.toNat < 2 ^ 32 := data.toNat_lt
  have hc : clearParity data = data.toNat / 0x10000 * 0x10000 + data.toNat % 0x1000 := rfl
  rw [withParity, UInt32.toNat_ofNat_of_lt']
  · rfl
  · rw [UInt32.size]
    omega

theorem clearParity_withParity (fixed : Nat) (data : UInt32) :
    clearParity (withParity fixed data) = clearParity data := by
  obtain ⟨p, hp, hw⟩ := toNat_withParity fixed data
  rw [clearParity, clearParity, hw]
  omega

/-- The parity nibble does not depend on the nibble it replaces. -/
theorem withParity_withParity (fixed : Nat) (data : UInt32) :
    withParity fixed (withParity fixed data) = withParity fixed data := by
  rw [withParity, clearParity_withParity, ← withParity]

/-! ## Words -/

namespace Word

theorem wellFormed_halves (w : Word) : w.halves.1.WellFormed ∧ w.halves.2.WellFormed := by
  obtain ⟨hd1, hd2⟩ := length_counterHalves w.rolling
  obtain ⟨⟨ds1, hi1, hl1⟩, ds2, hi2, hl2⟩ := digitsOfBits?_take_counterHalves w.rolling 4
  constructor
  · exact ⟨hd1, by simp [halves], by simp [halves], Scramble.ofIndicator?_of_digits hi1 hl1⟩
  · exact ⟨hd2, by simp [halves], by simp [halves], Scramble.ofIndicator?_of_digits hi2 hl2⟩

/-- What a successful decoding found on its way. -/
structure Reading (f : Frame) (w : Word) (first second : Half) : Prop where
  opening : f.bytes.take 3 = preamble
  firstHalf : Half.decode firstHeader f.firstHalf = .ok first
  secondHalf : Half.decode secondHeader f.secondHalf = .ok second
  fixed : w.fixed = ofBits (first.fixed ++ second.fixed)
  data : w.data = .ofNat (ofBits (first.data ++ second.data))
  parity : withParity w.fixed w.data = w.data
  rolling : counterOfHalves first.digits second.digits = .ok w.rolling

theorem decode_of_reading {f : Frame} {w : Word} {first second : Half} (h : Reading f w first second) :
    decode f = .ok w := by
  obtain ⟨rolling, fixed, data⟩ := w
  obtain ⟨hp, h1, h2, hf, hd, hpar, hr⟩ := h
  dsimp only at hf hd hpar hr
  subst hf hd
  simp only [decode, hp, ne_eq, not_true_eq_false, if_false, h1, h2, hpar, hr, bind, Except.bind]

theorem exists_reading {f : Frame} {w : Word} (h : decode f = .ok w) : ∃ first second, Reading f w first second := by
  rw [decode] at h
  split at h
  · cases h
  next hp =>
  cases h1 : Half.decode firstHeader f.firstHalf with
  | error cause => simp [h1, bind, Except.bind] at h
  | ok first =>
    cases h2 : Half.decode secondHeader f.secondHalf with
    | error cause => simp [h1, h2, bind, Except.bind] at h
    | ok second =>
      simp only [h1, h2, bind, Except.bind] at h
      split at h
      · cases h
      next hpar =>
      cases hr : counterOfHalves first.digits second.digits with
      | error cause => simp [hr] at h
      | ok rolling =>
        simp only [hr, Except.ok.injEq] at h
        subst h
        exact ⟨first, second, by simpa using hp, h1, h2, rfl, rfl, by simpa using hpar, hr⟩

theorem encode_eq_ok_iff (w : Word) (f : Frame) : w.encode = .ok f ↔
    (w.rolling < counterBound ∧ w.fixed < 2 ^ 40) ∧
      f = .ofHalves (w.halves.1.encode firstHeader) (w.halves.2.encode secondHeader) := by
  rw [encode]
  by_cases hw : w.rolling < counterBound ∧ w.fixed < 0x10000000000
  · rw [if_pos hw]
    constructor
    · intro h
      exact ⟨hw, by simpa using h.symm⟩
    · rintro ⟨-, rfl⟩
      rfl
  · rw [if_neg hw]
    constructor
    · intro h
      cases h
    · rintro ⟨h, -⟩
      exact absurd h hw

/-- **A word is read back from its frame**, its parity nibble put right. -/
theorem decode_encode {w : Word} {f : Frame} (h : w.encode = .ok f) :
    decode f = .ok { w with data := withParity w.fixed w.data } := by
  obtain ⟨⟨hr, hf⟩, rfl⟩ := (encode_eq_ok_iff w f).mp h
  obtain ⟨hw1, hw2⟩ := wellFormed_halves w
  have hl1 : (w.halves.1.encode firstHeader).length = 64 := Half.length_encode rfl hw1
  have hl2 : (w.halves.2.encode secondHeader).length = 64 := Half.length_encode rfl hw2
  have hcounter : counterOfHalves w.halves.1.digits w.halves.2.digits = .ok w.rolling :=
    counterOfHalves_counterHalves hr
  refine decode_of_reading ⟨Frame.take_ofHalves _ _, ?_, ?_, ?_, ?_, withParity_withParity _ _, hcounter⟩
  · rw [Frame.firstHalf_ofHalves hl1, Half.decode_encode rfl hw1]
  · rw [Frame.secondHalf_ofHalves hl1 hl2, Half.decode_encode rfl hw2]
  · simp only [halves, List.take_append_drop]
    exact (ofBits_bitsOf hf).symm
  · simp only [halves, List.take_append_drop]
    rw [ofBits_bitsOf (withParity w.fixed w.data).toNat_lt, UInt32.ofNat_toNat]

/-- **A frame that decodes is the frame of its word.** -/
theorem encode_of_decode {f : Frame} {w : Word} (h : decode f = .ok w) : w.encode = .ok f := by
  obtain ⟨first, second, hp, h1, h2, hf, hd, hpar, hr⟩ := exists_reading h
  obtain ⟨hw1, he1⟩ := Half.encode_of_decode (Frame.length_firstHalf f) h1
  obtain ⟨hw2, he2⟩ := Half.encode_of_decode (Frame.length_secondHalf f) h2
  obtain ⟨hlt, hdigits⟩ := counterHalves_of_counterOfHalves hw1.digits hw2.digits hr
  have hfl : (first.fixed ++ second.fixed).length = 40 := by rw [List.length_append, hw1.fixed, hw2.fixed]
  have hdl : (first.data ++ second.data).length = 32 := by rw [List.length_append, hw1.data, hw2.data]
  have hfb : bitsOf 40 w.fixed = first.fixed ++ second.fixed := by rw [hf, bitsOf_ofBits_of_length hfl]
  have hdb : bitsOf 32 w.data.toNat = first.data ++ second.data := by
    have hlt' : ofBits (first.data ++ second.data) < 2 ^ 32 := hdl ▸ ofBits_lt _
    rw [hd, UInt32.toNat_ofNat_of_lt' hlt', bitsOf_ofBits_of_length hdl]
  have hhalves : w.halves = (first, second) := by
    simp only [halves, hdigits, hpar, hfb, hdb, List.take_left' hw1.fixed, List.drop_left' hw1.fixed,
      List.take_left' hw1.data, List.drop_left' hw1.data]
  rw [encode_eq_ok_iff]
  refine ⟨⟨hlt, ?_⟩, ?_⟩
  · rw [hf]
    exact hfl ▸ ofBits_lt _
  · rw [hhalves, he1, he2, Frame.ofHalves_halves hp]

/-- **Words and frames determine each other.**  Exactly the words whose counter has 28 bits and whose fixed value
has 40 have a frame; it decodes to the word with its parity nibble put right; a frame that decodes is the frame
of its word, so the frames that decode are exactly the frames of words. -/
theorem encode_decode_bijection :
    (∀ w : Word, (∃ f, w.encode = .ok f) ↔ w.rolling < 2 ^ 28 ∧ w.fixed < 2 ^ 40) ∧
    (∀ (w : Word) (f : Frame), w.encode = .ok f → decode f = .ok ⟨w.rolling, w.fixed, withParity w.fixed w.data⟩) ∧
    (∀ (f : Frame) (w : Word), decode f = .ok w → encode ⟨w.rolling, w.fixed, w.data⟩ = .ok f) ∧
    ∀ f : Frame, (∃ w, decode f = .ok w) ↔ ∃ w : Word, w.encode = .ok f := by
  refine ⟨fun w => ?_, fun w f => decode_encode, fun f w => encode_of_decode, fun f => ?_⟩
  · constructor
    · rintro ⟨f, h⟩
      exact ((encode_eq_ok_iff w f).mp h).1
    · intro h
      exact ⟨_, (encode_eq_ok_iff w _).mpr ⟨h, rfl⟩⟩
  · constructor
    · rintro ⟨w, h⟩
      exact ⟨w, encode_of_decode h⟩
    · rintro ⟨w, h⟩
      exact ⟨_, decode_encode h⟩

end Word

end DoorBridge
