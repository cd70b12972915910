import DoorBridge.Settings.Binary
import Mathlib.Algebra.Ring.Nat
import Mathlib.Data.List.Infix
import Mathlib.Tactic.Common

/-!
# Proofs.Settings.Binary — the binary record can be read back, and only as a whole

* `Reads read row a` says that a reader takes a row of bytes for a value, whatever follows it, and that no shorter part
  of the row is enough.  It holds of every kind of field (`reads_byte`, `reads_flag`, `reads_varint`, `reads_choice`).
* `Decodes` says the same of a decoder that does not give back the rest; fields in a row make such a decoder
  (`Reads.andThen`), and the record is a row of fields (`decodes_encode`).
-/

namespace DoorBridge

/-! ## Readers -/

/-- A reader takes a row of bytes for a value and gives back what follows; a shorter part of the row is refused. -/
structure Reads {α : Type} (read : List UInt8 → Option (α × List UInt8)) (row : List UInt8) (a : α) : Prop where
  whole (rest : List UInt8) : read (row ++ rest) = some (a, rest)
  cut {start : List UInt8} (h : start <+: row) (hne : start ≠ row) : read start = none

/-- A decoder takes a row of bytes for a value, whatever follows; a shorter part of the row is refused. -/
structure Decodes {β : Type} (decode : List UInt8 → Option β) (row : List UInt8) (b : β) : Prop where
  whole (rest : List UInt8) : decode (row ++ rest) = some b
  cut {start : List UInt8} (h : start <+: row) (hne : start ≠ row) : decode start = none

section Readers

variable {α β : Type}

theorem decodes_done (b : β) : Decodes (fun _ => some b) [] b where
  whole _ := rfl
  cut h hne := absurd (List.prefix_nil.mp h) hne

/-- A cut in a row of two parts is in the first, or behind it. -/
theorem cut_cases {start row later : List UInt8} (h : start <+: row ++ later) :
    start <+: row ∧ start ≠ row ∨ ∃ rest, rest <+: later ∧ start = row ++ rest := by
  by_cases hrow : row <+: start
  · obtain ⟨rest, rfl⟩ := hrow
    exact .inr ⟨rest, (List.prefix_append_right_inj row).mp h, rfl⟩
  · rcases List.prefix_or_prefix_of_prefix h (List.prefix_append row later) with hfield | hfield
    · exact .inl ⟨hfield, fun heq => hrow (heq ▸ List.prefix_rfl)⟩
    · exact absurd hfield hrow

/-- A field and then the rest of a record. -/
theorem Reads.andThen {read : List UInt8 → Option (α × List UInt8)} {next : α × List UInt8 → Option β}
    {row later : List UInt8} {a : α} {b : β} (h : Reads read row a)
    (hnext : Decodes (fun rest => next (a, rest)) later b) :
    Decodes (fun bytes => read bytes >>= next) (row ++ later) b where
  whole rest := by
    rw [List.append_assoc, h.whole]
    exact hnext.whole rest
  cut {start} hstart hne := by
    rcases cut_cases hstart with ⟨hfield, hshort⟩ | ⟨rest, hrest, rfl⟩
    · rw [h.cut hfield hshort]
      rfl
    · rw [h.whole]
      exact hnext.cut hrest fun heq => hne (heq ▸ rfl)

/-- A value in one byte: what is shorter is nothing. -/
theorem Reads.ofByte {read : List UInt8 → Option (α × List UInt8)} {b : UInt8} {a : α}
    (hwhole : ∀ rest, read (b :: rest) = some (a, rest)) (hnothing : read [] = none) : Reads read [b] a where
  whole := hwhole
  cut {start} h hne := by
    cases start with
    | nil => exact hnothing
    | cons c start =>
      obtain ⟨rfl, hstart⟩ := List.cons_prefix_cons.mp h
      rw [List.prefix_nil.mp hstart] at hne
      exact absurd rfl hne

/-! ## Fields -/

theorem reads_byte (b : UInt8) : Reads readByte [b] b := .ofByte (fun _ => rfl) rfl

theorem reads_flag (flag : Bool) : Reads readFlag [.ofNat flag.toNat] flag :=
  .ofByte (fun _ => by cases flag <;> rfl) rfl

theorem toNat_ofNat_byte {n : Nat} (h : n < 256) : (UInt8.ofNat n).toNat = n := UInt8.toNat_ofNat_of_lt' h

/-- A number is read back if its last byte has room for what is left of it. -/
theorem reads_varint (room : Nat) {n : Nat} (hn : n < 16 * 128 ^ room) :
    Reads (readVarint (room + 1)) (varint (room + 1) n) n := by
  induction room generalizing n with
  | zero =>
    have hbyte : (UInt8.ofNat n).toNat = n := toNat_ofNat_byte (by omega)
    rw [varint, if_pos (by omega)]
    refine .ofByte (fun rest => ?_) rfl
    rw [readVarint, hbyte, if_pos (by omega), if_neg (by omega)]
  | succ room ih =>
    rw [varint]
    by_cases hsmall : n < 128
    · have hbyte : (UInt8.ofNat n).toNat = n := toNat_ofNat_byte (by omega)
      rw [if_pos hsmall]
      refine .ofByte (fun rest => ?_) rfl
      rw [readVarint, hbyte, if_pos hsmall, if_neg (by omega)]
    · have hbyte : (UInt8.ofNat (n % 128 + 128)).toNat = n % 128 + 128 := toNat_ofNat_byte (by omega)
      have hpower : 128 ^ (room + 1) = 128 ^ room * 128 := Nat.pow_succ ..
      have hhigh : Reads (readVarint (room + 1)) (varint (room + 1) (n / 128)) (n / 128) := ih (by omega)
      rw [if_neg hsmall]
      refine ⟨fun rest => ?_, fun {start} h hne => ?_⟩
      · rw [List.cons_append, readVarint, hbyte, if_neg (by omega), hhigh.whole]
        simp only [Option.map_some, Option.some.injEq, Prod.mk.injEq, and_true]
        omega
      · cases start with
        | nil => rfl
        | cons b start =>
          obtain ⟨rfl, hstart⟩ := List.cons_prefix_cons.mp h
          rw [readVarint, hbyte, if_neg (by omega), hhigh.cut hstart fun heq => hne (heq ▸ rfl)]
          rfl

/-- A choice is read back from its place. -/
theorem reads_choice {choices : List α} {place : Nat} {choice : α} (hsmall : place < 16 * 128 ^ 4)
    (hplace : choices[place]? = some choice) : Reads (readChoice choices) (varint varintRoom place) choice := by
  have hnumber : Reads (readVarint varintRoom) (varint varintRoom place) place := reads_varint 4 hsmall
  constructor
  · intro rest
    rw [readChoice, hnumber.whole]
    show (do let choice ← choices[place]?; some (choice, rest)) = some (choice, rest)
    rw [hplace]
    rfl
  · intro start h hne
    rw [readChoice, hnumber.cut h hne]
    rfl

end Readers

theorem length_varint_le : ∀ room n : Nat, (varint room n).length ≤ room
  | 0, _ => Nat.le_refl 0
  | room + 1, n => by
    rw [varint]
    split
    · exact Nat.succ_le_succ (Nat.zero_le room)
    · exact Nat.succ_le_succ (length_varint_le room (n / 128))

namespace Settings

/-- **The record of every settings decodes, and no shorter part of it does.** -/
theorem decodes_encode (s : Settings) : Decodes decodeFields s.encode s := by
  obtain ⟨version, security, ttc, ⟨triggers⟩, debounce, window, ledIdle⟩ := s
  have hrow : encode ⟨version, security, ttc, ⟨triggers⟩, debounce, window, ledIdle⟩ =
      [version] ++ (varint varintRoom security.place ++ ([ttc] ++ ([triggers] ++ ([.ofNat debounce.toNat] ++
        (varint varintRoom window.toNat ++ (varint varintRoom ledIdle.place ++ [])))))) := by
    simp [encode]
  have hsecurity : Reads (readChoice Security.choices) (varint varintRoom security.place) security := by
    cases security <;> exact reads_choice (by decide) rfl
  have hledIdle : Reads (readChoice LedIdle.choices) (varint varintRoom ledIdle.place) ledIdle := by
    cases ledIdle <;> exact reads_choice (by decide) rfl
  have hwindow : Reads (readVarint varintRoom) (varint varintRoom window.toNat) window.toNat :=
    reads_varint 4 window.toNat_lt
  rw [hrow]
  refine (reads_byte version).andThen (hsecurity.andThen ((reads_byte ttc).andThen ((reads_byte triggers).andThen
    ((reads_flag debounce).andThen (hwindow.andThen (hledIdle.andThen ?_))))))
  show Decodes (fun _ => some _) [] _
  rw [UInt32.ofNat_toNat]
  exact decodes_done _

theorem length_encode_le (s : Settings) : s.encode.length ≤ maxSettingsSize := by
  have hsecurity := length_varint_le varintRoom s.security.place
  have hwindow := length_varint_le varintRoom s.recoveryWindow.toNat
  have hledIdle := length_varint_le varintRoom s.ledIdle.place
  unfold varintRoom at hsecurity hwindow hledIdle
  simp only [encode, varintRoom, maxSettingsSize, List.length_append, List.length_cons, List.length_nil]
  omega

end Settings

/-- **Settings and their binary record.**  The record of any settings fits `maxSettingsSize` bytes.  A buffer takes it exactly if
it is no shorter, and then holds the record and nothing else.  Whatever follows it, the record reads as the same settings if they
have the present version, and as a record of another version if they do not.  Nothing shorter reads as a record at all. -/
theorem binary_record_round_trip (s : Settings) :
    s.encode.length ≤ maxSettingsSize ∧
      (∀ room, (∃ row, s.toBytes room = .ok row) ↔ s.encode.length ≤ room) ∧
      (∀ room row, s.toBytes room = .ok row → row = s.encode) ∧
      (∀ rest, Settings.ofBytes (s.encode ++ rest) =
        if s.version = settingsVersion then .ok s else .error (.versionMismatch s.version)) ∧
      ∀ start, start <+: s.encode → start ≠ s.encode → Settings.ofBytes start = .error .deserialize := by
  have hdecodes := s.decodes_encode
  refine ⟨s.length_encode_le, fun room => ?_, fun room row hrow => ?_, fun rest => ?_, fun start h hne => ?_⟩
  · rw [Settings.toBytes]
    by_cases hroom : s.encode.length ≤ room
    · simp [hroom]
    · simp [hroom]
  · rw [Settings.toBytes] at hrow
    split at hrow
    · exact (Except.ok.inj hrow).symm
    · contradiction
  · rw [Settings.ofBytes, hdecodes.whole]
  · rw [Settings.ofBytes, hdecodes.cut h hne]

/-- Settings whose record is as long as a record can be. -/
def widestSettings : Settings :=
  { security := .plus1, ttcSeconds := 255, recoveryWindow := 0xffffffff, ledIdle := .disabled }

/-- The record is read back with bytes behind it, and not without its last byte. -/
theorem binary_record_round_trip_widest :
    Settings.ofBytes [1, 0, 255, 0, 1, 0xff, 0xff, 0xff, 0xff, 0x0f, 2, 7, 7] = .ok widestSettings ∧
      Settings.ofBytes [1, 0, 255, 0, 1, 0xff, 0xff, 0xff, 0xff, 0x0f] = .error .deserialize ∧
      (widestSettings.toBytes 11 = .ok [1, 0, 255, 0, 1, 0xff, 0xff, 0xff, 0xff, 0x0f, 2]) ∧
      ¬ ∃ row, widestSettings.toBytes 10 = .ok row := by
  obtain ⟨-, hfits, hrow, hread, hcut⟩ := binary_record_round_trip widestSettings
  have hencode : widestSettings.encode = [1, 0, 255, 0, 1, 0xff, 0xff, 0xff, 0xff, 0x0f, 2] := by decide
  refine ⟨?_, hcut _ (by rw [hencode]; decide) (by rw [hencode]; decide), ?_, fun h => ?_⟩
  · have hpresent := hread [7, 7]
    rw [if_pos (by decide), hencode] at hpresent
    exact hpresent
  · obtain ⟨row, htaken⟩ := (hfits 11).mpr (by rw [hencode]; decide)
    rw [htaken, hrow 11 row htaken, hencode]
  · have hlong := (hfits 10).mp h
    rw [hencode] at hlong
    exact absurd hlong (by decide)

end DoorBridge
