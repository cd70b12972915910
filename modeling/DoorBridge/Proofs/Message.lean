import DoorBridge.Message
import DoorBridge.Proofs.Frame.Word
import DoorBridge.Proofs.Packet

/-!
# Proofs.Message — messages are read back from their frames

A message has a frame exactly if its packet fits and its counter has 28 bits (`Message.exists_encode_iff`).  The
frame decodes to the same counter and the same id, and to the packet that its opcode and payload stand for
(`Message.decode_encode`), which is the packet itself unless a raw packet spells a typed one.  What a frame decodes
to has a frame again, and that frame decodes to it (`Message.encode_of_decode`); it may be another frame, since
bits that no packet uses are dropped.
-/

namespace DoorBridge

namespace Message

/-! ## What fits -/

theorem fits_iff (p : Packet) : Fits p ↔ p.command.toNat ≤ 0xfff ∧ p.payload &&& ~~~payloadMask = 0 := by
  rw [Fits, payloadPart_eq_self_iff]

theorem fits_ofParts {c : UInt16} (h : c.toNat ≤ 0xfff) (d : UInt32) : Fits (.ofParts c d) := by
  refine ⟨?_, Packet.payloadPart_payload_ofParts c d⟩
  rwa [Packet.command_ofParts]

theorem fixed_word_lt (m : Message) : m.word.fixed < 2 ^ 40 := by
  have hid : m.remoteId.toNat < 2 ^ 32 := m.remoteId.toNat_lt
  have hfixed : m.word.fixed = m.packet.command.toNat / 0x100 % 16 * 0x100000000 + m.remoteId.toNat := rfl
  omega

/-- A payload that fits leaves room for the low byte of the opcode. -/
theorem toNat_data_word {m : Message} (h : Fits m.packet) :
    m.word.data.toNat = m.packet.payload.toNat + m.packet.command.toNat % 0x100 ∧
      m.packet.payload.toNat % 0x100 = 0 := by
  have hpart := congrArg UInt32.toNat h.2
  rw [toNat_payloadPart] at hpart
  have hp : m.packet.payload.toNat < 2 ^ 32 := m.packet.payload.toNat_lt
  refine ⟨?_, by omega⟩
  rw [word, UInt32.toNat_ofNat_of_lt']
  rw [UInt32.size]
  omega

theorem encode_eq_ok_iff (m : Message) (f : Frame) : m.encode = .ok f ↔ Fits m.packet ∧ m.word.encode = .ok f := by
  rw [encode]
  by_cases h : Fits m.packet
  · rw [if_pos h]
    exact ⟨fun he => ⟨h, he⟩, And.right⟩
  · rw [if_neg h]
    exact ⟨fun he => absurd he (by simp), fun he => absurd he.1 h⟩

/-- A message has a frame exactly if its packet fits and its counter has 28 bits. -/
theorem exists_encode_iff (m : Message) : (∃ f, m.encode = .ok f) ↔ Fits m.packet ∧ m.rolling < counterBound := by
  constructor
  · rintro ⟨f, h⟩
    obtain ⟨hfits, hword⟩ := (encode_eq_ok_iff m f).mp h
    exact ⟨hfits, ((Word.encode_eq_ok_iff m.word f).mp hword).1.1⟩
  · rintro ⟨hfits, hr⟩
    exact ⟨_, (encode_eq_ok_iff m _).mpr ⟨hfits, (Word.encode_eq_ok_iff m.word _).mpr ⟨⟨hr, fixed_word_lt m⟩, rfl⟩⟩⟩

/-! ## Reading back -/

/-- The payload part does not see the parity nibble. -/
theorem payloadPart_withParity (fixed : Nat) (data : UInt32) :
    payloadPart (withParity fixed data) = payloadPart data := by
  obtain ⟨p, hp, hparity⟩ := toNat_withParity fixed data
  exact payloadPart_congr (by omega) (by omega)

/-- The payload part of the word that carries a message is the payload. -/
theorem payloadPart_data_word {m : Message} (h : Fits m.packet) : payloadPart m.word.data = m.packet.payload := by
  obtain ⟨hdata, hlow⟩ := toNat_data_word h
  have hcongr : payloadPart m.word.data = payloadPart m.packet.payload := payloadPart_congr (by omega) (by omega)
  rw [hcongr, h.2]

/-- The opcode is put together again from the fixed value and the data word. -/
theorem opcode_word {m : Message} (h : Fits m.packet) :
    UInt16.ofNat (m.word.fixed / 0x100000000 % 16 * 0x100 + (withParity m.word.fixed m.word.data).toNat % 0x100) =
      m.packet.command := by
  obtain ⟨hdata, hlow⟩ := toNat_data_word h
  obtain ⟨p, hp, hparity⟩ := toNat_withParity m.word.fixed m.word.data
  have hcommand := h.1
  have hid : m.remoteId.toNat < 2 ^ 32 := m.remoteId.toNat_lt
  have hfixed : m.word.fixed = m.packet.command.toNat / 0x100 % 16 * 0x100000000 + m.remoteId.toNat := rfl
  have hsum : m.word.fixed / 0x100000000 % 16 * 0x100 + (withParity m.word.fixed m.word.data).toNat % 0x100 =
      m.packet.command.toNat := by
    rw [hparity]
    omega
  rw [hsum, UInt16.ofNat_toNat]

theorem remoteId_word (m : Message) : UInt32.ofNat m.word.fixed = m.remoteId := by
  have hid : m.remoteId.toNat < 2 ^ 32 := m.remoteId.toNat_lt
  have hfixed : m.word.fixed = m.packet.command.toNat / 0x100 % 16 * 0x100000000 + m.remoteId.toNat := rfl
  apply UInt32.toNat_inj.mp
  rw [UInt32.toNat_ofNat']
  omega

/-- **The frame of a message decodes to what the message stands for.** -/
theorem decode_encode {m : Message} {f : Frame} (h : m.encode = .ok f) :
    decode f = .ok ⟨.ofParts m.packet.command m.packet.payload, m.rolling, m.remoteId⟩ := by
  obtain ⟨hfits, hword⟩ := (encode_eq_ok_iff m f).mp h
  rw [decode, Word.decode_encode hword]
  simp only [ofWord, opcode_word hfits, remoteId_word]
  rw [← Packet.ofParts_payloadPart, payloadPart_withParity, payloadPart_data_word hfits]
  rfl

/-- A packet that fits is what its opcode and payload stand for, unless they spell a typed packet that it is
not. -/
theorem ofParts_eq_self {p : Packet} (hfits : Fits p)
    (h : p.IsUnknown → (Packet.ofParts p.command p.payload).IsUnknown) : .ofParts p.command p.payload = p := by
  cases p with
  | unknown c d =>
    obtain ⟨o, p, -, hp, hofp⟩ | hraw := Packet.ofParts_cases c d
    · have hunknown : (Packet.ofParts c d).IsUnknown := h trivial
      rw [hofp] at hunknown
      exact absurd hunknown (Packet.command_of_typed? hp).2
    · have hd : payloadPart d = d := hfits.2
      rw [Packet.command, Packet.payload, hraw, hd]
  | status | getStatus | getOpenings | doorAction | light | lock | motion => exact Packet.ofParts_of_typed id

/-- **What a frame decodes to has a frame again**, and that frame decodes to it. -/
theorem encode_of_decode {f : Frame} {m : Message} (h : decode f = .ok m) :
    ∃ g, m.encode = .ok g ∧ decode g = .ok m := by
  rw [decode] at h
  split at h
  · next w hw =>
    obtain rfl : ofWord w = m := by simpa using h
    have hr : w.rolling < counterBound := ((Word.encode_eq_ok_iff w f).mp (Word.encode_of_decode hw)).1.1
    have hopcode : (UInt16.ofNat (w.fixed / 0x100000000 % 16 * 0x100 + w.data.toNat % 0x100)).toNat ≤ 0xfff := by
      rw [UInt16.toNat_ofNat']
      omega
    obtain ⟨g, hg⟩ := (exists_encode_iff (ofWord w)).mpr ⟨fits_ofParts hopcode w.data, hr⟩
    refine ⟨g, hg, ?_⟩
    rw [decode_encode hg]
    simp only [ofWord, Packet.ofParts_parts_ofParts]
  · cases h

/-- **Round trip of messages.**  A message has a frame exactly if its opcode has 12 bits, its payload no bit
outside the mask and its counter 28 bits.  The frame decodes to the counter, the id and the packet that opcode and
payload stand for; this is the message itself, for every typed packet and every raw packet that does not spell a
typed one.  A message read from a frame has a frame again, and is read from it again. -/
theorem encode_decode_round_trip :
    (∀ m : Message, (∃ f, m.encode = .ok f) ↔
      m.packet.command.toNat ≤ 0xfff ∧ m.packet.payload &&& ~~~payloadMask = 0 ∧ m.rolling < 2 ^ 28) ∧
    (∀ (m : Message) (f : Frame), m.encode = .ok f →
      decode f = .ok ⟨.ofParts m.packet.command m.packet.payload, m.rolling, m.remoteId⟩ ∧
      ((m.packet.IsUnknown → (Packet.ofParts m.packet.command m.packet.payload).IsUnknown) → decode f = .ok m)) ∧
    ∀ (f : Frame) (m : Message), decode f = .ok m → ∃ g, m.encode = .ok g ∧ decode g = .ok m := by
  refine ⟨fun m => ?_, fun m f h => ⟨decode_encode h, fun hraw => ?_⟩, fun f m => encode_of_decode⟩
  · rw [exists_encode_iff, fits_iff, and_assoc]
    rfl
  · rw [decode_encode h, ofParts_eq_self ((encode_eq_ok_iff m f).mp h).1 hraw]

end Message

end DoorBridge
