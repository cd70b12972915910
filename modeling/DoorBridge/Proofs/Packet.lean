import DoorBridge.Packet
import Mathlib.Tactic.Ring

/-!
# Proofs.Packet — a packet is read back from its opcode and its payload

* `payloadPart_eq_and`: the payload part of a data word is what a mask leaves of it.
* `Packet.ofParts_payloadPart`: reading a packet looks at the payload part alone.
* `Packet.ofParts_of_typed`: a typed packet is read back from its opcode and payload.
* `Packet.command_ofParts`, `Packet.payloadPart_payload_ofParts`: what was read has the opcode it was read under,
  and a payload without stray bits.
-/

namespace DoorBridge

/-! ## The payload part -/

/-- The bits of a data word that carry payload. -/
def payloadMask : UInt32 := 0xffff0f00

theorem toNat_payloadPart (d : UInt32) :
    (payloadPart d).toNat = d.toNat / 0x10000 * 0x10000 + d.toNat / 0x100 % 16 * 0x100 := by
  have hd : d.toNat < 2 ^ 32 := d.toNat_lt
  rw [payloadPart, UInt32.toNat_ofNat_of_lt']
  rw [UInt32.size]
  omega

/-- The payload part sees the two high bytes and the value nibble. -/
theorem payloadPart_congr {d d' : UInt32} (hhigh : d.toNat / 0x10000 = d'.toNat / 0x10000)
    (hvalue : d.toNat / 0x100 % 16 = d'.toNat / 0x100 % 16) : payloadPart d = payloadPart d' := by
  apply UInt32.toNat_inj.mp
  rw [toNat_payloadPart, toNat_payloadPart, hhigh, hvalue]

/-- The payload part of a data word is what the mask leaves of it. -/
theorem payloadPart_eq_and (d : UInt32) : payloadPart d = d &&& payloadMask := by
  have hd : d.toNat < 2 ^ 32 := d.toNat_lt
  apply UInt32.toNat_inj.mp
  rw [UInt32.toNat_and, toNat_payloadPart, show payloadMask.toNat = 0xffff0f00 from rfl]
  -- the mask keeps the two high bytes, of the next byte its low half, and nothing below
  have hhigh : (d.toNat &&& 0xffff0f00) / 2 ^ 16 = d.toNat / 2 ^ 16 := by
    rw [Nat.and_div_two_pow, show 0xffff0f00 / 2 ^ 16 = 2 ^ 16 - 1 from rfl, Nat.and_two_pow_sub_one_eq_mod]
    omega
  have hvalue : (d.toNat &&& 0xffff0f00) % 2 ^ 16 / 2 ^ 8 = d.toNat % 2 ^ 16 / 2 ^ 8 % 2 ^ 4 := by
    rw [Nat.and_mod_two_pow, Nat.and_div_two_pow, show 0xffff0f00 % 2 ^ 16 / 2 ^ 8 = 2 ^ 4 - 1 from rfl,
      Nat.and_two_pow_sub_one_eq_mod]
  have hlow : (d.toNat &&& 0xffff0f00) % 2 ^ 8 = 0 := by
    rw [Nat.and_mod_two_pow, show 0xffff0f00 % 2 ^ 8 = 0 from rfl, Nat.and_zero]
  omega

theorem payloadPart_payloadPart (d : UInt32) : payloadPart (payloadPart d) = payloadPart d := by
  rw [payloadPart_eq_and, payloadPart_eq_and, UInt32.and_assoc, UInt32.and_self]

/-- A word is its payload part exactly if it has no bit outside the mask. -/
theorem payloadPart_eq_self_iff (d : UInt32) : payloadPart d = d ↔ d &&& ~~~payloadMask = 0 := by
  rw [payloadPart_eq_and]
  constructor
  · intro h
    rw [← h, UInt32.and_assoc, UInt32.and_not_self, UInt32.and_zero]
  · intro h
    have hsplit : d &&& payloadMask ||| d &&& ~~~payloadMask = d := by
      rw [← UInt32.toBitVec_inj, UInt32.toBitVec_or, UInt32.toBitVec_and, UInt32.toBitVec_and, UInt32.toBitVec_not,
        ← BitVec.and_or_distrib_left, BitVec.or_not_self, BitVec.and_allOnes]
    rwa [h, UInt32.or_zero] at hsplit

/-! ## Codes -/

@[simp] theorem DoorState.ofCode_code (s : DoorState) : ofCode s.code = s := by cases s <;> rfl

@[simp] theorem DoorAction.ofCode?_code (a : DoorAction) : ofCode? a.code = some a := by cases a <;> rfl

theorem DoorState.code_lt (s : DoorState) : s.code < 16 := by cases s <;> decide

theorem DoorAction.code_lt (a : DoorAction) : a.code < 16 := by cases a <;> decide

@[simp] theorem Opcode.ofCode?_code (o : Opcode) : ofCode? o.code = some o := by cases o <;> rfl

theorem Opcode.code_of_ofCode? {c : UInt16} {o : Opcode} (h : ofCode? c = some o) : o.code = c := by
  simpa using List.find?_some h

namespace Packet

/-- Whether a packet is kept raw. -/
def IsUnknown : Packet → Prop
  | unknown _ _ => True
  | _ => False

/-! ## Reading -/

/-- Reading a packet looks at the payload part alone. -/
theorem typed?_payloadPart (o : Opcode) (d : UInt32) : typed? o (payloadPart d) = typed? o d := by
  have hd : d.toNat < 2 ^ 32 := d.toNat_lt
  have hp := toNat_payloadPart d
  have hvalue : (payloadPart d).toNat / 0x100 % 16 = d.toNat / 0x100 % 16 := by omega
  have hid : (payloadPart d).toNat / 0x1000000 = d.toNat / 0x1000000 := by omega
  have hhigh : ∀ i, 16 ≤ i → (payloadPart d).toNat.testBit i = d.toNat.testBit i := by
    intro i hi
    have hshift : (payloadPart d).toNat / 2 ^ 16 = d.toNat / 2 ^ 16 := by omega
    obtain ⟨j, rfl⟩ := Nat.exists_eq_add_of_le' hi
    rw [← Nat.testBit_div_two_pow, hshift, Nat.testBit_div_two_pow]
  simp only [typed?, hvalue, hid, hhigh 16 (by decide), hhigh 22 (by decide), hhigh 24 (by decide),
    hhigh 25 (by decide), hhigh 29 (by decide)]

theorem ofParts_payloadPart (c : UInt16) (d : UInt32) : ofParts c (payloadPart d) = ofParts c d := by
  simp only [ofParts, typed?_payloadPart, payloadPart_payloadPart]

/-- What is read under an opcode is typed, or the opcode with the payload part of the word. -/
theorem ofParts_cases (c : UInt16) (d : UInt32) :
    (∃ o p, o.code = c ∧ typed? o d = some p ∧ ofParts c d = p) ∨ ofParts c d = unknown c (payloadPart d) := by
  rw [ofParts]
  cases hc : Opcode.ofCode? c with
  | none => exact .inr rfl
  | some o =>
    cases hp : typed? o d with
    | none => exact .inr (by rw [Option.bind_some, hp]; rfl)
    | some p => exact .inl ⟨o, p, Opcode.code_of_ofCode? hc, hp, by rw [Option.bind_some, hp]; rfl⟩

/-- A packet read under an opcode has that opcode and is not raw. -/
theorem command_of_typed? {o : Opcode} {d : UInt32} {p : Packet} (h : typed? o d = some p) :
    p.command = o.code ∧ ¬ p.IsUnknown := by
  cases o with
  | getStatus | status | motion | getOpenings =>
    simp only [typed?, Option.some.injEq] at h
    subst h
    exact ⟨rfl, id⟩
  | doorAction | light | lock =>
    simp only [typed?, Option.map_eq_some_iff] at h
    obtain ⟨_, -, rfl⟩ := h
    exact ⟨rfl, id⟩

theorem command_ofParts (c : UInt16) (d : UInt32) : (ofParts c d).command = c := by
  obtain ⟨o, p, ho, hp, h⟩ | h := ofParts_cases c d
  · rw [h, (command_of_typed? hp).1, ho]
  · rw [h]
    rfl

/-! ## Payloads -/

theorem toNat_payload_status (s : StatusReport) : (status s).payload.toNat =
    s.door.code * 0x100 + s.obstructed.toNat * 0x400000 + s.lock.toNat * 0x1000000 + s.light.toNat * 0x2000000 +
      s.learn.toNat * 0x20000000 := by
  have h1 := s.door.code_lt
  have h2 := s.obstructed.toNat_le
  have h3 := s.lock.toNat_le
  have h4 := s.light.toNat_le
  have h5 := s.learn.toNat_le
  rw [payload, UInt32.toNat_ofNat_of_lt']
  rw [UInt32.size]
  omega

theorem toNat_payload_doorAction (a : DoorAction) (pressed : Bool) (id : UInt8) :
    (doorAction a pressed id).payload.toNat = a.code * 0x100 + pressed.toNat * 0x10000 + id.toNat * 0x1000000 := by
  have h1 := a.code_lt
  have h2 := pressed.toNat_le
  have h3 : id.toNat < 2 ^ 8 := id.toNat_lt
  rw [payload, UInt32.toNat_ofNat_of_lt']
  rw [UInt32.size]
  omega

/-- The payload of a typed packet has no bit outside the mask. -/
theorem payloadPart_payload {p : Packet} (h : ¬ p.IsUnknown) : payloadPart p.payload = p.payload := by
  apply UInt32.toNat_inj.mp
  rw [toNat_payloadPart]
  cases p with
  | status s =>
    have hs := toNat_payload_status s
    have hc := s.door.code_lt
    omega
  | doorAction a pressed id =>
    have ha := toNat_payload_doorAction a pressed id
    have hc := a.code_lt
    have hb := pressed.toNat_le
    omega
  | light c pressed => cases c <;> cases pressed <;> rfl
  | lock c pressed => cases c <;> cases pressed <;> rfl
  | getStatus | getOpenings | motion => rfl
  | unknown c d => exact absurd trivial h

theorem payloadPart_payload_ofParts (c : UInt16) (d : UInt32) :
    payloadPart (ofParts c d).payload = (ofParts c d).payload := by
  obtain ⟨o, p, ho, hp, h⟩ | h := ofParts_cases c d
  · rw [h, payloadPart_payload (command_of_typed? hp).2]
  · rw [h]
    exact payloadPart_payloadPart d

/-! ## Round trip -/

theorem testBit_of_div_mod {n i : Nat} {b : Bool} (h : n / 2 ^ i % 2 = b.toNat) : n.testBit i = b := by
  rw [Nat.testBit_eq_decide_div_mod_eq, h]
  cases b <;> rfl

/-- A typed packet is read back from its opcode and its payload. -/
theorem ofParts_of_typed {p : Packet} (h : ¬ p.IsUnknown) : ofParts p.command p.payload = p := by
  cases p with
  | status s =>
    have hs := toNat_payload_status s
    have hc := s.door.code_lt
    have h2 := s.obstructed.toNat_le
    have h3 := s.lock.toNat_le
    have h4 := s.light.toNat_le
    have h5 := s.learn.toNat_le
    have hvalue : (status s).payload.toNat / 0x100 % 16 = s.door.code := by omega
    have ho : (status s).payload.toNat.testBit 22 = s.obstructed := testBit_of_div_mod (by omega)
    have hlock : (status s).payload.toNat.testBit 24 = s.lock := testBit_of_div_mod (by omega)
    have hlight : (status s).payload.toNat.testBit 25 = s.light := testBit_of_div_mod (by omega)
    have hlearn : (status s).payload.toNat.testBit 29 = s.learn := testBit_of_div_mod (by omega)
    simp [ofParts, command, typed?, hvalue, ho, hlock, hlight, hlearn]
  | doorAction a pressed id =>
    have ha := toNat_payload_doorAction a pressed id
    have hc := a.code_lt
    have hb := pressed.toNat_le
    have hvalue : (doorAction a pressed id).payload.toNat / 0x100 % 16 = a.code := by omega
    have hpressed : (doorAction a pressed id).payload.toNat.testBit 16 = pressed := testBit_of_div_mod (by omega)
    have hid : (doorAction a pressed id).payload.toNat / 0x1000000 = id.toNat := by omega
    simp [ofParts, command, typed?, hvalue, hpressed, hid]
  | light c pressed => cases c <;> cases pressed <;> rfl
  | lock c pressed => cases c <;> cases pressed <;> rfl
  | getStatus | getOpenings | motion => rfl
  | unknown c d => exact absurd trivial h

/-- A packet that was read is read again from its own opcode and payload. -/
theorem ofParts_parts_ofParts (c : UInt16) (d : UInt32) :
    ofParts (ofParts c d).command (ofParts c d).payload = ofParts c d := by
  obtain ⟨o, p, ho, hp, h⟩ | h := ofParts_cases c d
  · rw [h, ofParts_of_typed (command_of_typed? hp).2]
  · have hparts : ofParts (unknown c (payloadPart d)).command (unknown c (payloadPart d)).payload = ofParts c d :=
      ofParts_payloadPart c d
    rw [h, hparts, h]

end Packet

end DoorBridge
