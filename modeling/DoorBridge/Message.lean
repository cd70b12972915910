import DoorBridge.Packet
import DoorBridge.Frame.Word

/-!
# Message — a packet with the counter and the station id it travels with

The high nibble of a packet's opcode and the sending station's id form the fixed value of the frame; the low byte
of the opcode shares the data word with the payload.
-/

namespace DoorBridge

/-- A packet with the rolling counter at the time of sending and the id of the sender. -/
structure Message where
  packet : Packet
  rolling : Nat
  remoteId : UInt32
  deriving DecidableEq, Repr

namespace Message

/-- A packet fits a frame if its opcode has 12 bits and its payload leaves the opcode byte and the parity nibble
clear. -/
def Fits (p : Packet) : Prop := p.command.toNat ≤ 0xfff ∧ payloadPart p.payload = p.payload

instance (p : Packet) : Decidable (Fits p) := inferInstanceAs (Decidable (_ ∧ _))

def word (m : Message) : Word where
  rolling := m.rolling
  fixed := m.packet.command.toNat / 0x100 % 16 * 0x100000000 + m.remoteId.toNat
  data := .ofNat (m.packet.payload.toNat + m.packet.command.toNat % 0x100)

def encode (m : Message) : Except CodecError Frame :=
  if Fits m.packet then m.word.encode else .error .encodingRange

def ofWord (w : Word) : Message where
  packet := .ofParts (.ofNat (w.fixed / 0x100000000 % 16 * 0x100 + w.data.toNat % 0x100)) w.data
  rolling := w.rolling
  remoteId := .ofNat w.fixed

def decode (f : Frame) : Except CodecError Message :=
  match Word.decode f with
  | .ok w => .ok (ofWord w)
  | .error cause => .error (.framing cause)

end Message

end DoorBridge
