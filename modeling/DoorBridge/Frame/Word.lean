import DoorBridge.Frame.Half

/-!
# Frame.Word — the three numbers a frame carries

A frame carries a rolling counter below 2^28, a fixed value below 2^40 and a 32-bit data word whose bits 12–15
are a parity nibble.  `Word.encode` and `Word.decode` pass between these numbers and the 19 bytes.
-/

namespace DoorBridge

/-- A decoded frame before interpretation. -/
structure Word where
  rolling : Nat
  fixed : Nat
  data : UInt32
  deriving DecidableEq, Repr

/-- The exclusive or of the eight nibbles of a word. -/
def nibbleSum (word : Nat) : Nat :=
  (List.range 8).foldl (fun sum i => sum ^^^ (word >>> (4 * i) % 16)) 0

/-- A data word with bits 12–15 cleared. -/
def clearParity (data : UInt32) : Nat := data.toNat / 0x10000 * 0x10000 + data.toNat % 0x1000

/-- The data word with its parity nibble: bits 32–35 of the fixed value and every other nibble, added bit by
bit. -/
def withParity (fixed : Nat) (data : UInt32) : UInt32 :=
  let cleared := clearParity data
  .ofNat (cleared + ((fixed / 0x100000000 % 16) ^^^ nibbleSum cleared) * 0x1000)

/-- The frame-type bits of the first and the second half. -/
def firstHeader : List Bool := [false, false]

@[inherit_doc firstHeader] def secondHeader : List Bool := [false, true]

namespace Word

def halves (w : Word) : Half × Half :=
  let digits := counterHalves w.rolling
  let fixed := bitsOf 40 w.fixed
  let data := bitsOf 32 (withParity w.fixed w.data).toNat
  (⟨digits.1, fixed.take 20, data.take 16⟩, ⟨digits.2, fixed.drop 20, data.drop 16⟩)

/-- The frame of a word.  The parity nibble is computed here, whatever the word holds there. -/
def encode (w : Word) : Except CodecError Frame :=
  if w.rolling < counterBound ∧ w.fixed < 0x10000000000 then
    .ok (.ofHalves (w.halves.1.encode firstHeader) (w.halves.2.encode secondHeader))
  else .error .encodingRange

/-- Reads a frame: preamble, each half in turn, parity, and last the counter digits. -/
def decode (f : Frame) : Except FrameError Word :=
  if f.bytes.take 3 ≠ preamble then .error .badPreamble
  else do
    let first ← Half.decode firstHeader f.firstHalf
    let second ← Half.decode secondHeader f.secondHalf
    let fixed := ofBits (first.fixed ++ second.fixed)
    let data : UInt32 := .ofNat (ofBits (first.data ++ second.data))
    if withParity fixed data ≠ data then .error .parity
    else
      let rolling ← counterOfHalves first.digits second.digits
      .ok ⟨rolling, fixed, data⟩

end Word

end DoorBridge
