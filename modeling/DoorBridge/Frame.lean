import DoorBridge.Bits

/-!
# Frame — the 19 bytes of a Security+ 2.0 transmission

A frame is the preamble `55 01 00` followed by two halves of 64 bits.  `FrameError` names every reason to reject
one, and `CodecError` adds the one reason not to build one.
-/

namespace DoorBridge

inductive FrameError where
  /-- The frame does not start with the preamble. -/
  | badPreamble
  /-- A half carries the wrong frame-type bits. -/
  | badHeader
  /-- Two bits that should hold a ternary digit hold `11`, or the digits spell too large a counter. -/
  | invalidTrit
  /-- The indicator inside a half differs from the one at its head. -/
  | indicatorMismatch
  /-- The parity nibble of the data word is wrong. -/
  | parity
  /-- The bytes of the frame lay too far apart. -/
  | timeout
  deriving DecidableEq, Repr

/-- Why a message cannot be read from or written to a frame. -/
inductive CodecError where
  | framing (cause : FrameError)
  /-- A field does not fit its width. -/
  | encodingRange
  deriving DecidableEq, Repr

def FrameError.name : FrameError → String
  | badPreamble => "BadPreamble" | badHeader => "BadHeader" | invalidTrit => "InvalidTrit"
  | indicatorMismatch => "IndicatorMismatch" | parity => "Parity" | timeout => "Timeout"

def CodecError.text : CodecError → String
  | framing cause => s!"Framing({cause.name})"
  | encodingRange => "EncodingRange"

def preamble : List UInt8 := [0x55, 0x01, 0x00]

/-- A frame is a row of 19 bytes. -/
structure Frame where
  bytes : List UInt8
  length_bytes : bytes.length = 19

namespace Frame

instance : DecidableEq Frame := fun a b =>
  decidable_of_iff (a.bytes = b.bytes) ⟨fun h => by cases a; cases b; cases h; rfl, congrArg bytes⟩

/-- A row of bytes as a frame, if it has the length of one. -/
def ofBytes? (bytes : List UInt8) : Option Frame :=
  if h : bytes.length = 19 then some ⟨bytes, h⟩ else none

/-- The frame whose two halves are given as 64 bits each. -/
def ofHalves (first second : List Bool) : Frame where
  bytes := preamble ++ bytesOf 16 (first ++ second)
  length_bytes := by simp [preamble]

def firstHalf (f : Frame) : List Bool := bitsOfBytes ((f.bytes.drop 3).take 8)

def secondHalf (f : Frame) : List Bool := bitsOfBytes (f.bytes.drop 11)

end Frame

end DoorBridge
