import DoorBridge.Bits

/-!
# Line — how bytes look on the door bus

Bytes travel as ten levels each: a start bit, eight data bits with the low bit first, a stop bit.  On the door bus
every level is inverted.  `LineSettings` holds rate and polarity, with the two times derived from the rate.
-/

namespace DoorBridge

/-- Rate and polarity of a serial line. -/
structure LineSettings where
  baud : Nat
  /-- Whether a logical one is a low level. -/
  invert : Bool
  baud_pos : 0 < baud := by decide
  deriving DecidableEq

namespace LineSettings

/-- A line at a given rate, if it is one. -/
def ofBaud? (baud : Nat) (invert : Bool) : Option LineSettings :=
  if h : 0 < baud then some ⟨baud, invert, h⟩ else none

/-- The inverted door bus at 9600 baud. -/
def fast : LineSettings := { baud := 9600, invert := true }

/-- The inverted door bus at 1200 baud. -/
def slow : LineSettings := { baud := 1200, invert := true }

instance : Inhabited LineSettings := ⟨fast⟩

/-- Length of one bit in microseconds, rounded up. -/
def bitTime (s : LineSettings) : Nat := (1000000 + s.baud - 1) / s.baud

/-- Silence in milliseconds after which a byte without a closing edge is complete. -/
def byteTimeout (s : LineSettings) : Nat := 10000 / s.baud + 1

/-- The level of an idle line: a logical one. -/
def idleLevel (s : LineSettings) : Bool := !s.invert

end LineSettings

def dataBits (byte : UInt8) : List Bool := (List.range 8).map byte.toNat.testBit

/-- The byte whose bits, low bit first, are the row. -/
def byteOfData (bits : List Bool) : UInt8 := .ofNat (bits.foldr (fun b v => b.toNat + 2 * v) 0)

/-- The ten levels of a byte on the line. -/
def frameLevels (byte : UInt8) (invert : Bool) : List Bool :=
  (false :: dataBits byte ++ [true]).map (· ^^ invert)

end DoorBridge
