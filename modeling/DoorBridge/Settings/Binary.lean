import DoorBridge.Settings

/-!
# Settings.Binary — settings as a short record of bytes

The fields stand in a fixed order.  Bytes and flags take one byte each; the wider number and the choices are
written seven bits at a time, low bits first, with the high bit of a byte set when more follow.
-/

namespace DoorBridge

def maxSettingsSize : Nat := 32

/-- A number written seven bits at a time, in at most `room` bytes. -/
def varint : Nat → Nat → List UInt8
  | 0, _ => []
  | room + 1, n => if n < 128 then [.ofNat n] else .ofNat (n % 128 + 128) :: varint room (n / 128)

/-- Reads a number of at most 32 bits in at most `room` bytes, the last of which holds four bits. -/
def readVarint : Nat → List UInt8 → Option (Nat × List UInt8)
  | 0, _ => none
  | _, [] => none
  | room + 1, b :: rest =>
    if b.toNat < 128 then
      if room = 0 ∧ 15 < b.toNat then none else some (b.toNat, rest)
    else (readVarint room rest).map fun (high, rest) => (b.toNat % 128 + 128 * high, rest)

/-- Bytes that a 32-bit number takes at most. -/
def varintRoom : Nat := 5

/-- A flag takes one byte, zero or one. -/
def readFlag : List UInt8 → Option (Bool × List UInt8)
  | b :: rest => if b = 0 then some (false, rest) else if b = 1 then some (true, rest) else none
  | [] => none

def readByte : List UInt8 → Option (UInt8 × List UInt8)
  | b :: rest => some (b, rest)
  | [] => none

/-- A choice is the number of its place in the row of choices. -/
def readChoice {α : Type} (choices : List α) (bytes : List UInt8) : Option (α × List UInt8) := do
  let (place, rest) ← readVarint varintRoom bytes
  let choice ← choices[place]?
  some (choice, rest)

def Security.choices : List Security := [.plus1, .plus2]

def LedIdle.choices : List LedIdle := [.off, .on, .disabled]

/-- The place of a choice in its row. -/
def Security.place : Security → Nat
  | plus1 => 0 | plus2 => 1

@[inherit_doc Security.place] def LedIdle.place : LedIdle → Nat
  | off => 0 | on => 1 | disabled => 2

namespace Settings

def encode (s : Settings) : List UInt8 :=
  [s.version] ++ varint varintRoom s.security.place ++ [s.ttcSeconds, s.motionTriggers.bits, .ofNat s.debounce.toNat]
    ++ varint varintRoom s.recoveryWindow.toNat ++ varint varintRoom s.ledIdle.place

/-- The record of the settings, if it fits a buffer. -/
def toBytes (s : Settings) (room : Nat) : Except SettingsError (List UInt8) :=
  if s.encode.length ≤ room then .ok s.encode else .error .serialize

/-- Reads the fields of a record in their order; bytes after the last field are ignored. -/
def decodeFields (bytes : List UInt8) : Option Settings := do
  let (version, rest) ← readByte bytes
  let (security, rest) ← readChoice Security.choices rest
  let (ttcSeconds, rest) ← readByte rest
  let (triggers, rest) ← readByte rest
  let (debounce, rest) ← readFlag rest
  let (window, rest) ← readVarint varintRoom rest
  let (ledIdle, _) ← readChoice LedIdle.choices rest
  some ⟨version, security, ttcSeconds, ⟨triggers⟩, debounce, .ofNat window, ledIdle⟩

/-- Reads a record; one of another version is refused. -/
def ofBytes (bytes : List UInt8) : Except SettingsError Settings :=
  match decodeFields bytes with
  | none => .error .deserialize
  | some s => if s.version = settingsVersion then .ok s else .error (.versionMismatch s.version)

end Settings

end DoorBridge
