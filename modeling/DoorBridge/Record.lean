import DoorBridge.Packet

/-!
# Record — the byte vocabulary of Security+ 1.0

The wall console polls the opener with single bytes, and the opener answers a status poll with one byte, so a
status record is a key byte followed by a value byte.  Button edges are records of one byte.

| byte      | meaning               |
|-----------|-----------------------|
| 0x30/0x31 | door press / release  |
| 0x32/0x33 | light press / release |
| 0x34/0x35 | lock press / release  |
| 0x38 v    | door status           |
| 0x39 v    | obstruction status    |
| 0x3a v    | light and lock status |
-/

namespace DoorBridge

inductive RecordError where
  /-- A byte outside the vocabulary. -/
  | noise
  /-- A status value that fails its check. -/
  | invalidStatus
  /-- A status record given up half way. -/
  | timeout
  deriving DecidableEq, Repr

def RecordError.name : RecordError → String
  | noise => "Noise" | invalidStatus => "InvalidStatus" | timeout => "Timeout"

inductive Button where
  | doorPress | doorRelease | lightPress | lightRelease | lockPress | lockRelease
  deriving DecidableEq, Repr

namespace Button

def byte : Button → UInt8
  | doorPress => 0x30 | doorRelease => 0x31 | lightPress => 0x32 | lightRelease => 0x33
  | lockPress => 0x34 | lockRelease => 0x35

def all : List Button := [doorPress, doorRelease, lightPress, lightRelease, lockPress, lockRelease]

def ofByte? (b : UInt8) : Option Button := all.find? (·.byte = b)

/-- The button edge that stands for a packet, if there is one. -/
def ofPacket? : Packet → Option Button
  | .doorAction _ pressed _ => some (if pressed then doorPress else doorRelease)
  | .light _ pressed => some (if pressed then lightPress else lightRelease)
  | .lock _ pressed => some (if pressed then lockPress else lockRelease)
  | _ => none

/-- Whether the edge is the press of its button. -/
def isPress : Button → Bool
  | doorPress | lightPress | lockPress => true
  | _ => false

end Button

inductive RecordStatus where
  | door (state : DoorState)
  /-- The raw obstruction byte. -/
  | obstruction (value : UInt8)
  | lightLock (light lock : Bool)
  deriving DecidableEq, Repr

/-- The keys that open a status record. -/
inductive RecordKey where
  | door | obstruction | lightLock
  deriving DecidableEq, Repr

namespace RecordKey

def byte : RecordKey → UInt8
  | door => 0x38 | obstruction => 0x39 | lightLock => 0x3a

def all : List RecordKey := [door, obstruction, lightLock]

def ofByte? (b : UInt8) : Option RecordKey := all.find? (·.byte = b)

end RecordKey

/-- The door position in the low three bits of a door status. -/
def doorOfStatus (value : UInt8) : DoorState :=
  match value.toNat % 8 with
  | 0 | 6 => .stopped
  | 1 => .opening
  | 2 => .opened
  | 4 => .closing
  | 5 => .closed
  | _ => .unknown

/-- Reads the value byte that followed a key.  The high nibble must be one that openers send. -/
def RecordStatus.decode (key : RecordKey) (value : UInt8) : Except RecordError RecordStatus :=
  match key with
  | .door =>
    if value.toNat / 16 ∈ [0x0, 0x5, 0xb] then .ok (.door (doorOfStatus value)) else .error .invalidStatus
  | .obstruction => .ok (.obstruction value)
  | .lightLock =>
    if value.toNat / 16 = 0x5 then .ok (.lightLock (value.toNat.testBit 2) (!value.toNat.testBit 3))
    else .error .invalidStatus

/-- Reads a key byte with its value byte; a byte that is no key is noise. -/
def RecordStatus.ofBytes (key value : UInt8) : Except RecordError RecordStatus :=
  match RecordKey.ofByte? key with
  | some key => decode key value
  | none => .error .noise

inductive Record where
  | button (b : Button)
  /-- A record of one byte without a known meaning. -/
  | other (byte : UInt8)
  | status (s : RecordStatus)
  deriving DecidableEq, Repr

end DoorBridge
