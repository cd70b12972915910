import DoorBridge.Line
import DoorBridge.Storage

/-!
# Settings — what the owner of the bridge can choose

Settings are stored as text or as a short binary record; both decode to `Settings`.
-/

namespace DoorBridge

/-- Protocol generation of the opener. -/
inductive Security where
  /-- Security+ 1.0: single bytes at 1200 baud. -/
  | plus1
  /-- Security+ 2.0: rolling-code frames at 9600 baud. -/
  | plus2
  deriving DecidableEq, Repr

namespace Security

def line : Security → LineSettings
  | plus1 => .slow
  | plus2 => .fast

def number : Security → Nat
  | plus1 => 1
  | plus2 => 2

def name : Security → String
  | plus1 => "Sec1" | plus2 => "Sec2"

end Security

inductive MotionTrigger where
  | motion | obstruction | lightKey | doorKey | lockKey
  deriving DecidableEq, Repr

namespace MotionTrigger

/-- The bit that stands for a trigger. -/
def index : MotionTrigger → Nat
  | motion => 0 | obstruction => 1 | lightKey => 2 | doorKey => 3 | lockKey => 4

def mask (t : MotionTrigger) : UInt8 := .ofNat (1 <<< t.index)

def all : List MotionTrigger := [motion, obstruction, lightKey, doorKey, lockKey]

/-- The key of a trigger in settings text. -/
def key : MotionTrigger → String
  | motion => "motion" | obstruction => "obstruction" | lightKey => "light_key" | doorKey => "door_key"
  | lockKey => "lock_key"

end MotionTrigger

/-- A set of triggers, held as the byte that is stored. -/
structure MotionTriggers where
  bits : UInt8 := 0
  deriving DecidableEq, Repr

namespace MotionTriggers

/-- A set from its byte; bits that stand for no trigger are dropped. -/
def ofBits (bits : UInt8) : MotionTriggers := ⟨bits &&& 0x1f⟩

def contains (s : MotionTriggers) (t : MotionTrigger) : Bool := s.bits &&& t.mask != 0

def set (s : MotionTriggers) (t : MotionTrigger) (enabled : Bool) : MotionTriggers :=
  ⟨if enabled then s.bits ||| t.mask else s.bits &&& ~~~t.mask⟩

/-- Whether the byte holds a trigger and nothing else. -/
def only (s : MotionTriggers) (t : MotionTrigger) : Bool := s.bits == t.mask

end MotionTriggers

/-- What the activity light shows at rest. -/
inductive LedIdle where
  | off | on
  /-- The light is never driven. -/
  | disabled
  deriving DecidableEq, Repr

def LedIdle.name : LedIdle → String
  | off => "Off" | on => "On" | disabled => "Disabled"

/-- The version of the binary record. -/
def settingsVersion : UInt8 := 1

structure Settings where
  version : UInt8 := settingsVersion
  security : Security := .plus2
  /-- Length of the warning before a close, in seconds; zero closes at once. -/
  ttcSeconds : UInt8 := 0
  motionTriggers : MotionTriggers := {}
  /-- Whether a Security+ 1.0 door report has to come twice in a row. -/
  debounce : Bool := true
  /-- Window of the recovery press sequence, in milliseconds. -/
  recoveryWindow : UInt32 := 3000
  ledIdle : LedIdle := .off
  deriving DecidableEq, Repr

inductive ParseError where
  | invalidSection | unknownKey | invalidValue
  deriving DecidableEq, Repr

def ParseError.name : ParseError → String
  | invalidSection => "InvalidSection" | unknownKey => "UnknownKey" | invalidValue => "InvalidValue"

inductive SettingsError where
  | storage (cause : StorageError)
  /-- The binary record does not decode. -/
  | deserialize
  /-- The binary record does not fit its buffer. -/
  | serialize
  | parse (cause : ParseError)
  | invalidUtf8
  /-- The binary record has another version. -/
  | versionMismatch (found : UInt8)
  deriving DecidableEq, Repr

def SettingsError.text : SettingsError → String
  | storage cause => s!"Flash({cause.name})"
  | deserialize => "Deserialize"
  | serialize => "Serialize"
  | parse cause => s!"TomlParse({cause.name})"
  | invalidUtf8 => "InvalidUtf8"
  | versionMismatch _ => "VersionMismatch"

end DoorBridge
