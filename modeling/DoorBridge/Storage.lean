import DoorBridge.Bits

/-!
# Storage — small records that survive a power loss

The bridge keeps a handful of records, one per `StorageKey`.  `Storage` is the interface that the engine uses; a
failed write or removal leaves the store as it was, so the operations return the new store only on success.
Counters are stored as four bytes, low byte first (`readWord`, `writeWord`).
-/

namespace DoorBridge

inductive StorageKey where
  /-- The station id, four bytes. -/
  | idCode
  /-- The last saved rolling counter, four bytes. -/
  | rollingCode
  /-- Whether a motion sensor was seen on the bus, one byte. -/
  | hasMotion
  /-- The settings in binary form. -/
  | config
  /-- The settings as text. -/
  | configToml
  deriving DecidableEq, Repr

inductive StorageError where
  | flash | storage | notFound | bufferTooSmall | corrupted | full
  deriving DecidableEq, Repr

namespace StorageKey

def code : StorageKey → Nat
  | idCode => 0 | rollingCode => 1 | hasMotion => 2 | config => 3 | configToml => 4

def all : List StorageKey := [idCode, rollingCode, hasMotion, config, configToml]

def ofCode? (c : Nat) : Option StorageKey := all.find? (·.code = c)

def name : StorageKey → String
  | idCode => "IdCode" | rollingCode => "RollingCode" | hasMotion => "HasMotion" | config => "Config"
  | configToml => "ConfigToml"

end StorageKey

def StorageError.all : List StorageError := [.flash, .storage, .notFound, .bufferTooSmall, .corrupted, .full]

def StorageError.name : StorageError → String
  | flash => "Flash" | storage => "Storage" | notFound => "NotFound" | bufferTooSmall => "BufferTooSmall"
  | corrupted => "Corrupted" | full => "Full"

class Storage (σ : Type) where
  /-- Reads a record into a buffer of a given size. -/
  read : σ → StorageKey → Nat → Except StorageError (List UInt8)
  write : σ → StorageKey → List UInt8 → Except StorageError σ
  /-- Removes a record; one that is not there is reported as not found. -/
  remove : σ → StorageKey → Except StorageError σ

/-- The four bytes of a word, low byte first. -/
def wordBytes (w : UInt32) : List UInt8 := (List.range 4).map fun i => .ofNat (w.toNat >>> (8 * i))

/-- The word written by four bytes, if there are four. -/
def wordOfBytes? (bytes : List UInt8) : Option UInt32 :=
  if bytes.length = 4 then some (.ofNat (bytes.foldr (fun b v => b.toNat + 256 * v) 0)) else none

section Words

variable {σ : Type} [Storage σ]

/-- Reads a word; a record that was never written is none, one of another length is corrupted. -/
def readWord (store : σ) (key : StorageKey) : Except StorageError (Option UInt32) :=
  match Storage.read store key 4 with
  | .ok bytes =>
    match wordOfBytes? bytes with
    | some w => .ok (some w)
    | none => .error .corrupted
  | .error .notFound => .ok none
  | .error cause => .error cause

def writeWord (store : σ) (key : StorageKey) (w : UInt32) : Except StorageError σ :=
  Storage.write store key (wordBytes w)

end Words

end DoorBridge
