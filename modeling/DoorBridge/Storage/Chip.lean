import DoorBridge.Storage.Items

/-!
# Storage.Chip — the store in the last 64 KiB of the flash chip

The chip can refuse to be read, written or erased.  A partition that was overwritten cannot be read or written until it
is erased.
-/

namespace DoorBridge

/-- The kinds of access that the chip refuses. -/
structure Refusals where
  read : Bool := false
  write : Bool := false
  erase : Bool := false
  deriving DecidableEq, Repr

structure ChipStore where
  /-- The last value stored under each key; empty if there is none. -/
  item : StorageKey → List UInt8 := fun _ => []
  refuses : Refusals := {}
  /-- Whether the partition was overwritten since its last erasure. -/
  corrupted : Bool := false
  /-- The unique id of the chip, if it can be read. -/
  uniqueId? : Option UInt64 := none

namespace ChipStore

/-- Storing an item reads the medium on the way. -/
instance : ItemMap ChipStore where
  fetch s key :=
    if s.refuses.read then .error .medium
    else if s.corrupted then .error .corrupted
    else .ok (some (s.item key))
  store s key bytes :=
    if s.refuses.read then .error .medium
    else if s.corrupted then .error .corrupted
    else if s.refuses.write then .error .medium
    else .ok { s with item := fun k => if k = key then bytes else s.item k }

/-- Whether a key can be read and holds something. -/
def holds (s : ChipStore) (key : StorageKey) : Bool := ItemMap.holds s key

def eraseAll (s : ChipStore) : Except StorageError ChipStore :=
  if s.refuses.erase then .error .flash else .ok { s with item := fun _ => [], corrupted := false }

/-- Overwrites the whole partition. -/
def overwrite (s : ChipStore) : ChipStore := { s with item := fun _ => [], corrupted := true }

def uniqueId (s : ChipStore) : Except StorageError UInt64 :=
  match s.uniqueId? with
  | some id => .ok id
  | none => .error .flash

end ChipStore

end DoorBridge
