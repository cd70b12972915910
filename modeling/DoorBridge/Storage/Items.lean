import DoorBridge.Storage

/-!
# Storage.Items — records in a map of items

Flash memory wears out evenly if items are only ever appended, so the map gives back the last item that was stored under
a key and cannot take one out.  A record is removed by storing an empty one in its place, and an empty record reads as
missing.
-/

namespace DoorBridge

def maxRecordSize : Nat := 1024

/-- Why an access to the items failed. -/
inductive ItemError where
  /-- The medium refused it. -/
  | medium
  | full
  | corrupted
  /-- Something does not fit: the item, the room for it, or its form. -/
  | misfit
  deriving DecidableEq, Repr

class ItemMap (μ : Type) where
  /-- The item that was stored last under a key, if there is one. -/
  fetch : μ → StorageKey → Except ItemError (Option (List UInt8))
  /-- Stores an item in the place of the last one. -/
  store : μ → StorageKey → List UInt8 → Except ItemError μ

namespace ItemMap

def fetchFailure : ItemError → StorageError
  | .corrupted => .corrupted
  | _ => .storage

def storeFailure : ItemError → StorageError
  | .full => .full
  | .medium => .flash
  | _ => .storage

variable {μ : Type} [ItemMap μ]

/-- Whether a record can be read and is not empty. -/
def holds (m : μ) (key : StorageKey) : Bool :=
  match fetch m key with
  | .ok (some bytes) => !bytes.isEmpty
  | _ => false

def write (m : μ) (key : StorageKey) (bytes : List UInt8) : Except StorageError μ :=
  if bytes.length ≤ maxRecordSize then (store m key bytes).mapError storeFailure else .error .bufferTooSmall

instance : Storage μ where
  read m key room :=
    match fetch m key with
    | .error cause => .error (fetchFailure cause)
    | .ok none | .ok (some []) => .error .notFound
    | .ok (some bytes) => if bytes.length ≤ room then .ok bytes else .error .bufferTooSmall
  write := write
  remove m key := if holds m key then write m key [] else .error .notFound

end ItemMap

end DoorBridge
