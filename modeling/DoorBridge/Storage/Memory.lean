import DoorBridge.Storage

/-!
# Storage.Memory — a store in memory whose operations can be made to fail

Each operation on each key can carry a fault, which stays until it is replaced.  The store counts its successful
writes.
-/

namespace DoorBridge

inductive Access where
  | read | write | remove
  deriving DecidableEq, Repr

structure MemoryStore where
  value? : StorageKey → Option (List UInt8) := fun _ => none
  fault? : StorageKey → Access → Option StorageError := fun _ _ => none
  writes : Nat := 0

namespace MemoryStore

/-- Sets or drops a record, whatever the faults say. -/
def put (s : MemoryStore) (key : StorageKey) (value : Option (List UInt8)) : MemoryStore :=
  { s with value? := fun k => if k = key then value else s.value? k }

/-- Sets or clears the fault of one access to one key. -/
def setFault (s : MemoryStore) (key : StorageKey) (access : Access) (fault : Option StorageError) :
    MemoryStore :=
  { s with fault? := fun k a => if k = key ∧ a = access then fault else s.fault? k a }

instance : Storage MemoryStore where
  read s key room :=
    match s.fault? key .read, s.value? key with
    | some cause, _ => .error cause
    | none, none => .error .notFound
    | none, some bytes => if bytes.length ≤ room then .ok bytes else .error .bufferTooSmall
  write s key bytes :=
    match s.fault? key .write with
    | some cause => .error cause
    | none => .ok { s.put key (some bytes) with writes := s.writes + 1 }
  remove s key :=
    match s.fault? key .remove, s.value? key with
    | some cause, _ => .error cause
    | none, none => .error .notFound
    | none, some _ => .ok (s.put key none)

end MemoryStore

end DoorBridge
