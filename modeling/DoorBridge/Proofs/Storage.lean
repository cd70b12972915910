import DoorBridge.Storage.Memory
import DoorBridge.Proofs.Bits

/-!
# Proofs.Storage — what reads and writes do to the records of a store

* `readWord_of_value?`, `readWord_of_missing`, `readWord_of_fault`: what reading a word comes to.
* `tryWrite` and `tryRemove` are the store after a write and a removal that may have failed; the lemmas `value?_*` and
  `fault?_*` say what it holds.
-/

namespace DoorBridge

theorem wordOfBytes?_wordBytes (w : UInt32) : wordOfBytes? (wordBytes w) = some w := by
  have hw := w.toNat_lt
  have hbytes : wordBytes w = [.ofNat w.toNat, .ofNat (w.toNat >>> 8), .ofNat (w.toNat >>> 16),
      .ofNat (w.toNat >>> 24)] := rfl
  have hbyte (n : Nat) : (UInt8.ofNat n).toNat = n % 256 := UInt8.toNat_ofNat'
  rw [wordOfBytes?, if_pos (show (wordBytes w).length = 4 from rfl), hbytes]
  simp only [List.foldr, hbyte, Nat.shiftRight_eq_div_pow]
  rw [Option.some_inj, ← UInt32.toNat_inj, UInt32.toNat_ofNat']
  omega

namespace MemoryStore

/-- No access to a record fails. -/
def Reliable (s : MemoryStore) (key : StorageKey) : Prop := ∀ access, s.fault? key access = none

/-- No access to any record fails. -/
def Works (s : MemoryStore) : Prop := ∀ key, s.Reliable key

theorem Works.of_faults {s s' : MemoryStore} (h : s.Works) (hsame : s'.fault? = s.fault?) : s'.Works :=
  fun key access => (congrFun (congrFun hsame key) access).trans (h key access)

variable {s s' : MemoryStore} {key other : StorageKey} {bytes : List UInt8}

/-- A readable record that holds a word is read as that word. -/
theorem readWord_of_value? {w : UInt32} (h : s.fault? key .read = none) (hv : s.value? key = some (wordBytes w)) :
    readWord s key = .ok (some w) := by
  have hread : Storage.read s key 4 = .ok (wordBytes w) := by
    simp only [Storage.read]
    rw [h, hv]
    exact if_pos (show (wordBytes w).length ≤ 4 from Nat.le_refl 4)
  rw [readWord, hread]
  dsimp only
  rw [wordOfBytes?_wordBytes]

theorem readWord_of_missing (h : s.fault? key .read = none) (hv : s.value? key = none) :
    readWord s key = .ok none := by
  have hread : Storage.read s key 4 = .error .notFound := by
    simp only [Storage.read]
    rw [h, hv]
  rw [readWord, hread]

/-- A read that fails gives no word. -/
theorem readWord_of_fault {cause : StorageError} (h : s.fault? key .read = some cause) :
    readWord s key = .ok none ∨ ∃ e, readWord s key = .error e := by
  have hread : Storage.read s key 4 = .error cause := by
    simp only [Storage.read]
    rw [h]
  rw [readWord, hread]
  cases cause with
  | notFound => exact .inl rfl
  | _ => exact .inr ⟨_, rfl⟩

/-- A reliable record that holds a word is read as that word. -/
theorem readWord_wordBytes {w : UInt32} (h : s.Reliable key) (hv : s.value? key = some (wordBytes w)) :
    readWord s key = .ok (some w) := readWord_of_value? (h .read) hv

theorem readWord_congr (h : s.Reliable key) (h' : s'.Reliable key) (hv : s'.value? key = s.value? key) :
    readWord s' key = readWord s key := by
  have hread : Storage.read s' key 4 = Storage.read s key 4 := by
    simp only [Storage.read]
    rw [h .read, h' .read, hv]
  rw [readWord, readWord, hread]

/-! ## Writes that may fail -/

/-- The store after a write was tried. -/
def tryWrite (s : MemoryStore) (key : StorageKey) (bytes : List UInt8) : MemoryStore :=
  match Storage.write s key bytes with
  | .ok s' => s'
  | .error _ => s

@[simp] theorem fault?_tryWrite (s : MemoryStore) (key : StorageKey) (bytes : List UInt8) :
    (s.tryWrite key bytes).fault? = s.fault? := by
  simp only [tryWrite, Storage.write]
  cases s.fault? key .write <;> rfl

theorem value?_tryWrite (s : MemoryStore) (key : StorageKey) (bytes : List UInt8) :
    (s.tryWrite key bytes).value? key = if s.fault? key .write = none then some bytes else s.value? key := by
  simp only [tryWrite, Storage.write]
  cases s.fault? key .write with
  | none => exact if_pos rfl
  | some cause => rfl

theorem value?_tryWrite_of_ne (h : key ≠ other) : (s.tryWrite other bytes).value? key = s.value? key := by
  simp only [tryWrite, Storage.write]
  cases s.fault? other .write with
  | none => exact if_neg h
  | some cause => rfl

theorem writes_tryWrite (s : MemoryStore) (key : StorageKey) (bytes : List UInt8) :
    (s.tryWrite key bytes).writes = s.writes + if s.fault? key .write = none then 1 else 0 := by
  simp only [tryWrite, Storage.write]
  cases s.fault? key .write <;> rfl

/-- The store after a removal, which leaves it as it was if it fails. -/
def tryRemove (s : MemoryStore) (key : StorageKey) : MemoryStore :=
  match Storage.remove s key with
  | .ok s' => s'
  | .error _ => s

@[simp] theorem fault?_tryRemove (s : MemoryStore) (key : StorageKey) : (s.tryRemove key).fault? = s.fault? := by
  simp only [tryRemove, Storage.remove]
  cases s.fault? key .remove <;> cases s.value? key <;> rfl

/-- A record that can be removed is gone, and no other record changes. -/
theorem value?_tryRemove (s : MemoryStore) (key other : StorageKey) : (s.tryRemove other).value? key =
    if key = other ∧ s.fault? other .remove = none then none else s.value? key := by
  simp only [tryRemove, Storage.remove]
  cases s.fault? other .remove with
  | some cause => simp
  | none =>
    cases hv : s.value? other with
    | none =>
      by_cases hkey : key = other
      · simp [hkey, hv]
      · simp [hkey]
    | some bytes => simp [put]

theorem fault?_foldl_tryRemove (s : MemoryStore) (keys : List StorageKey) :
    (keys.foldl tryRemove s).fault? = s.fault? := by
  induction keys generalizing s with
  | nil => rfl
  | cons key keys ih => rw [List.foldl_cons, ih, fault?_tryRemove]

/-- After some records were removed in turn, those of them that can be removed are gone, and no others changed. -/
theorem value?_foldl_tryRemove (s : MemoryStore) (keys : List StorageKey) (key : StorageKey) :
    (keys.foldl tryRemove s).value? key =
      if key ∈ keys ∧ s.fault? key .remove = none then none else s.value? key := by
  induction keys generalizing s with
  | nil => simp
  | cons other keys ih =>
    rw [List.foldl_cons, ih, fault?_tryRemove, value?_tryRemove]
    by_cases hkey : key = other
    · subst hkey
      by_cases hfault : s.fault? key .remove = none <;> simp [hfault]
    · simp [hkey]

/-! ## Faults that come and go -/

theorem fault?_setFault (s : MemoryStore) (key other : StorageKey) (access access' : Access)
    (fault : Option StorageError) : (s.setFault key access fault).fault? other access' =
      if other = key ∧ access' = access then fault else s.fault? other access' := rfl

@[simp] theorem value?_setFault (s : MemoryStore) (key : StorageKey) (access : Access) (fault : Option StorageError) :
    (s.setFault key access fault).value? = s.value? := rfl

@[simp] theorem writes_setFault (s : MemoryStore) (key : StorageKey) (access : Access) (fault : Option StorageError) :
    (s.setFault key access fault).writes = s.writes := rfl

/-- Faults of writes do not matter to reads. -/
@[simp] theorem readWord_setFault_write (s : MemoryStore) (key other : StorageKey) (fault : Option StorageError) :
    readWord (s.setFault key .write fault) other = readWord s other := by
  have hread : Storage.read (s.setFault key .write fault) other 4 = Storage.read s other 4 := by
    simp [Storage.read, fault?_setFault]
  rw [readWord, readWord, hread]

end MemoryStore

theorem wordBytes_inj {v w : UInt32} : wordBytes v = wordBytes w ↔ v = w := by
  constructor
  · intro h
    have hread := congrArg wordOfBytes? h
    rwa [wordOfBytes?_wordBytes, wordOfBytes?_wordBytes, Option.some_inj] at hread
  · exact congrArg wordBytes

end DoorBridge
