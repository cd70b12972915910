import DoorBridge.Proofs.Identity

/-!
# Proofs.Restore — what a boot leaves of the identity when storage fails

A boot that cannot read a record goes on with a substitute, a new id or the counter zero, and writes it back.

* `id_establishId`, `id_restore`, `counter_restore`: the two records after a boot, for every pattern of faults.
* `faults_keep_identity_iff`: a good record survives unless it cannot be read and can be written.
* `identity_lost_to_read_faults`: a store that loses both records to failing reads.
-/

namespace DoorBridge

namespace Identity

variable {s : MemoryStore}

theorem deriveId_ne_zero (entropy : UInt32) : deriveId entropy ≠ 0 := by
  intro h
  have hval : (deriveId entropy).toNat = 0 := by rw [h]; rfl
  rw [deriveId, UInt32.toNat_ofNat'] at hval
  omega

/-! ## What is found -/

theorem loadId_of_fault {cause : StorageError} (h : s.fault? .idCode .read = some cause) : (loadId s).1 = none := by
  rw [loadId]
  rcases MemoryStore.readWord_of_fault h with hnone | ⟨e, herror⟩
  · rw [hnone]
    rfl
  · rw [herror]

/-- A readable id other than zero is found. -/
theorem loadId_of_value? {id : UInt32} (h : s.fault? .idCode .read = none)
    (hv : s.value? .idCode = some (wordBytes id)) (hid : id ≠ 0) : (loadId s).1 = some id := by
  rw [loadId, MemoryStore.readWord_of_value? h hv]
  simp [Option.filter, hid]

theorem loadId_of_missing (h : s.fault? .idCode .read = none) (hv : s.value? .idCode = none) :
    (loadId s).1 = none := by
  rw [loadId, MemoryStore.readWord_of_missing h hv]
  rfl

theorem loadCounter_of_fault {cause : StorageError} (h : s.fault? .rollingCode .read = some cause) :
    (loadCounter s).1 = none := by
  rw [loadCounter]
  rcases MemoryStore.readWord_of_fault h with hnone | ⟨e, herror⟩
  · rw [hnone]
  · rw [herror]

theorem loadCounter_of_value? {counter : UInt32} (h : s.fault? .rollingCode .read = none)
    (hv : s.value? .rollingCode = some (wordBytes counter)) : (loadCounter s).1 = some counter := by
  rw [loadCounter, MemoryStore.readWord_of_value? h hv]

/-! ## What a boot leaves -/

/-- The id record after the choice of an id: a new id, if none was found and it can be written. -/
theorem id_establishId (s : MemoryStore) (entropy : UInt32) :
    (establishId s entropy).2.1.value? .idCode =
      if (loadId s).1 = none ∧ s.fault? .idCode .write = none then some (wordBytes (deriveId entropy))
      else s.value? .idCode := by
  rw [store_establishId]
  by_cases hfound : (loadId s).1 = none
  · rw [if_pos hfound, MemoryStore.value?_tryWrite]
    simp only [hfound, true_and]
  · rw [if_neg hfound, if_neg fun h => hfound h.1]

/-- The rest of a boot does not touch the id record. -/
theorem id_restore (s : MemoryStore) (entropy : UInt32) :
    (restore s entropy).store.value? .idCode = (establishId s entropy).2.1.value? .idCode := by
  rw [store_restore, MemoryStore.value?_tryWrite_of_ne (by decide)]

/-- The counter record after a boot: the counter that the boot starts with, if it can be written. -/
theorem counter_restore (s : MemoryStore) (entropy : UInt32) :
    (restore s entropy).store.value? .rollingCode =
      if s.fault? .rollingCode .write = none then some (wordBytes (.ofNat (startCounter s entropy)))
      else s.value? .rollingCode := by
  rw [store_restore, MemoryStore.value?_tryWrite, fault?_establishId, counter_establishId]

/-- A boot that can read the counter starts some steps after it. -/
theorem startCounter_of_value? {counter : UInt32} (h : s.fault? .rollingCode .read = none)
    (hv : s.value? .rollingCode = some (wordBytes counter)) (entropy : UInt32) :
    startCounter s entropy = bootCounter (some counter) := by
  have hread : (establishId s entropy).2.1.fault? .rollingCode .read = none := by rw [fault?_establishId, h]
  have hvalue : (establishId s entropy).2.1.value? .rollingCode = some (wordBytes counter) := by
    rw [counter_establishId, hv]
  rw [startCounter, loadCounter_of_value? hread hvalue]

/-- A boot that cannot read the counter starts from zero. -/
theorem startCounter_of_fault {cause : StorageError} (h : s.fault? .rollingCode .read = some cause)
    (entropy : UInt32) : startCounter s entropy = 0 := by
  have hread : (establishId s entropy).2.1.fault? .rollingCode .read = some cause := by rw [fault?_establishId, h]
  rw [startCounter, loadCounter_of_fault hread]
  rfl

/-- A boot that finds no counter starts from zero. -/
theorem startCounter_of_missing (h : s.fault? .rollingCode .read = none) (hv : s.value? .rollingCode = none)
    (entropy : UInt32) : startCounter s entropy = 0 := by
  have hread : (establishId s entropy).2.1.fault? .rollingCode .read = none := by rw [fault?_establishId, h]
  have hvalue : (establishId s entropy).2.1.value? .rollingCode = none := by rw [counter_establishId, hv]
  rw [startCounter, loadCounter, MemoryStore.readWord_of_missing hread hvalue]
  rfl

theorem bootCounter_of_advanced {counter : UInt32} (h : counter.toNat % counterBound ≠ 0) :
    bootCounter (some counter) = advance counter.toNat saveInterval := by
  rw [bootCounter, Option.getD_some]
  split
  · next hzero => exact absurd hzero h
  · rw [advance_eq, advance_eq, Nat.mod_add_mod]

/-! ## Good records -/

/-- A good id after a boot: it is replaced if it cannot be read and can be written. -/
theorem good_id_restore {id : UInt32} (hid : id ≠ 0) (hv : s.value? .idCode = some (wordBytes id))
    (entropy : UInt32) : (restore s entropy).store.value? .idCode = some (wordBytes
      (if s.fault? .idCode .read = none ∨ s.fault? .idCode .write ≠ none then id else deriveId entropy)) := by
  rw [id_restore, id_establishId, hv]
  cases hread : s.fault? .idCode .read with
  | none => simp [loadId_of_value? hread hv hid]
  | some cause =>
    rw [loadId_of_fault hread]
    cases s.fault? .idCode .write <;> simp

/-- A good counter after a boot: it is moved on if it can be written, and is zero if it could not be read. -/
theorem good_counter_restore {counter : UInt32} (hcounter : counter.toNat % counterBound ≠ 0)
    (hv : s.value? .rollingCode = some (wordBytes counter)) (entropy : UInt32) :
    (restore s entropy).store.value? .rollingCode = some (wordBytes
      (if s.fault? .rollingCode .write ≠ none then counter
        else if s.fault? .rollingCode .read = none then .ofNat (advance counter.toNat saveInterval) else 0)) := by
  rw [counter_restore, hv]
  cases hread : s.fault? .rollingCode .read with
  | none =>
    rw [startCounter_of_value? hread hv, bootCounter_of_advanced hcounter]
    cases s.fault? .rollingCode .write <;> simp
  | some cause =>
    rw [startCounter_of_fault hread]
    cases s.fault? .rollingCode .write <;> simp

/-- No good counter is followed by zero. -/
theorem advance_toNat_ne_zero (counter : UInt32) : UInt32.ofNat (advance counter.toNat saveInterval) ≠ 0 := by
  have hpos := advance_pos counter.toNat saveInterval
  have hlt := advance_lt counter.toNat saveInterval
  intro h
  have hval : (UInt32.ofNat (advance counter.toNat saveInterval)).toNat = 0 := by rw [h]; rfl
  rw [UInt32.toNat_ofNat'] at hval
  rw [counterBound_val] at hlt
  omega

/-- **When a good identity survives a boot with failing storage.**  A good id stays as it is exactly if it can be read or
cannot be written, or if the new id is the same; a good counter stays as it is or is moved on exactly if it can be read
or cannot be written.  Otherwise the id is replaced by the new one and the counter by zero. -/
theorem faults_keep_identity_iff (s : MemoryStore) (entropy : UInt32) :
    (∀ id ≠ 0, s.value? .idCode = some (wordBytes id) →
      ((restore s entropy).store.value? .idCode = some (wordBytes id) ↔
        s.fault? .idCode .read = none ∨ s.fault? .idCode .write ≠ none ∨ deriveId entropy = id) ∧
      ((restore s entropy).store.value? .idCode ≠ some (wordBytes id) →
        (restore s entropy).store.value? .idCode = some (wordBytes (deriveId entropy)))) ∧
    ∀ counter, counter.toNat % counterBound ≠ 0 → s.value? .rollingCode = some (wordBytes counter) →
      ((restore s entropy).store.value? .rollingCode = some (wordBytes counter) ∨
          (restore s entropy).store.value? .rollingCode =
            some (wordBytes (.ofNat (advance counter.toNat saveInterval))) ↔
        s.fault? .rollingCode .read = none ∨ s.fault? .rollingCode .write ≠ none) ∧
      (s.fault? .rollingCode .read ≠ none → s.fault? .rollingCode .write = none →
        (restore s entropy).store.value? .rollingCode = some (wordBytes 0)) := by
  constructor
  · intro id hid hv
    simp only [good_id_restore hid hv, ne_eq, Option.some_inj, wordBytes_inj]
    by_cases hkept : s.fault? .idCode .read = none ∨ s.fault? .idCode .write ≠ none
    · rw [if_pos hkept, ← or_assoc]
      exact ⟨⟨fun _ => .inl hkept, fun _ => rfl⟩, fun h => absurd rfl h⟩
    · rw [if_neg hkept, ← or_assoc]
      exact ⟨⟨.inr, fun h => h.resolve_left hkept⟩, fun _ => rfl⟩
  · intro counter hcounter hv
    have hne : counter ≠ 0 := by
      rintro rfl
      exact hcounter rfl
    rw [good_counter_restore hcounter hv, Option.some_inj, Option.some_inj, Option.some_inj, wordBytes_inj,
      wordBytes_inj, wordBytes_inj]
    cases hwrite : s.fault? .rollingCode .write with
    | some cause => simp
    | none =>
      cases hread : s.fault? .rollingCode .read with
      | none => simp
      | some cause => simp [hne.symm, (advance_toNat_ne_zero counter).symm]

/-- A store with a good id and a good counter, neither of which can be read. -/
def unreadableStore : MemoryStore where
  value? key :=
    match key with
    | .idCode => some (wordBytes 0x456539)
    | .rollingCode => some (wordBytes 57)
    | _ => none
  fault? key access :=
    match key, access with
    | .idCode, .read | .rollingCode, .read => some .storage
    | _, _ => none

/-- The same store with the id protected from writing, and the counter readable. -/
def halfReadableStore : MemoryStore :=
  (unreadableStore.setFault .idCode .write (some .flash)).setFault .rollingCode .read none

/-- An id that can be neither read nor written stays, and the counter that can be read is moved on. -/
theorem faults_keep_identity_iff_half :
    halfReadableStore.value? .idCode = some (wordBytes 0x456539) ∧
      halfReadableStore.value? .rollingCode = some (wordBytes 57) ∧
      halfReadableStore.fault? .idCode .read = some .storage ∧
      (restore halfReadableStore 0).store.value? .idCode = some (wordBytes 0x456539) ∧
      ((restore halfReadableStore 0).store.value? .rollingCode = some (wordBytes 57) ∨
        (restore halfReadableStore 0).store.value? .rollingCode = some (wordBytes 67)) := by
  obtain ⟨hid, hcounter⟩ := faults_keep_identity_iff halfReadableStore 0
  refine ⟨rfl, rfl, rfl, ?_, ?_⟩
  · exact (hid 0x456539 (by decide) rfl).1.mpr (.inr (.inl (by decide)))
  · exact (hcounter 57 (by decide) rfl).1.mpr (.inl rfl)

/-- A boot that can read neither record replaces both: the id by a new one, and the counter by zero. -/
theorem identity_lost_to_read_faults :
    unreadableStore.value? .idCode = some (wordBytes 0x456539) ∧
      unreadableStore.value? .rollingCode = some (wordBytes 57) ∧
      (restore unreadableStore 0).store.value? .idCode = some (wordBytes 0x1539) ∧
      (restore unreadableStore 0).store.value? .rollingCode = some (wordBytes 0) ∧
      wordBytes 0x1539 ≠ wordBytes 0x456539 ∧ wordBytes 0 ≠ wordBytes 57 ∧
      wordBytes 0 ≠ wordBytes (.ofNat (advance 57 saveInterval)) := by
  refine ⟨rfl, rfl, ?_, ?_, ?_, ?_, ?_⟩
  all_goals decide +kernel

end Identity

end DoorBridge
