import DoorBridge.Proofs.Counter
import DoorBridge.Proofs.Storage

/-!
# Proofs.Identity — what loading and saving do to the identity and its records

* `identity_save`, `store_save`, `fst_establishId`, `store_establishId`, `identity_restore`, `store_restore`: what a
  save, the choice of the id and a boot come to, whatever fails on the way.
* `HoldsCounter s stored` says that the counter record of a store can be relied on and what it reads.  Saving replaces
  it (`save_spec`), establishing the id leaves it alone (`holds_establishId`), and a boot continues from it with the
  counter saved at once (`restore_spec`).
-/

namespace DoorBridge

/-- The counter record can be read and written, and reads as given. -/
structure HoldsCounter (s : MemoryStore) (stored : Option UInt32) : Prop where
  reliable : s.Reliable .rollingCode
  read : readWord s .rollingCode = .ok stored

/-- What is known of the counter record holds of a store that has the same record with the same faults. -/
theorem HoldsCounter.of_same {s s' : MemoryStore} {stored : Option UInt32} (h : HoldsCounter s stored)
    (hfault : s'.fault? .rollingCode = s.fault? .rollingCode)
    (hvalue : s'.value? .rollingCode = s.value? .rollingCode) : HoldsCounter s' stored := by
  have hreliable : s'.Reliable .rollingCode := fun access => (congrFun hfault access).trans (h.reliable access)
  exact ⟨hreliable, (MemoryStore.readWord_congr h.reliable hreliable hvalue).trans h.read⟩

namespace Identity

/-! ## Over any store -/

section Any

variable {σ : Type} [Storage σ]

/-- A save brings the save point up to the counter, whether or not the write succeeds. -/
theorem identity_save (i : Identity) (store : σ) : (i.save store).identity = { i with lastSaved := i.rolling } := by
  rw [save]
  split <;> rfl

theorem fst_establishId (store : σ) (entropy : UInt32) :
    (establishId store entropy).1 = (loadId store).1.getD (deriveId entropy) := by
  rw [establishId]
  split
  · next h => rw [h, Option.getD_some]
  · next h =>
    rw [h, Option.getD_none]
    dsimp only
    split <;> rfl

/-- The counter that a boot starts with. -/
def startCounter (store : σ) (entropy : UInt32) : Nat :=
  bootCounter (loadCounter (establishId store entropy).2.1).1

theorem startCounter_lt (store : σ) (entropy : UInt32) : startCounter store entropy < counterBound :=
  bootCounter_lt _

/-- The identity after a boot: the id that was chosen, and the counter with the save point on it. -/
theorem identity_restore (store : σ) (entropy : UInt32) :
    (restore store entropy).identity =
      ⟨(establishId store entropy).1, startCounter store entropy, startCounter store entropy⟩ := by
  rw [restore]
  dsimp only
  rw [identity_save]
  rfl

end Any

/-! ## Over a store with faults -/

variable {s : MemoryStore} {stored : Option UInt32}

theorem store_save (i : Identity) (s : MemoryStore) :
    (i.save s).store = s.tryWrite .rollingCode (wordBytes (.ofNat i.rolling)) := by
  have hwrite : writeWord s .rollingCode (.ofNat i.rolling) =
      Storage.write s .rollingCode (wordBytes (.ofNat i.rolling)) := rfl
  rw [save, hwrite, MemoryStore.tryWrite]
  generalize Storage.write s .rollingCode (wordBytes (.ofNat i.rolling)) = answer
  cases answer <;> rfl

/-- An id that is not found is replaced by a new one, and the write may fail. -/
theorem store_establishId (s : MemoryStore) (entropy : UInt32) :
    (establishId s entropy).2.1 =
      if (loadId s).1 = none then s.tryWrite .idCode (wordBytes (deriveId entropy)) else s := by
  have hwrite : writeWord s .idCode (deriveId entropy) =
      Storage.write s .idCode (wordBytes (deriveId entropy)) := rfl
  rw [establishId]
  split
  · next h => rw [h, if_neg (Option.some_ne_none _)]
  · next h =>
    rw [h, if_pos rfl, MemoryStore.tryWrite]
    dsimp only
    rw [hwrite]
    generalize Storage.write s .idCode (wordBytes (deriveId entropy)) = answer
    cases answer <;> rfl

theorem fault?_establishId (s : MemoryStore) (entropy : UInt32) :
    (establishId s entropy).2.1.fault? = s.fault? := by
  rw [store_establishId]
  split
  · exact MemoryStore.fault?_tryWrite s _ _
  · rfl

theorem counter_establishId (s : MemoryStore) (entropy : UInt32) :
    (establishId s entropy).2.1.value? .rollingCode = s.value? .rollingCode := by
  rw [store_establishId]
  split
  · exact MemoryStore.value?_tryWrite_of_ne (by decide)
  · rfl

/-- A boot tries to write the counter that it starts with. -/
theorem store_restore (s : MemoryStore) (entropy : UInt32) :
    (restore s entropy).store = (establishId s entropy).2.1.tryWrite .rollingCode
      (wordBytes (.ofNat (startCounter s entropy))) := by
  rw [restore]
  dsimp only
  rw [store_save]
  rfl

/-! ## Over a store whose counter can be relied on -/

/-- A save brings the save point and the store up to the counter. -/
theorem save_spec (i : Identity) (h : HoldsCounter s stored) :
    (i.save s).identity = { i with lastSaved := i.rolling } ∧
      HoldsCounter (i.save s).store (some (.ofNat i.rolling)) := by
  refine ⟨identity_save i s, ?_⟩
  rw [store_save]
  have hreliable : (s.tryWrite .rollingCode (wordBytes (.ofNat i.rolling))).Reliable .rollingCode := fun access => by
    rw [MemoryStore.fault?_tryWrite]
    exact h.reliable access
  refine ⟨hreliable, MemoryStore.readWord_wordBytes hreliable ?_⟩
  rw [MemoryStore.value?_tryWrite, if_pos (h.reliable .write)]

theorem holds_establishId (h : HoldsCounter s stored) (entropy : UInt32) :
    HoldsCounter (establishId s entropy).2.1 stored :=
  h.of_same (congrFun (fault?_establishId s entropy) _) (counter_establishId s entropy)

/-- A boot moves the stored counter on and saves it before anything is sent. -/
theorem restore_spec (h : HoldsCounter s stored) (entropy : UInt32) :
    (restore s entropy).identity.rolling = bootCounter stored ∧
      (restore s entropy).identity.lastSaved = bootCounter stored ∧
      HoldsCounter (restore s entropy).store (some (.ofNat (bootCounter stored))) := by
  have hid := holds_establishId h entropy
  have hstart : startCounter s entropy = bootCounter stored := by
    rw [startCounter, loadCounter, hid.read]
  have hsaved := (save_spec ⟨0, bootCounter stored, 0⟩ hid).2
  rw [store_save] at hsaved
  rw [identity_restore, store_restore, hstart]
  exact ⟨rfl, rfl, hsaved⟩

end Identity

end DoorBridge
