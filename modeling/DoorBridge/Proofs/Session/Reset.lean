import DoorBridge.Arbiter.Script
import DoorBridge.Proofs.Engine.Rest
import DoorBridge.Proofs.Session.Orders

/-!
# Proofs.Session.Reset — what a flush makes of a reset

* `value?_flush_reset`: the records of the station are gone as far as they can be removed, and no others change.
  `answer_flush_reset`: the answer is ok exactly if no removal failed for another reason than that there was no record.
* Whatever is left of the records, one restart is asked for (`flushNotes_reset`), and no later flush removes anything
  until the next request (`reset_over`).
* So the reset is carried out whole or tried again (`Engine.ResetsWhole`) exactly if every record of the station can be
  removed or is not there (`reset_whole_iff`).
-/

namespace DoorBridge

/-- The records of the station are gone. -/
def MemoryStore.Cleared (s : MemoryStore) : Prop := ∀ key ∈ Engine.resetKeys, s.value? key = none

namespace Engine

variable {e : Engine}

/-! ## The records -/

theorem value?_flush_reset (hreset : e.pending.reset = true) (store : MemoryStore) (key : StorageKey) :
    (e.flush store).2.2.value? key =
      if key ∈ resetKeys ∧ store.fault? key .remove = none then none else store.value? key := by
  rw [store_flush_reset hreset, MemoryStore.value?_foldl_tryRemove]

theorem cleared_flush_iff (hreset : e.pending.reset = true) (store : MemoryStore) :
    (e.flush store).2.2.Cleared ↔ ∀ key ∈ resetKeys, store.value? key = none ∨ store.fault? key .remove = none := by
  refine forall₂_congr fun key hkey => ?_
  rw [value?_flush_reset hreset]
  by_cases hfault : store.fault? key .remove = none <;> simp [hkey, hfault]

/-! ## The answer -/

theorem failure_clearRecord (store : MemoryStore) (key : StorageKey) :
    (clearRecord store key).1 = none ↔
      store.fault? key .remove = none ∨ store.fault? key .remove = some .notFound := by
  simp only [clearRecord, Storage.remove]
  cases hfault : store.fault? key .remove with
  | none => cases store.value? key <;> simp
  | some cause => cases cause <;> simp

theorem failure_clearRecords (store : MemoryStore) (keys : List StorageKey) :
    (clearRecords store keys).1 = none ↔
      ∀ key ∈ keys, store.fault? key .remove = none ∨ store.fault? key .remove = some .notFound := by
  induction keys generalizing store with
  | nil => simp [clearRecords]
  | cons key keys ih =>
    have hrest := ih (clearRecord store key).2
    rw [store_clearRecord, MemoryStore.fault?_tryRemove, ← store_clearRecord] at hrest
    rw [clearRecords, List.forall_mem_cons, ← hrest, ← failure_clearRecord, Option.or_eq_none_iff]
    exact and_comm

theorem answer_flush_reset (hreset : e.pending.reset = true) (store : MemoryStore) :
    (e.flush store).1 = .ok () ↔
      ∀ key ∈ resetKeys, store.fault? key .remove = none ∨ store.fault? key .remove = some .notFound := by
  rw [← failure_clearRecords, flush, if_pos hreset, flushReset]
  dsimp only
  cases (clearRecords store resetKeys).1 <;> simp [startResult]

/-! ## The restart -/

/-- The notifications of a flush. -/
def flushNotes (e : Engine) (store : MemoryStore) : List Notification :=
  Event.notifications ((e.flush store).2.1.events.drop e.events.length)

theorem flushNotes_reset (hreset : e.pending.reset = true) (store : MemoryStore) :
    e.flushNotes store = [.restartRequested .reset] := by
  have hlogs := notifications_clearRecords store resetKeys
  rw [flushNotes, flush, if_pos hreset, flushReset]
  dsimp only [emit]
  rw [List.drop_left, notifications_append, hlogs]
  rfl

/-- After a flush no reset is pending until one is asked for. -/
theorem reset_over {β : Type} [Bus β] (e : Engine) (store : MemoryStore) {steps : List (Step β MemoryStore)}
    (hsteps : ∀ step ∈ steps, step.isReset = false) :
    (({ engine := (e.flush store).2.1 } : Session).run steps).engine.pending.reset = false := by
  apply Bool.eq_false_of_not_eq_true
  intro hpending
  obtain ⟨hflushed, -⟩ := Session.reset_run hsteps hpending
  rw [pending_flush] at hflushed
  contradiction

/-- A flush carries out a reset whole or leaves it to a later flush: it asks for the restart only if the records of the
station are gone, it keeps the reset pending if they are not, and it does not touch the settings. -/
structure ResetsWhole (e : Engine) (store : MemoryStore) : Prop where
  restarts_cleared : .restartRequested .reset ∈ e.flushNotes store → (e.flush store).2.2.Cleared
  stays_pending : ¬ (e.flush store).2.2.Cleared → (e.flush store).2.1.pending.reset = true
  keeps_settings : ∀ key ∉ resetKeys, (e.flush store).2.2.value? key = store.value? key

end Engine

/-- **A reset is carried out whole or tried again exactly if every record of the station can be removed or is not there.**
In any case each record is gone if it can be removed and is unchanged otherwise, no other record is touched, one restart is
asked for, the answer tells of the failure unless it is called a missing record, and until the next request the reset is
never pending again. -/
theorem reset_whole_iff {β : Type} [Bus β] {e : Engine} (hreset : e.pending.reset = true) (store : MemoryStore) :
    (e.ResetsWhole store ↔
      ∀ key ∈ Engine.resetKeys, store.value? key = none ∨ store.fault? key .remove = none) ∧
    (∀ key, (e.flush store).2.2.value? key =
      if key ∈ Engine.resetKeys ∧ store.fault? key .remove = none then none else store.value? key) ∧
    e.flushNotes store = [.restartRequested .reset] ∧
    ((e.flush store).1 = .ok () ↔ ∀ key ∈ Engine.resetKeys,
      store.fault? key .remove = none ∨ store.fault? key .remove = some .notFound) ∧
    ∀ steps : List (Step β MemoryStore), (∀ step ∈ steps, step.isReset = false) →
      (({ engine := (e.flush store).2.1 } : Session).run steps).engine.pending.reset = false := by
  have hvalues := Engine.value?_flush_reset hreset store
  have hcleared := Engine.cleared_flush_iff hreset store
  have hnotes := Engine.flushNotes_reset hreset store
  refine ⟨?_, hvalues, hnotes, Engine.answer_flush_reset hreset store, fun steps => e.reset_over store⟩
  rw [← hcleared]
  constructor
  · intro hwhole
    exact hwhole.restarts_cleared (by rw [hnotes]; exact List.mem_singleton_self _)
  · intro hgone
    refine ⟨fun _ => hgone, fun hleft => absurd hgone hleft, fun key hkey => ?_⟩
    rw [hvalues, if_neg fun h => hkey h.1]

/-- The store of a station that has booted once, one of whose records cannot be removed. -/
def stuckStore (key : StorageKey) : MemoryStore :=
  ((Engine.new {}).start ({} : MemoryStore) 0 0).2.2.setFault key .remove (some .storage)

/-- That station after a request to reset. -/
def resetStation : Engine :=
  ((Session.boot {} ({} : MemoryStore) 0 0).operate (.request .reset : Operation MemoryStore)).engine

/-- The station has never seen a motion sensor, so it does not matter that the flag could not be removed. -/
theorem reset_whole_iff_motion : resetStation.pending.reset = true ∧ resetStation.ResetsWhole (stuckStore .hasMotion) ∧
    (resetStation.flush (stuckStore .hasMotion)).1 ≠ .ok () := by
  have hreset : resetStation.pending.reset = true := by decide +kernel
  obtain ⟨hwhole, -, -, hanswer, -⟩ := reset_whole_iff (β := BusScript) hreset (stuckStore .hasMotion)
  refine ⟨hreset, hwhole.mpr (by decide +kernel), fun hok => ?_⟩
  exact absurd (hanswer.mp hok) (by decide +kernel)

/-- If the id cannot be removed, the restart is asked for although the station has kept its id, and the reset is over. -/
theorem id_kept_by_reset : resetStation.pending.reset = true ∧
    .restartRequested .reset ∈ resetStation.flushNotes (stuckStore .idCode) ∧
    (resetStation.flush (stuckStore .idCode)).2.2.value? .idCode = some [0x39, 0x15, 0, 0] ∧
    (resetStation.flush (stuckStore .idCode)).2.1.pending.reset = false := by
  decide +kernel

end DoorBridge
