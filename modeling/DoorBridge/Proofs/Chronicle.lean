import DoorBridge.Proofs.Logbook

/-!
# Proofs.Chronicle — many boots over one store that may fail

* `Stint` is a boot with all that happens in it; `chronicle store stints` is what is stored after some of them, and the
  boots themselves as they stood when they lost power.
* Faults belong to the store and outlast a boot.  Only an incident that is a fault changes them
  (`Logged.fault?_take`), so a boot without one leaves them as they are (`Logged.fault?_run`).
-/

namespace DoorBridge

/-- A boot with all that happens in it. -/
inductive Stint (β : Type) where
  /-- Power is lost during the start, with the id looked for and the counter not saved. -/
  | failed (entropy : UInt32)
  | full (settings : Settings) (entropy : UInt32) (now : Nat) (incidents : List (Incident β)) (cut : Cut β)

/-- What is stored after some boots, and the boots that came to run. -/
structure Chronicle where
  store : MemoryStore
  boots : List Logged := []

section Boots

variable {β : Type} [Bus β]

def Chronicle.add (h : Chronicle) : Stint β → Chronicle
  | .failed entropy => { h with store := (Identity.establishId h.store entropy).2.1 }
  | .full settings entropy now incidents cut =>
    let l := (Logged.start settings h.store entropy now).run incidents cut
    ⟨l.bridge.store, h.boots ++ [l]⟩

/-- What becomes of a store with some boots. -/
def chronicle (store : MemoryStore) (stints : List (Stint β)) : Chronicle := stints.foldl Chronicle.add { store }

/-- What each boot keeps holds after all of them. -/
theorem chronicle_induction {P : Chronicle → Prop} {store : MemoryStore} {stints : List (Stint β)}
    (h : P { store }) (hadd : ∀ x, P x → ∀ stint ∈ stints, P (x.add stint)) : P (chronicle store stints) :=
  List.foldlRecOn stints Chronicle.add h hadd

end Boots

/-! ## Faults -/

/-- What an incident does to the faults of a store. -/
def Incident.onFaults {β : Type} : Incident β → MemoryStore → MemoryStore
  | .fault key access cause?, s => s.setFault key access cause?
  | _, s => s

def Incident.isFault {β : Type} : Incident β → Bool
  | .fault .. => true
  | _ => false

namespace Logged

variable {β : Type} [Bus β]

theorem fault?_flush (l : Logged) : l.flush.bridge.store.fault? = l.bridge.store.fault? :=
  Engine.fault?_flush l.bridge.engine l.bridge.store

theorem fault?_transmit (l : Logged) (bus : β) (now : Nat) :
    (l.transmit bus now).bridge.store.fault? = l.bridge.store.fault? := rfl

theorem fault?_recordMotion (b : Bridge) : b.recordMotion.store.fault? = b.store.fault? :=
  Engine.fault?_flushMotion b.engine b.store

/-- Only a fault changes the faults of the store. -/
theorem fault?_take (l : Logged) (incident : Incident β) :
    (l.take incident).bridge.store.fault? = (incident.onFaults l.bridge.store).fault? := by
  cases incident with
  | send bus now => rfl
  | fault key access cause? => rfl
  | step s =>
    cases s with
    | service bus now => exact (fault?_flush _).trans (fault?_transmit l bus now)
    | flush => exact fault?_flush l
    | _ => rfl

theorem fault?_cutOff (l : Logged) (cut : Cut β) : (l.cutOff cut).bridge.store.fault? = l.bridge.store.fault? := by
  cases cut with
  | idle => rfl
  | sending bus now => rfl
  | recording bus now => exact fault?_recordMotion (l.transmit bus now).bridge
  | flushing => exact fault?_recordMotion l.bridge

theorem fault?_start {settings : Settings} (hplus2 : settings.security = .plus2) (store : MemoryStore)
    (entropy : UInt32) (now : Nat) : (start settings store entropy now).bridge.store.fault? = store.fault? := by
  have hstore : (start settings store entropy now).bridge.store = (Identity.restore store entropy).store :=
    (Engine.core_start hplus2 store entropy now).2
  rw [hstore, Identity.store_restore, MemoryStore.fault?_tryWrite, Identity.fault?_establishId]

/-- What the faults of a boot keep, if every incident keeps it, holds when the power is lost. -/
theorem faults_run {P : (StorageKey → Access → Option StorageError) → Prop} {settings : Settings}
    (hplus2 : settings.security = .plus2) {store : MemoryStore} (hstore : P store.fault?) (entropy : UInt32)
    (now : Nat) {incidents : List (Incident β)}
    (hkeep : ∀ i ∈ incidents, ∀ s : MemoryStore, P s.fault? → P (i.onFaults s).fault?) (cut : Cut β) :
    P ((start settings store entropy now).run incidents cut).bridge.store.fault? := by
  rw [run, fault?_cutOff]
  refine List.foldlRecOn (motive := fun l => P l.bridge.store.fault?) incidents take ?_ fun l hl i hi => ?_
  · rwa [fault?_start hplus2]
  · rw [fault?_take]
    exact hkeep i hi _ hl

/-- A boot without faults leaves those of the store as they are. -/
theorem fault?_run {settings : Settings} (hplus2 : settings.security = .plus2) (store : MemoryStore)
    (entropy : UInt32) (now : Nat) {incidents : List (Incident β)} (hsound : ∀ i ∈ incidents, i.isFault = false)
    (cut : Cut β) : ((start settings store entropy now).run incidents cut).bridge.store.fault? = store.fault? := by
  refine faults_run (P := (· = store.fault?)) hplus2 rfl entropy now (fun i hi s hs => ?_) cut
  cases i with
  | fault key access cause? => cases hsound _ hi
  | _ => exact hs

end Logged

end DoorBridge
