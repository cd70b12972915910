import DoorBridge.Proofs.Engine.Core
import DoorBridge.Proofs.Identity
import DoorBridge.Proofs.Message

/-!
# Proofs.Engine.Service — what a transmission, a flush and a start do to the counter

* `decode_row`, `codeOf?_encode`: a row that carries a packet carries the counter and the id.
* `core_transmitNext`: the counter takes one step exactly when a packet went out that uses up a code.
* `core_flush`, `store_flush`: a flush tries to save the counter when a save is due or asked for, and leaves it alone
  otherwise; `flush_spec` says the same of a store whose counter can be relied on.
* `core_start`: a start is a boot of the identity; `start_spec`: it continues from a counter that can be relied on.
-/

namespace DoorBridge

/-- The rolling code that a row of bytes carries, if it is a frame. -/
def codeOf? (row : List UInt8) : Option Nat :=
  match (Frame.ofBytes? row).map Message.decode with
  | some (.ok m) => some m.rolling
  | _ => none

namespace Engine

variable {e : Engine}

/-! ## Transmission -/

/-- The row of a packet decodes to what the packet stands for, with the counter and the id. -/
theorem decode_row {packet : Packet} {row : List UInt8} (hplus2 : e.settings.security = .plus2)
    (h : e.encode packet = .ok row) : (Frame.ofBytes? row).map Message.decode =
      some (.ok ⟨.ofParts packet.command packet.payload, e.identity.rolling, e.identity.idCode⟩) := by
  rw [encode, hplus2] at h
  dsimp only at h
  split at h
  · next frame hframe =>
    injection h with h
    have hof : Frame.ofBytes? row = some frame := by
      rw [← h]
      exact dif_pos frame.length_bytes
    rw [hof, Option.map_some, Message.decode_encode hframe]
  · contradiction

theorem codeOf?_encode {packet : Packet} {row : List UInt8} (hplus2 : e.settings.security = .plus2)
    (h : e.encode packet = .ok row) : codeOf? row = some e.identity.rolling := by
  rw [codeOf?, decode_row hplus2 h]

/-- Whether the packet that went out, if one did, used up a code. -/
def usesUp (e : Engine) (answer : Except EngineError (Option Packet)) : Bool :=
  match answer, e.queue.front? with
  | .ok (some _), some action => action.usesCode
  | _, _ => false

/-- The counter takes one step exactly when a packet went out that uses up a code. -/
theorem core_transmitNext {β : Type} [Bus β] {bus bus' : β} {now : Nat} {e' : Engine}
    {answer : Except EngineError (Option Packet)} (hplus2 : e.settings.security = .plus2)
    (h : e.transmitNext bus now = (answer, e', bus')) :
    e'.core = if e.usesUp answer then { e.core with identity := e.identity.step } else e.core := by
  rw [transmitNext] at h
  split at h
  · cases h
    rfl
  next action hfront =>
  split at h
  · cases h
    rfl
  split at h
  · cases h
    rfl
  next frame hframe =>
  generalize e.arbiter.transmit frame now action.postDelay bus = sent at h
  obtain ⟨result, arbiter, bus⟩ := sent
  cases result with
  | ok done =>
    cases h
    have hplus2' : { e with arbiter }.isPlus2 = true := decide_eq_true hplus2
    have huses : e.usesUp (.ok (some action.packet)) = action.usesCode := by
      simp only [usesUp, hfront]
    rw [afterSending, huses, hplus2', Bool.true_and]
    split <;> rfl
  | error cause =>
    cases h
    rfl

/-! ## Flushes over any store -/

section Any

variable {σ : Type} [Storage σ]

theorem core_flushMotion (e : Engine) (store : σ) : (e.flushMotion store).2.1.core = e.core := by
  rw [flushMotion]
  split
  · dsimp only
    split <;> rfl
  · rfl

theorem save_flushMotion (e : Engine) (store : σ) : (e.flushMotion store).2.1.pending.save = e.pending.save := by
  rw [flushMotion]
  split
  · dsimp only
    split <;> rfl
  · rfl

theorem core_flushRestart (e : Engine) : e.flushRestart.core = e.core := by
  rw [flushRestart]
  split <;> rfl

/-- Whether a flush has to save the counter. -/
def saveIsDue (e : Engine) : Bool := e.pending.save || e.identity.needsSave

/-- The identity after a save. -/
def savedIdentity (i : Identity) : Identity := { i with lastSaved := i.rolling }

theorem saveIsDue_flushMotion (e : Engine) (store : σ) : (e.flushMotion store).2.1.saveIsDue = e.saveIsDue := by
  rw [saveIsDue, saveIsDue, save_flushMotion, (core_eq_iff.mp (core_flushMotion e store)).1]
  rfl

theorem core_flushCounter (hplus2 : e.settings.security = .plus2) (store : σ) :
    (e.flushCounter store).2.1.core =
      { e.core with identity := if e.saveIsDue then savedIdentity e.identity else e.identity } := by
  have his : e.isPlus2 = true := decide_eq_true hplus2
  rw [flushCounter]
  split
  · next hcond =>
    rw [if_pos (show e.saveIsDue = true from (Bool.and_eq_true_iff.mp hcond).2), core_eq_iff]
    exact ⟨Identity.identity_save e.identity store, rfl, rfl⟩
  · next hcond =>
    have hdue : ¬ e.saveIsDue = true := fun hdue => hcond (Bool.and_eq_true_iff.mpr ⟨his, hdue⟩)
    rw [if_neg hdue]
    rfl

/-- A flush without a reset moves the save point up to the counter when a save is due, and does nothing to the identity
otherwise, whatever fails on the way. -/
theorem core_flush (hplus2 : e.settings.security = .plus2) (hreset : e.pending.reset = false) (store : σ) :
    (e.flush store).2.1.core =
      { e.core with identity := if e.saveIsDue then savedIdentity e.identity else e.identity } := by
  have hcore := core_flushMotion e store
  have hdue := saveIsDue_flushMotion e store
  rw [flush, hreset]
  simp only [Bool.false_eq_true, if_false]
  generalize e.flushMotion store = recorded at hcore hdue ⊢
  obtain ⟨failure, e', store'⟩ := recorded
  obtain ⟨hidentity, hsecurity, -⟩ := core_eq_iff.mp hcore
  have hcounter := core_flushCounter (hsecurity.trans hplus2) store'
  dsimp only at hcore hdue hcounter ⊢
  rw [core_flushRestart, hcounter, hcore, hdue, show e'.identity = e.identity from hidentity]

end Any

/-! ## Flushes over a store with faults -/

variable {s : MemoryStore} {stored : Option UInt32}

theorem store_flushMotion (e : Engine) (s : MemoryStore) :
    (e.flushMotion s).2.2 = if e.pending.hasMotion then s.tryWrite .hasMotion [1] else s := by
  rw [flushMotion]
  split
  · rw [MemoryStore.tryWrite]
    dsimp only
    generalize Storage.write s .hasMotion [1] = answer
    cases answer <;> rfl
  · rfl

theorem fault?_flushMotion (e : Engine) (s : MemoryStore) : (e.flushMotion s).2.2.fault? = s.fault? := by
  rw [store_flushMotion]
  split
  · exact MemoryStore.fault?_tryWrite s _ _
  · rfl

/-- The motion flag is the only record that a flush of it touches. -/
theorem value?_flushMotion {key : StorageKey} (hkey : key ≠ .hasMotion) (e : Engine) (s : MemoryStore) :
    (e.flushMotion s).2.2.value? key = s.value? key := by
  rw [store_flushMotion]
  split
  · exact MemoryStore.value?_tryWrite_of_ne hkey
  · rfl

theorem store_flushCounter (hplus2 : e.settings.security = .plus2) (s : MemoryStore) :
    (e.flushCounter s).2.2 =
      if e.saveIsDue then s.tryWrite .rollingCode (wordBytes (.ofNat e.identity.rolling)) else s := by
  have his : e.isPlus2 = true := decide_eq_true hplus2
  rw [flushCounter]
  split
  · next hcond =>
    rw [if_pos (show e.saveIsDue = true from (Bool.and_eq_true_iff.mp hcond).2)]
    exact Identity.store_save e.identity s
  · next hcond =>
    have hdue : ¬ e.saveIsDue = true := fun hdue => hcond (Bool.and_eq_true_iff.mpr ⟨his, hdue⟩)
    rw [if_neg hdue]

/-- A flush without a reset tries to write the motion flag, if there is one to write, and then the counter, if a save is
due. -/
theorem store_flush (hplus2 : e.settings.security = .plus2) (hreset : e.pending.reset = false) (s : MemoryStore) :
    (e.flush s).2.2 =
      if e.saveIsDue then (e.flushMotion s).2.2.tryWrite .rollingCode (wordBytes (.ofNat e.identity.rolling))
      else (e.flushMotion s).2.2 := by
  have hcore := core_flushMotion e s
  have hdue := saveIsDue_flushMotion e s
  rw [flush, hreset]
  simp only [Bool.false_eq_true, if_false]
  generalize e.flushMotion s = recorded at hcore hdue ⊢
  obtain ⟨failure, e', s'⟩ := recorded
  obtain ⟨hidentity, hsecurity, -⟩ := core_eq_iff.mp hcore
  have hcounter := store_flushCounter (hsecurity.trans hplus2) s'
  dsimp only at hdue hcounter ⊢
  rw [hcounter, hdue, show e'.identity = e.identity from hidentity]

/-- The counter record after a flush without a reset. -/
theorem counter_flush (hplus2 : e.settings.security = .plus2) (hreset : e.pending.reset = false) (s : MemoryStore) :
    (e.flush s).2.2.value? .rollingCode =
      if e.saveIsDue = true ∧ s.fault? .rollingCode .write = none then some (wordBytes (.ofNat e.identity.rolling))
      else s.value? .rollingCode := by
  have hvalue := value?_flushMotion (show StorageKey.rollingCode ≠ .hasMotion by decide) e s
  rw [store_flush hplus2 hreset]
  cases e.saveIsDue <;> simp [MemoryStore.value?_tryWrite, hvalue, fault?_flushMotion]

/-- A flush without a reset touches no records but the motion flag and the counter. -/
theorem value?_flush (hplus2 : e.settings.security = .plus2) (hreset : e.pending.reset = false) {key : StorageKey}
    (hmotion : key ≠ .hasMotion) (hcounter : key ≠ .rollingCode) (s : MemoryStore) :
    (e.flush s).2.2.value? key = s.value? key := by
  rw [store_flush hplus2 hreset]
  split
  · rw [MemoryStore.value?_tryWrite_of_ne hcounter, value?_flushMotion hmotion]
  · exact value?_flushMotion hmotion e s

theorem store_clearRecord (s : MemoryStore) (key : StorageKey) : (clearRecord s key).2 = s.tryRemove key := by
  rw [clearRecord, MemoryStore.tryRemove]
  split <;> simp [*]

theorem store_clearRecords (s : MemoryStore) (keys : List StorageKey) :
    (clearRecords s keys).2.2 = keys.foldl MemoryStore.tryRemove s := by
  induction keys generalizing s with
  | nil => rfl
  | cons key keys ih => rw [clearRecords, List.foldl_cons, ← store_clearRecord, ← ih]

/-- A flush with a reset removes the records of the identity and the motion flag. -/
theorem store_flush_reset (hreset : e.pending.reset = true) (s : MemoryStore) :
    (e.flush s).2.2 = resetKeys.foldl MemoryStore.tryRemove s := by
  rw [flush, if_pos hreset]
  exact store_clearRecords s resetKeys

/-- A flush does not mend or break a store. -/
theorem fault?_flush (e : Engine) (s : MemoryStore) : (e.flush s).2.2.fault? = s.fault? := by
  have hcounter (e : Engine) (s : MemoryStore) : (e.flushCounter s).2.2.fault? = s.fault? := by
    rw [flushCounter]
    split
    · dsimp only
      rw [Identity.store_save]
      exact MemoryStore.fault?_tryWrite s _ _
    · rfl
  cases hreset : e.pending.reset with
  | true => rw [store_flush_reset hreset, MemoryStore.fault?_foldl_tryRemove]
  | false =>
    rw [flush, hreset]
    exact (hcounter _ _).trans (fault?_flushMotion e s)

/-! ## Flushes over a store whose counter can be relied on -/

theorem holds_flushMotion (h : HoldsCounter s stored) (e : Engine) :
    HoldsCounter (e.flushMotion s).2.2 stored :=
  h.of_same (congrFun (fault?_flushMotion e s) _) (value?_flushMotion (by decide) e s)

/-- A flush without a reset saves the counter when a save is due, and does nothing to it otherwise. -/
theorem flush_spec (hplus2 : e.settings.security = .plus2) (hreset : e.pending.reset = false)
    (h : HoldsCounter s stored) :
    (e.flush s).2.1.core =
        { e.core with identity := if e.saveIsDue then savedIdentity e.identity else e.identity } ∧
      HoldsCounter (e.flush s).2.2 (if e.saveIsDue then some (.ofNat e.identity.rolling) else stored) := by
  refine ⟨core_flush hplus2 hreset s, ?_⟩
  have hmotion := holds_flushMotion h e
  rw [store_flush hplus2 hreset]
  split
  · have hsaved := (Identity.save_spec e.identity hmotion).2
    rwa [Identity.store_save] at hsaved
  · exact hmotion

/-! ## Start -/

section Any

variable {σ : Type} [Storage σ]

theorem core_loadMotion (e : Engine) (found : Except StorageError (List UInt8)) :
    (e.loadMotion found).2.core = e.core := by
  rw [loadMotion.eq_def]
  split
  · split <;> rfl
  · rfl
  · rfl
  · rfl

/-- A start on Security+ 2.0 is a boot of the identity, whatever else it finds and whatever fails. -/
theorem core_start {settings : Settings} (hplus2 : settings.security = .plus2) (store : σ) (entropy : UInt32)
    (now : Nat) :
    ((new settings).start store entropy now).2.1.core =
        ⟨(Identity.restore store entropy).identity, .plus2, false⟩ ∧
      ((new settings).start store entropy now).2.2 = (Identity.restore store entropy).store := by
  rw [start]
  dsimp only
  generalize hopened : (new settings).emit _ = opened
  have hnew : opened.core = ⟨{}, .plus2, false⟩ := by
    rw [← hopened, ← hplus2]
    rfl
  have hsecurity : opened.settings.security = .plus2 := (core_eq_iff.mp hnew).2.1
  have hreset : opened.pending.reset = false := (core_eq_iff.mp hnew).2.2
  have hloaded : (opened.loadIdentity store entropy).2.1.core =
      ⟨(Identity.restore store entropy).identity, .plus2, false⟩ ∧
      (opened.loadIdentity store entropy).2.2 = (Identity.restore store entropy).store := by
    rw [loadIdentity, if_pos (show opened.isPlus2 = true from decide_eq_true hsecurity)]
    exact ⟨core_eq_iff.mpr ⟨rfl, hsecurity, hreset⟩, rfl⟩
  generalize opened.loadIdentity store entropy = loaded at hloaded ⊢
  obtain ⟨failure, e, store'⟩ := loaded
  obtain ⟨hcore, hstore⟩ := hloaded
  dsimp only at hcore hstore ⊢
  have hmotion := core_loadMotion e (Storage.read store' .hasMotion 1)
  generalize e.loadMotion (Storage.read store' .hasMotion 1) = known at hmotion ⊢
  obtain ⟨motionFailure, e₁⟩ := known
  have hqueued : (if e₁.isPlus2 then e₁.enqueue greeting else (.ok (), e₁)).2.core = e₁.core := by
    split <;> simp
  generalize (if e₁.isPlus2 then e₁.enqueue greeting else (.ok (), e₁)) = queued at hqueued ⊢
  obtain ⟨answer, e₂⟩ := queued
  have hfinal : e₂.core = ⟨(Identity.restore store entropy).identity, .plus2, false⟩ := by
    rw [show e₂.core = e₁.core from hqueued, show e₁.core = e.core from hmotion, hcore]
  cases answer with
  | ok done => exact ⟨hfinal, hstore⟩
  | error cause => exact ⟨hfinal, hstore⟩

end Any

/-- A boot continues from the stored counter, which is saved before anything is sent. -/
theorem start_spec {settings : Settings} (hplus2 : settings.security = .plus2) (h : HoldsCounter s stored)
    (entropy : UInt32) (now : Nat) :
    ∃ id, ((new settings).start s entropy now).2.1.core =
        ⟨⟨id, Identity.bootCounter stored, Identity.bootCounter stored⟩, .plus2, false⟩ ∧
      HoldsCounter ((new settings).start s entropy now).2.2 (some (.ofNat (Identity.bootCounter stored))) := by
  obtain ⟨hcore, hstore⟩ := core_start hplus2 s entropy now
  obtain ⟨hrolling, hsaved, hholds⟩ := Identity.restore_spec h entropy
  refine ⟨(Identity.restore s entropy).identity.idCode, ?_, hstore ▸ hholds⟩
  rw [hcore]
  generalize (Identity.restore s entropy).identity = i at hrolling hsaved ⊢
  rw [← hrolling]
  nth_rewrite 2 [hrolling]
  rw [← hsaved]

end Engine

end DoorBridge
