import DoorBridge.Arbiter.Script
import DoorBridge.Proofs.Engine.Agenda
import DoorBridge.Proofs.Engine.Senses
import DoorBridge.Proofs.Life
import Mathlib.Data.List.Induction

/-!
# Proofs.Sensor — what is remembered of a motion sensor

* `Flag` is what a bridge knows of a motion sensor: in the engine, as an order for the next flush, and in the store.  A
  report of the sensor is noticed once (`Flag.notice`); a flush carries the order out, or drops it if the write fails
  (`Flag.save`).
* `Logged.flag_take` says that nothing else in a boot without a reset touches it, so after any such boot the flag is in
  one of four states (`Kept`, `Logged.kept_run`).
* `sensor_remembered_iff`: a sensor that has reported is remembered, by the store or by an order to store it, exactly if
  the store had it from the start, or the boot did not know it and no flush dropped the order.
-/

namespace DoorBridge

/-! ## The flag -/

/-- What a bridge knows of a motion sensor. -/
structure Flag where
  known : Bool
  /-- Whether the next flush is to store it. -/
  owed : Bool
  /-- What was reported with each discovery, in order. -/
  found : List Bool
  stored? : Option (List UInt8)

namespace Flag

/-- Takes a report of the sensor. -/
def notice (f : Flag) (rebootRequired : Bool) : Flag :=
  if f.known then f else { f with known := true, owed := true, found := f.found ++ [rebootRequired] }

/-- Carries out an order to store it; if the write fails the order is gone all the same. -/
def save (f : Flag) (works : Bool) : Flag :=
  { f with owed := false, stored? := if f.owed && works then some [1] else f.stored? }

/-- Whether the sensor will be known after a restart: the store has it, or is to get it. -/
def Remembered (f : Flag) : Prop := f.stored? = some [1] ∨ f.owed = true

/-- What became of a flag that was not owed to the store, and whether an order to store it was dropped. -/
inductive Kept (f : Flag) : Flag → Bool → Prop
  | same : Kept f f false
  /-- The sensor was discovered, and that has yet to be stored. -/
  | owed (hnew : f.known = false) (reboot : Bool) :
      Kept f { f with known := true, owed := true, found := f.found ++ [reboot] } false
  | stored (hnew : f.known = false) (reboot : Bool) :
      Kept f { f with known := true, found := f.found ++ [reboot], stored? := some [1] } false
  /-- It was discovered, and the write failed. -/
  | dropped (hnew : f.known = false) (reboot : Bool) :
      Kept f { f with known := true, found := f.found ++ [reboot] } true

namespace Kept

variable {f f' : Flag} {lost : Bool}

theorem notice (h : Kept f f' lost) (reboot : Bool) : Kept f (f'.notice reboot) lost := by
  unfold Flag.notice
  cases h with
  | same =>
    cases hknown : f.known with
    | true => exact .same
    | false => exact .owed hknown reboot
  | owed hnew found => exact .owed hnew found
  | stored hnew found => exact .stored hnew found
  | dropped hnew found => exact .dropped hnew found

/-- A flush stores what is owed or drops it; with nothing owed it changes nothing. -/
theorem save (howed : f.owed = false) (h : Kept f f' lost) (works : Bool) :
    Kept f (f'.save works) (lost || f'.owed && !works) := by
  have hidle {x : Flag} (hx : x.owed = false) (hkept : Kept f x lost) :
      Kept f (x.save works) (lost || x.owed && !works) := by
    have hsame : x.save works = x := by
      unfold Flag.save
      rw [hx]
      exact congrArg (fun owed => { x with owed }) hx.symm
    rwa [hsame, hx, Bool.false_and, Bool.or_false]
  cases h with
  | same => exact hidle howed .same
  | owed hnew reboot =>
    cases works with
    | true => simpa [Flag.save, howed] using Kept.stored hnew reboot
    | false => simpa [Flag.save, howed] using Kept.dropped hnew reboot
  | stored hnew reboot => exact hidle howed (.stored hnew reboot)
  | dropped hnew reboot => exact hidle howed (.dropped hnew reboot)

/-- **When a known sensor is remembered.** -/
theorem remembered_iff (howed : f.owed = false) (h : Kept f f' lost) (hknown : f'.known = true) :
    f'.Remembered ↔ f.stored? = some [1] ∨ f.known = false ∧ lost = false := by
  unfold Flag.Remembered
  cases h with
  | same => simp [howed, hknown]
  | owed hnew reboot => simp [hnew]
  | stored hnew reboot => simp [hnew]
  | dropped hnew reboot => simp [howed]

theorem length_found_le (h : Kept f f' lost) : f'.found.length ≤ f.found.length + 1 := by
  cases h with
  | same => exact Nat.le_succ _
  | owed hnew reboot | stored hnew reboot | dropped hnew reboot => exact Nat.le_of_eq List.length_append

theorem found_of_known (h : Kept f f' lost) (hknown : f.known = true) : f'.found = f.found := by
  cases h with
  | same => rfl
  | owed hnew reboot | stored hnew reboot | dropped hnew reboot =>
    rw [hnew] at hknown
    contradiction

end Kept

end Flag

/-! ## What operations do to it -/

namespace Senses

/-- What the senses know of a sensor, over a store that holds a given record. -/
def flag (s : Senses) (stored? : Option (List UInt8)) : Flag := ⟨s.known, s.owed, s.found, stored?⟩

variable (s : Senses) (now : Nat) (stored? : Option (List UInt8))

@[simp] theorem flag_expire : (s.expire now).flag stored? = s.flag stored? := rfl

@[simp] theorem flag_stir (trigger : MotionTrigger) : (s.stir trigger now).flag stored? = s.flag stored? := by
  unfold stir
  split <;> rfl

@[simp] theorem flag_beam (obstructed : Bool) : (s.beam obstructed now).flag stored? = s.flag stored? := by
  unfold beam
  split
  · rw [flag_stir]
    rfl
  · rfl

theorem flag_discover :
    s.discover.flag stored? = (s.flag stored?).notice ((s.triggers.set .motion true).only .motion) := by
  have hknown : (s.flag stored?).known = s.known := rfl
  unfold discover Flag.notice
  rw [hknown]
  split <;> rfl

end Senses

namespace Engine

/-- Whether an operation brings a report of the motion sensor. -/
def hearsMotion {σ : Type} (e : Engine) : Operation σ → Bool
  | .byte byte now => e.inbound? byte now = some (.packet .motion)
  | _ => false

variable {e : Engine} (stored? : Option (List UInt8))

/-- Only a report of the sensor is noticed of all that is received. -/
theorem flag_sensesHeard (x : Inbound) (now : Nat) : (e.sensesHeard x now).flag stored? =
    if x = .packet .motion then
      (e.senses.flag stored?).notice ((e.senses.triggers.set .motion true).only .motion)
    else e.senses.flag stored? := by
  have hpressed : (if x.isPress then e.senses.press now else e.senses).flag stored? = e.senses.flag stored? := by
    split <;> rfl
  rw [sensesHeard.eq_def]
  dsimp only
  by_cases hx : x = .packet .motion
  · subst hx
    rw [if_pos rfl, ← Senses.flag_discover]
    rfl
  · rw [if_neg hx]
    split
    · exact absurd rfl hx
    · cases e.stirs x with
      | none => exact hpressed
      | some trigger =>
        rw [Option.map_some, Option.getD_some, Senses.flag_stir, hpressed]

/-- **What an operation between start and flush makes of the flag.** -/
theorem flag_after {σ : Type} [Storage σ] {o : Operation σ} (hstart : o.isStart = false) (hflush : o.isFlush = false) :
    (e.after o).senses.flag stored? =
      if e.hearsMotion o then (e.senses.flag stored?).notice ((e.senses.triggers.set .motion true).only .motion)
      else e.senses.flag stored? := by
  rw [senses_after]
  cases o with
  | start store entropy now => contradiction
  | flush store => contradiction
  | byte byte now =>
    rw [sensesAfter, hearsMotion]
    cases e.inbound? byte now with
    | none => rfl
    | some x =>
      rw [Option.map_some, Option.getD_some, flag_sensesHeard]
      by_cases hx : x = .packet .motion <;> simp [hx]
  | obstruction obstructed now => exact Senses.flag_beam _ _ _ _
  | request | call | beat | press | tick => rfl

/-- A flush without a reset carries out the order to store the flag, whatever else it does. -/
theorem flag_flush (hreset : e.pending.reset = false) (s : MemoryStore) :
    (e.flush s).2.1.senses.flag ((e.flush s).2.2.value? .hasMotion) =
      (e.senses.flag (s.value? .hasMotion)).save (s.fault? .hasMotion .write).isNone := by
  have hstored : (e.flush s).2.2.value? .hasMotion =
      if e.pending.hasMotion && (s.fault? .hasMotion .write).isNone then some [1] else s.value? .hasMotion := by
    have hcounter (x : Engine) (s : MemoryStore) :
        (x.flushCounter s).2.2.value? .hasMotion = s.value? .hasMotion := by
      unfold flushCounter
      dsimp only
      split
      · dsimp only
        rw [Identity.store_save, MemoryStore.value?_tryWrite_of_ne (by decide)]
      · rfl
    unfold flush
    rw [hreset, if_neg Bool.false_ne_true]
    dsimp only
    rw [hcounter, store_flushMotion]
    cases e.pending.hasMotion with
    | false => rfl
    | true => simp [MemoryStore.value?_tryWrite]
  rw [hstored, senses_flush]
  rfl

/-- The order to reset stays as it is, unless somebody gives it. -/
theorem reset_after {σ : Type} [Storage σ] (h : e.pending.reset = false) {o : Operation σ}
    (ho : o.request? ≠ some .reset) : (e.after o).pending.reset = false := by
  cases hflush : o.isFlush with
  | true =>
    cases o with
    | flush store => exact congrArg Agenda.reset (agenda_flush e store)
    | _ => contradiction
  | false =>
    obtain ⟨arbiter, horders⟩ := orders_after e hflush
    have hreset : (e.after o).pending.reset = (e.pending.reset || decide (o.request? = some .reset)) :=
      congrArg Agenda.reset horders
    rw [hreset, h, decide_eq_false ho]
    rfl

/-- A pass makes of the flag what its flush does. -/
theorem flag_service {β : Type} [Bus β] (hreset : e.pending.reset = false) (bus : β) (s : MemoryStore) (now : Nat) :
    (e.service bus s now).1.pending.reset = false ∧
      (e.service bus s now).1.senses.flag ((e.service bus s now).2.2.value? .hasMotion) =
        (e.senses.flag (s.value? .hasMotion)).save (s.fault? .hasMotion .write).isNone := by
  have hticked : (e.tick now).pending.reset = false := reset_after hreset (o := (.tick now : Operation MemoryStore)) nofun
  have hagenda := (e.tick now).agenda_transmitNext now bus
  have hsenses : ((e.tick now).transmitNext bus now).2.1.senses = e.senses.expire now := by
    rw [senses_transmitNext, senses_tick]
  rw [service]
  dsimp only
  generalize ((e.tick now).transmitNext bus now).2.1 = sent at hagenda hsenses ⊢
  have hsent : sent.pending.reset = false := (congrArg Agenda.reset hagenda).trans hticked
  refine ⟨congrArg Agenda.reset (agenda_flush sent s), ?_⟩
  rw [flag_flush hsent, hsenses, Senses.flag_expire]

end Engine

/-! ## Boots -/

/-- The operation that a step is, if it does nothing but that one and does not flush. -/
def BootStep.operation? {β : Type} : BootStep β → Option (Operation MemoryStore)
  | .byte b now => some (.byte b now)
  | .request r => some (.request r)
  | .call r => some (.call r)
  | .beat => some .beat
  | .obstruction obstructed now => some (.obstruction obstructed now)
  | .press now => some (.press now)
  | .tick now => some (.tick now)
  | .flush | .service .. => none

/-- Such a step asks for a reset if the operation does, and the operation neither starts nor flushes. -/
theorem BootStep.spec_of_operation? {β : Type} {s : BootStep β} {o : Operation MemoryStore}
    (h : s.operation? = some o) :
    o.isStart = false ∧ o.isFlush = false ∧ s.flushes = false ∧ (s.isReset = false → o.request? ≠ some .reset) := by
  cases s with
  | flush => contradiction
  | service bus now => contradiction
  | request r | call r =>
    obtain rfl := Option.some.inj h
    refine ⟨rfl, rfl, rfl, fun hquiet hreset => ?_⟩
    obtain rfl : r = .reset := Option.some.inj hreset
    contradiction
  | _ =>
    obtain rfl := Option.some.inj h
    exact ⟨rfl, rfl, rfl, fun _ => nofun⟩

namespace Logged

variable {β : Type} [Bus β]

/-- Whether a boot meets an incident of a kind that depends on the boot so far. -/
def meets (kind : Logged → Incident β → Bool) (l : Logged) : List (Incident β) → Bool
  | [] => false
  | i :: incidents => kind l i || (l.take i).meets kind incidents

theorem meets_concat (kind : Logged → Incident β → Bool) (l : Logged) (incidents : List (Incident β))
    (i : Incident β) :
    l.meets kind (incidents ++ [i]) = (l.meets kind incidents || kind (incidents.foldl take l) i) := by
  induction incidents generalizing l with
  | nil => simp [meets]
  | cons j incidents ih => simp [meets, ih, Bool.or_assoc]

/-- Whether an incident brings a report of the motion sensor. -/
def hearsMotion (l : Logged) : Incident β → Bool
  | .step s => (s.operation?.map l.bridge.engine.hearsMotion).getD false
  | _ => false

/-- Whether a flush is to store the flag and cannot. -/
def dropsFlag (l : Logged) (i : Incident β) : Bool :=
  i.flushes && (l.bridge.engine.pending.hasMotion && !(l.bridge.store.fault? .hasMotion .write).isNone)

def flag (l : Logged) : Flag := l.bridge.engine.senses.flag (l.bridge.store.value? .hasMotion)

variable {l : Logged}

/-- A step that is an operation does that and nothing else. -/
theorem bridge_take_of_operation? {s : BootStep β} {o : Operation MemoryStore} (h : s.operation? = some o) :
    (l.take (.step s)).bridge = l.bridge.withEngine (l.bridge.engine.after o) := by
  cases s with
  | flush => contradiction
  | service bus now => contradiction
  | _ =>
    obtain rfl := Option.some.inj h
    rfl

/-- What became of the flag with one incident. -/
inductive FlagCase (l : Logged) (i : Incident β) : Flag → Prop
  | same (hflushes : i.flushes = false) (hdeaf : l.hearsMotion i = false) : FlagCase l i l.flag
  | noticed (hflushes : i.flushes = false) (reboot : Bool) : FlagCase l i (l.flag.notice reboot)
  | saved (hflushes : i.flushes = true) (hdeaf : l.hearsMotion i = false) :
      FlagCase l i (l.flag.save (l.bridge.store.fault? .hasMotion .write).isNone)

/-- A flush carries out what is owed to the store. -/
theorem flag_flush (hreset : l.bridge.engine.pending.reset = false) :
    l.flush.bridge.engine.pending.reset = false ∧
      l.flush.flag = l.flag.save (l.bridge.store.fault? .hasMotion .write).isNone :=
  ⟨congrArg Agenda.reset (l.bridge.engine.agenda_flush l.bridge.store), Engine.flag_flush hreset l.bridge.store⟩

/-- A pass of a boot is logged, and is the pass of its engine. -/
theorem flag_service (hreset : l.bridge.engine.pending.reset = false) (bus : β) (now : Nat) :
    (l.take (.step (.service bus now))).bridge.engine.pending.reset = false ∧
      (l.take (.step (.service bus now))).flag = l.flag.save (l.bridge.store.fault? .hasMotion .write).isNone := by
  obtain ⟨hengine, hstore⟩ := l.bridge.service_eq bus now
  have hpass := Engine.flag_service hreset bus l.bridge.store now
  rw [flag, bridge_take, Bridge.take, hengine, hstore]
  exact hpass

/-- **What an incident makes of the flag**, as long as nobody asks for a reset. -/
theorem flag_take (hreset : l.bridge.engine.pending.reset = false) {i : Incident β} (hquiet : i.isReset = false) :
    (l.take i).bridge.engine.pending.reset = false ∧ FlagCase l i (l.take i).flag := by
  cases i with
  | send bus now =>
    have hagenda := l.bridge.engine.agenda_transmitNext now (Tap.mk bus l.bridge.rows)
    have hsenses := l.bridge.engine.senses_transmitNext now (Tap.mk bus l.bridge.rows)
    have hflag : (l.take (.send bus now)).flag = l.flag := congrArg (Senses.flag · _) hsenses
    refine ⟨(congrArg Agenda.reset hagenda).trans hreset, ?_⟩
    rw [hflag]
    exact .same rfl rfl
  | fault key access cause? => exact ⟨hreset, .same rfl rfl⟩
  | step s =>
    cases hoperation : s.operation? with
    | some o =>
      have hbridge := bridge_take_of_operation? (l := l) hoperation
      obtain ⟨hstart, hflush, hflushes, hrequest⟩ := BootStep.spec_of_operation? hoperation
      have hears : l.hearsMotion (.step s) = l.bridge.engine.hearsMotion o := by
        rw [hearsMotion, hoperation]
        rfl
      have hflag := Engine.flag_after (e := l.bridge.engine) (l.bridge.store.value? .hasMotion) hstart hflush
      rw [flag, hbridge]
      refine ⟨Engine.reset_after hreset (hrequest hquiet), ?_⟩
      change FlagCase l (.step s) ((l.bridge.engine.after o).senses.flag (l.bridge.store.value? .hasMotion))
      rw [hflag]
      split
      · exact .noticed (i := .step s) hflushes _
      · next hdeaf => exact .same hflushes (hears.trans ((Bool.not_eq_true _).mp hdeaf))
    | none =>
      cases s with
      | flush =>
        obtain ⟨hafter, hflag⟩ := flag_flush hreset
        exact ⟨hafter, hflag ▸ .saved rfl rfl⟩
      | service bus now =>
        obtain ⟨hafter, hflag⟩ := flag_service hreset bus now
        exact ⟨hafter, hflag ▸ .saved rfl rfl⟩
      | _ => contradiction

/-- **What became of the flag in a boot without a reset**, if it was not owed to the store at first. -/
theorem kept_run (howed : l.flag.owed = false) (hreset : l.bridge.engine.pending.reset = false)
    {incidents : List (Incident β)} (hquiet : ∀ i ∈ incidents, i.isReset = false) :
    (incidents.foldl take l).bridge.engine.pending.reset = false ∧
      l.flag.Kept (incidents.foldl take l).flag (l.meets dropsFlag incidents) ∧
      (l.meets hearsMotion incidents = true → (incidents.foldl take l).flag.known = true) := by
  induction incidents using List.reverseRecOn with
  | nil => exact ⟨hreset, .same, nofun⟩
  | append_singleton incidents i ih =>
    obtain ⟨hbefore, hi⟩ := List.forall_mem_append.mp hquiet
    obtain ⟨hreset, hkept, hheard⟩ := ih hbefore
    rw [List.foldl_append, List.foldl_cons, List.foldl_nil, meets_concat, meets_concat]
    generalize hlate : incidents.foldl take l = late at hreset hkept hheard ⊢
    obtain ⟨hafter, hcase⟩ := flag_take hreset (hi i List.mem_cons_self)
    refine ⟨hafter, ?_⟩
    have hidle (hflushes : i.flushes = false) : late.dropsFlag i = false := by
      rw [dropsFlag, hflushes, Bool.false_and]
    generalize (late.take i).flag = flag at hcase ⊢
    cases hcase with
    | same hflushes hdeaf =>
      rw [hidle hflushes, hdeaf, Bool.or_false, Bool.or_false]
      exact ⟨hkept, hheard⟩
    | noticed hflushes reboot =>
      have hknown : (late.flag.notice reboot).known = true := by
        unfold Flag.notice
        split
        · assumption
        · rfl
      rw [hidle hflushes, Bool.or_false]
      exact ⟨hkept.notice reboot, fun _ => hknown⟩
    | saved hflushes hdeaf =>
      have hdrops : late.dropsFlag i =
          (late.flag.owed && !(late.bridge.store.fault? .hasMotion .write).isNone) := by
        rw [dropsFlag, hflushes, Bool.true_and]
        rfl
      rw [hdrops, hdeaf, Bool.or_false]
      exact ⟨hkept.save howed _, hheard⟩

end Logged

/-! ## The start -/

/-- The store says that there is a motion sensor, and can be read. -/
def MemoryStore.KnowsSensor (s : MemoryStore) : Prop :=
  s.fault? .hasMotion .read = none ∧ ∃ flag, flag ≠ 0 ∧ s.value? .hasMotion = some [flag]

theorem Senses.known_load (s : Senses) (hnew : s.known = false) (store : MemoryStore) :
    (s.load (Storage.read store .hasMotion 1)).known = true ↔ store.KnowsSensor := by
  unfold MemoryStore.KnowsSensor
  simp only [Storage.read]
  cases store.fault? .hasMotion .read with
  | some cause => simp [Senses.load, hnew]
  | none =>
    cases store.value? .hasMotion with
    | none => simp [Senses.load, hnew]
    | some bytes =>
      rcases bytes with _ | ⟨flag, _ | ⟨next, rest⟩⟩
      · simp [Senses.load, hnew]
      · by_cases hflag : flag = 0 <;> simp [Senses.load, hnew, hflag]
      · simp [Senses.load, hnew]

namespace Engine

/-- What a start writes leaves the flag alone. -/
theorem flag_loadIdentity (e : Engine) (store : MemoryStore) (entropy : UInt32) :
    (e.loadIdentity store entropy).2.2.value? .hasMotion = store.value? .hasMotion ∧
      (e.loadIdentity store entropy).2.2.fault? = store.fault? := by
  unfold loadIdentity
  split
  · dsimp only
    rw [Identity.store_restore, Identity.store_establishId]
    split <;> simp [MemoryStore.value?_tryWrite_of_ne]
  · exact ⟨rfl, rfl⟩

theorem store_start (e : Engine) (store : MemoryStore) (entropy : UInt32) (now : Nat) :
    (e.start store entropy now).2.2 = (e.loadIdentity store entropy).2.2 := by
  unfold start
  dsimp only
  split
  · exact store_loadIdentity_emit e _ store entropy
  · exact store_loadIdentity_emit e _ store entropy

end Engine

namespace Logged

/-- A boot begins with the flag as the store has it. -/
theorem flag_start (settings : Settings) (store : MemoryStore) (entropy : UInt32) (now : Nat) :
    let l := start settings store entropy now
    l.bridge.engine.pending.reset = false ∧ l.flag.owed = false ∧ l.flag.found = [] ∧
      l.flag.stored? = store.value? .hasMotion ∧ (l.flag.known = true ↔ store.KnowsSensor) := by
  intro l
  have hstore : l.bridge.store = ((Engine.new settings).loadIdentity store entropy).2.2 :=
    (Engine.new settings).store_start store entropy now
  obtain ⟨hfound, hfaults⟩ := (Engine.new settings).flag_loadIdentity store entropy
  have hread : Storage.read ((Engine.new settings).loadIdentity store entropy).2.2 .hasMotion 1 =
      Storage.read store .hasMotion 1 := by
    simp only [Storage.read]
    rw [hfound, hfaults]
  have hsenses : l.bridge.engine.senses = (Engine.new settings).senses.load (Storage.read store .hasMotion 1) := by
    rw [← hread]
    exact (Engine.new settings).senses_start now store entropy
  have hreset : l.bridge.engine.pending.reset = false :=
    Engine.reset_after (e := .new settings) rfl (o := .start store entropy now) nofun
  have hload (found : Except StorageError (List UInt8)) :
      ((Engine.new settings).senses.load found).owed = false ∧
        ((Engine.new settings).senses.load found).found = [] := by
    rw [Senses.load.eq_def]
    split
    · split <;> exact ⟨rfl, rfl⟩
    · exact ⟨rfl, rfl⟩
  have hflag : l.flag = ((Engine.new settings).senses.load (Storage.read store .hasMotion 1)).flag
      (store.value? .hasMotion) := by
    rw [flag, hsenses, hstore, hfound]
  rw [hflag]
  exact ⟨hreset, (hload _).1, (hload _).2, rfl, Senses.known_load _ rfl store⟩

end Logged

/-- **A discovered motion sensor is remembered exactly if no write of its flag fails.**  In a boot without a reset, over
any store and with any faults, let a sensor have reported.  Then the store has its flag, or the next flush is to store
it, exactly in two cases: the store had the flag from the start, or the boot did not know of a sensor and no flush that
was to store the flag met a failing write.  A discovery is notified at most once in a boot, and not at all if the
start read that there is a sensor. -/
theorem sensor_remembered_iff {β : Type} [Bus β] (settings : Settings) (store : MemoryStore) (entropy : UInt32)
    (now : Nat) {incidents : List (Incident β)} (hquiet : ∀ i ∈ incidents, i.isReset = false) :
    let boot := Logged.start settings store entropy now
    let b := (incidents.foldl Logged.take boot).bridge
    (boot.meets Logged.hearsMotion incidents = true →
      (b.store.value? .hasMotion = some [1] ∨ b.engine.pending.hasMotion = true ↔
        store.value? .hasMotion = some [1] ∨
          ¬ store.KnowsSensor ∧ boot.meets Logged.dropsFlag incidents = false)) ∧
      (discoveriesIn b.engine.events).length ≤ 1 ∧ (store.KnowsSensor → discoveriesIn b.engine.events = []) := by
  intro boot b
  obtain ⟨hreset, howed, hfound, hstored, hknown⟩ := Logged.flag_start settings store entropy now
  obtain ⟨-, hkept, hheard⟩ := Logged.kept_run howed hreset hquiet
  have hunknown : boot.flag.known = false ↔ ¬ store.KnowsSensor := by
    rw [← hknown, Bool.not_eq_true]
  refine ⟨fun hmotion => ?_, ?_, fun hknows => ?_⟩
  · rw [← hstored, ← hunknown]
    exact hkept.remembered_iff howed (hheard hmotion)
  · have hlength := hkept.length_found_le
    rw [hfound] at hlength
    exact hlength
  · exact (hkept.found_of_known (hknown.mpr hknows)).trans hfound

/-- The bytes of a report of the motion sensor. -/
def motionReport (now : Nat) : List (Incident BusScript) :=
  match Message.encode ⟨.motion, 100, 0x333539⟩ with
  | .ok frame => frame.bytes.map fun b => .step (.byte b now)
  | .error _ => []

/-- A sensor reports twice, and the first flush meets a store that cannot be written for a while. -/
def brokenBoot : List (Incident BusScript) :=
  .fault .hasMotion .write (some .flash) :: motionReport 1000 ++
    [.step .flush, .fault .hasMotion .write none] ++ motionReport 2000 ++ [.step .flush, .step .flush]

/-- The same with a store that works, and a pass in place of the first flush. -/
def workingBoot : List (Incident BusScript) :=
  motionReport 1000 ++ [.step (.service {} 1000)] ++ motionReport 2000

/-- With a store that works the pass after the discovery stores the flag, and it is reported once. -/
theorem sensor_remembered_iff_works :
    let boot := Logged.start {} {} 7 0
    let b := (workingBoot.foldl Logged.take boot).bridge
    (∀ i ∈ workingBoot, i.isReset = false) ∧ boot.meets Logged.hearsMotion workingBoot = true ∧
      boot.meets Logged.dropsFlag workingBoot = false ∧
      (b.store.value? .hasMotion = some [1] ∨ b.engine.pending.hasMotion = true) ∧
      discoveriesIn b.engine.events = [true] := by
  have hquiet : ∀ i ∈ workingBoot, i.isReset = false := by decide +kernel
  have hheard : (Logged.start {} {} 7 0).meets Logged.hearsMotion workingBoot = true := by decide +kernel
  have hkept : (Logged.start {} {} 7 0).meets Logged.dropsFlag workingBoot = false := by decide +kernel
  have hnew : ¬ MemoryStore.KnowsSensor {} := fun ⟨_, _, _, hstored⟩ => Option.some_ne_none _ hstored.symm
  have hremembered := (sensor_remembered_iff {} {} 7 0 hquiet).1 hheard
  exact ⟨hquiet, hheard, hkept, hremembered.mpr (.inr ⟨hnew, hkept⟩), by decide +kernel⟩

/-- The failed write is not tried again: although the sensor reports once more and the store works again by then, two
more flushes leave the store without the flag. -/
theorem sensor_forgotten :
    let boot := Logged.start {} {} 7 0
    let b := (brokenBoot.foldl Logged.take boot).bridge
    (∀ i ∈ brokenBoot, i.isReset = false) ∧ boot.meets Logged.hearsMotion brokenBoot = true ∧
      b.engine.door.hasMotionSensor = true ∧
      ¬ (b.store.value? .hasMotion = some [1] ∨ b.engine.pending.hasMotion = true) := by
  decide +kernel

end DoorBridge
