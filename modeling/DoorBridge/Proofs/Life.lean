import DoorBridge.Proofs.Chronicle
import DoorBridge.Proofs.Session.Codes

/-!
# Proofs.Life — the id of a station, from its first boot to a reset

* `Identity.Settles s entropy id`: a start over a store takes an id and stores it.  On an empty store it takes a new one
  (`settles_empty`), and from then on the stored one (`settles_stored`).
* `Logged.Bears id`: the engine has an id, and so has every frame.  Nothing in a boot changes that (`Bears.take`).
* `Logged.Keeps id`: the store has it too, as long as nobody asks for a reset (`keeps_run`), and leaves it to the next
  boot (`Chronicle.Owned.add`).
* `gone_after_reset`: the flush that carries out a reset leaves none of the records of the station.
* `identity_fixed_for_life` puts these together.
-/

namespace DoorBridge

/-! ## Ids -/

namespace Identity

/-- A new id is twelve bits, not all of them zero, above a fixed suffix. -/
theorem exists_deriveId_eq (entropy : UInt32) :
    ∃ r, 1 ≤ r ∧ r ≤ 0xfff ∧ (deriveId entropy).toNat = r <<< 12 ||| 0x539 := by
  refine ⟨entropy.toNat % 0xfff + 1, by omega, by omega, ?_⟩
  have hsuffix : 0x539 < 2 ^ 12 := by decide
  rw [← Nat.shiftLeft_add_eq_or_of_lt hsuffix, Nat.shiftLeft_eq, deriveId, UInt32.toNat_ofNat']
  omega

/-- A start over a store takes an id, and the store has it afterwards. -/
def Settles (s : MemoryStore) (entropy id : UInt32) : Prop :=
  (establishId s entropy).1 = id ∧ (establishId s entropy).2.1.value? .idCode = some (wordBytes id)

variable {s : MemoryStore}

theorem settles_empty (hworks : s.Works) (hempty : s.value? .idCode = none) (entropy : UInt32) :
    Settles s entropy (deriveId entropy) := by
  have hfound := loadId_of_missing (hworks .idCode .read) hempty
  constructor
  · rw [fst_establishId, hfound, Option.getD_none]
  · rw [id_establishId, if_pos ⟨hfound, hworks .idCode .write⟩]

theorem settles_stored {id : UInt32} (hworks : s.Works) (hid : id ≠ 0)
    (hstored : s.value? .idCode = some (wordBytes id)) (entropy : UInt32) : Settles s entropy id := by
  have hfound := loadId_of_value? (hworks .idCode .read) hstored hid
  constructor
  · rw [fst_establishId, hfound, Option.getD_some]
  · rw [id_establishId, hfound, if_neg fun h => Option.some_ne_none id h.1, hstored]

end Identity

/-! ## In a boot -/

/-- A row decodes to a message of the station with an id. -/
def IsFrom (id : UInt32) (row : List UInt8) : Prop :=
  ∃ packet code, readRow? row = some (.ok ⟨packet, code, id⟩)

/-- Whether somebody asks for a reset. -/
def Incident.isReset {β : Type} : Incident β → Bool
  | .step s => s.isReset
  | _ => false

def Incident.flushes {β : Type} : Incident β → Bool
  | .step s => s.flushes
  | _ => false

namespace Logged

/-- The engine has an id, and every frame carries it. -/
structure Bears (id : UInt32) (l : Logged) : Prop where
  security : l.bridge.engine.settings.security = .plus2
  idCode : l.bridge.engine.identity.idCode = id
  rows : ∀ row ∈ framesOf l.log, IsFrom id row

variable {β : Type} [Bus β] {id : UInt32} {l : Logged}

theorem Bears.of_stamp {l' : Logged} (h : l.Bears id) (hstamp : l'.bridge.engine.stamp = l.bridge.engine.stamp)
    (hframes : framesOf l'.log = framesOf l.log) : l'.Bears id where
  security := (congrArg Prod.fst hstamp).trans h.security
  idCode := (congrArg (·.2.1) hstamp).trans h.idCode
  rows := by
    rw [hframes]
    exact h.rows

theorem framesOf_afterSending (l : Logged) (b : Bridge) :
    framesOf (l.afterSending b).log = framesOf l.log ++ b.rows.drop l.bridge.rows.length := by
  have hframes (rows : List (List UInt8)) : framesOf (rows.map .frame) = rows := by
    rw [framesOf, List.filterMap_map]
    exact List.filterMap_some
  have hcodes (k : Nat) : framesOf (List.replicate k .code) = [] := List.filterMap_replicate_of_none rfl
  have hlog : (l.afterSending b).log = l.log ++ (b.rows.drop l.bridge.rows.length).map .frame ++
      List.replicate (b.codesUsed - l.bridge.codesUsed) .code := rfl
  rw [hlog, framesOf, List.filterMap_append, List.filterMap_append]
  change framesOf l.log ++ framesOf _ ++ framesOf _ = _
  rw [hframes, hcodes, List.append_nil]

theorem framesOf_flush (l : Logged) : framesOf l.flush.log = framesOf l.log := by
  rw [flush, attempts]
  dsimp only
  split
  · exact framesOf_save ..
  · rw [List.append_nil]

theorem isFrom_encode {e : Engine} (hplus2 : e.settings.security = .plus2) {packet : Packet} {row : List UInt8}
    (h : e.encode packet = .ok row) : IsFrom e.identity.idCode row :=
  ⟨_, _, Engine.decode_row hplus2 h⟩

/-- What a try to send hands over carries the id, and of the core it changes no more than the counter. -/
theorem send_spec {b : Bridge} (hplus2 : b.engine.settings.security = .plus2) (bus : β) (now : Nat) :
    (∃ new, (b.send bus now).rows = b.rows ++ new ∧ ∀ row ∈ new, IsFrom b.engine.identity.idCode row) ∧
      ∃ identity, identity.idCode = b.engine.identity.idCode ∧
        (b.send bus now).engine.core = { b.engine.core with identity } := by
  obtain ⟨rows, hrows, htap⟩ := transmitNext_tap b.engine (Tap.mk bus b.rows) now
  have hcore := Engine.core_transmitNext hplus2 htap
  rw [Bridge.send, htap]
  dsimp only at hcore hrows ⊢
  constructor
  · rcases hrows with ⟨hsame, -⟩ | ⟨packet, row, hencode, hadd⟩
    · refine ⟨[], ?_, fun row hrow => absurd hrow List.not_mem_nil⟩
      rw [hsame, List.append_nil]
    · refine ⟨[row], hadd, fun row' hrow => ?_⟩
      rw [List.mem_singleton.mp hrow]
      exact isFrom_encode hplus2 hencode
  · rw [hcore]
    split
    · exact ⟨b.engine.identity.step, rfl, rfl⟩
    · exact ⟨b.engine.identity, rfl, rfl⟩

theorem Bears.send (h : l.Bears id) (bus : β) (now : Nat) : (l.afterSending (l.bridge.send bus now)).Bears id := by
  obtain ⟨⟨new, hrows, hnew⟩, identity, hid, hcore⟩ := send_spec h.security bus now
  obtain ⟨hidentity, hsecurity, -⟩ := Engine.core_eq_iff.mp hcore
  rw [h.idCode] at hid hnew
  refine ⟨hsecurity.trans h.security, (congrArg Identity.idCode hidentity).trans hid, ?_⟩
  rw [framesOf_afterSending, hrows, List.drop_left]
  intro row hrow
  exact (List.mem_append.mp hrow).elim (h.rows row) (hnew row)

theorem Bears.operate (h : l.Bears id) {o : Operation MemoryStore} (ho : o.isStart = false) :
    Bears id { l with bridge := l.bridge.withEngine (l.bridge.engine.after o) } :=
  h.of_stamp (Engine.stamp_after l.bridge.engine ho) rfl

theorem Bears.transmit (h : l.Bears id) (bus : β) (now : Nat) : (l.transmit bus now).Bears id := by
  have hticked : Bears id { l with bridge := l.bridge.withEngine (l.bridge.engine.tick now) } :=
    h.operate (o := .tick now) rfl
  exact hticked.send bus now

theorem Bears.flush (h : l.Bears id) : l.flush.Bears id :=
  h.of_stamp (Engine.stamp_after l.bridge.engine (o := .flush l.bridge.store) rfl) (framesOf_flush l)

theorem Bears.recordMotion (h : l.Bears id) : Bears id { l with bridge := l.bridge.recordMotion } :=
  h.of_stamp (Engine.stamp_of_core (Engine.core_flushMotion l.bridge.engine l.bridge.store)) rfl

/-- Whatever happens in a boot, a reset included, the engine keeps its id. -/
theorem Bears.take (h : l.Bears id) (incident : Incident β) : (l.take incident).Bears id := by
  cases incident with
  | send bus now => exact h.send bus now
  | fault key access cause? => exact h.of_stamp rfl rfl
  | step s =>
    cases s with
    | byte byte now => exact h.operate (o := .byte byte now) rfl
    | request r => exact h.operate (o := .request r) rfl
    | call r => exact h.operate (o := .call r) rfl
    | beat => exact h.operate (o := .beat) rfl
    | obstruction obstructed now => exact h.operate (o := .obstruction obstructed now) rfl
    | press now => exact h.operate (o := .press now) rfl
    | tick now => exact h.operate (o := .tick now) rfl
    | flush => exact h.flush
    | service bus now => exact (h.transmit bus now).flush

/-! ## As long as nobody asks for a reset -/

theorem reset_send (hbears : l.Bears id) (bus : β) (now : Nat) :
    (l.bridge.send bus now).engine.pending.reset = l.bridge.engine.pending.reset := by
  obtain ⟨-, identity, -, hcore⟩ := send_spec hbears.security bus now
  exact (Engine.core_eq_iff.mp hcore).2.2

theorem reset_transmit (hbears : l.Bears id) (bus : β) (now : Nat) :
    (l.transmit bus now).bridge.engine.pending.reset = l.bridge.engine.pending.reset := by
  obtain ⟨-, -, hreset⟩ := Engine.core_eq_iff.mp (Engine.core_tick l.bridge.engine now)
  exact (reset_send (hbears.operate (o := .tick now) rfl) bus now).trans hreset

/-- The store has the id as well, and no reset is pending. -/
structure Keeps (id : UInt32) (l : Logged) : Prop where
  bears : l.Bears id
  noReset : l.bridge.engine.pending.reset = false
  stored : l.bridge.store.value? .idCode = some (wordBytes id)

theorem Keeps.transmit (h : l.Keeps id) (bus : β) (now : Nat) : (l.transmit bus now).Keeps id :=
  ⟨h.bears.transmit bus now, (reset_transmit h.bears bus now).trans h.noReset, h.stored⟩

/-- A flush without a reset does not touch the id record. -/
theorem Keeps.flush (h : l.Keeps id) : l.flush.Keeps id := by
  obtain ⟨-, -, hreset⟩ :=
    Engine.core_eq_iff.mp (Engine.core_flush h.bears.security h.noReset l.bridge.store)
  have hstored : l.flush.bridge.store.value? .idCode = l.bridge.store.value? .idCode :=
    Engine.value?_flush h.bears.security h.noReset (by decide) (by decide) l.bridge.store
  exact ⟨h.bears.flush, hreset.trans h.noReset, hstored.trans h.stored⟩

theorem Keeps.recordMotion (h : l.Keeps id) : Keeps id { l with bridge := l.bridge.recordMotion } := by
  obtain ⟨-, -, hreset⟩ := Engine.core_eq_iff.mp (Engine.core_flushMotion l.bridge.engine l.bridge.store)
  exact ⟨h.bears.recordMotion, hreset.trans h.noReset,
    (Engine.value?_flushMotion (by decide) l.bridge.engine l.bridge.store).trans h.stored⟩

/-- Nothing but a reset reaches the id record. -/
theorem Keeps.take (h : l.Keeps id) {incident : Incident β} (hquiet : incident.isReset = false) :
    (l.take incident).Keeps id := by
  cases incident with
  | send bus now => exact ⟨h.bears.send bus now, (reset_send h.bears bus now).trans h.noReset, h.stored⟩
  | fault key access cause? => exact ⟨h.bears.take _, h.noReset, h.stored⟩
  | step s =>
    rcases l.bridge.take_cases hquiet with rfl | ⟨bus, now, rfl⟩ | ⟨hflushes, e, hcore, htake⟩
    · exact h.flush
    · exact (h.transmit bus now).flush
    · have hbears := h.bears.take (.step s)
      rw [take_of_not_flushes l hflushes, htake] at hbears ⊢
      exact ⟨hbears, (Engine.core_eq_iff.mp hcore).2.2.trans h.noReset, h.stored⟩

theorem Keeps.cutOff (h : l.Keeps id) (cut : Cut β) : (l.cutOff cut).Keeps id := by
  cases cut with
  | idle => exact h
  | sending bus now => exact h.transmit bus now
  | recording bus now => exact (h.transmit bus now).recordMotion
  | flushing => exact h.recordMotion

variable {settings : Settings} {s : MemoryStore} {entropy : UInt32}

theorem bears_start (hplus2 : settings.security = .plus2) (s : MemoryStore) (entropy : UInt32) (now : Nat) :
    (start settings s entropy now).Bears (Identity.establishId s entropy).1 := by
  obtain ⟨hidentity, hsecurity, -⟩ := Engine.core_eq_iff.mp (Engine.core_start hplus2 s entropy now).1
  rw [Identity.identity_restore] at hidentity
  have hframes : framesOf (start settings s entropy now).log = [] := by
    rw [start, attempts]
    dsimp only
    split <;> rfl
  refine ⟨hsecurity, congrArg Identity.idCode hidentity, ?_⟩
  rw [hframes]
  exact fun row hrow => absurd hrow List.not_mem_nil

theorem keeps_start (hplus2 : settings.security = .plus2) (hsettles : Identity.Settles s entropy id) (now : Nat) :
    (start settings s entropy now).Keeps id := by
  obtain ⟨hcore, hstore⟩ := Engine.core_start hplus2 s entropy now
  refine ⟨hsettles.1 ▸ bears_start hplus2 s entropy now, (Engine.core_eq_iff.mp hcore).2.2, ?_⟩
  rw [← hsettles.2, ← Identity.id_restore, ← hstore]
  rfl

/-- **A boot without a reset keeps the id that it settled on**, until it loses power. -/
theorem keeps_run (hplus2 : settings.security = .plus2) (hsettles : Identity.Settles s entropy id) (now : Nat)
    {incidents : List (Incident β)} (hquiet : ∀ i ∈ incidents, i.isReset = false) (cut : Cut β) :
    ((start settings s entropy now).run incidents cut).Keeps id := by
  refine Keeps.cutOff ?_ cut
  exact List.foldlRecOn incidents Logged.take (keeps_start hplus2 hsettles now) fun l hl i hi => hl.take (hquiet i hi)

end Logged

/-! ## Over many boots -/

section Boots

variable {β : Type}

def Stint.entropy : Stint β → UInt32
  | .failed entropy => entropy
  | .full _ entropy _ _ _ => entropy

/-- A Security+ 2.0 boot over a store that works, in which nobody asks for a reset. -/
def Stint.WithoutReset : Stint β → Prop
  | .failed _ => True
  | .full settings _ _ incidents _ =>
    settings.security = .plus2 ∧ ∀ i ∈ incidents, i.isReset = false ∧ i.isFault = false

/-- Everything works, and the store and all boots have the id. -/
structure Chronicle.Owned (id : UInt32) (h : Chronicle) : Prop where
  works : h.store.Works
  stored : h.store.value? .idCode = some (wordBytes id)
  boots : ∀ l ∈ h.boots, l.Keeps id

variable [Bus β] {h : Chronicle} {id : UInt32}

/-- A boot that settles on an id leaves it to the next one. -/
theorem Chronicle.owned_add {stint : Stint β} (hworks : h.store.Works) (hboots : ∀ l ∈ h.boots, l.Keeps id)
    (hstint : stint.WithoutReset) (hsettles : Identity.Settles h.store stint.entropy id) : (h.add stint).Owned id := by
  cases stint with
  | failed entropy => exact ⟨hworks.of_faults (Identity.fault?_establishId h.store entropy), hsettles.2, hboots⟩
  | full settings entropy now incidents cut =>
    obtain ⟨hplus2, hincidents⟩ := hstint
    have hkeeps := Logged.keeps_run hplus2 hsettles now (fun i hi => (hincidents i hi).1) cut
    have hfaults := Logged.fault?_run hplus2 h.store entropy now (fun i hi => (hincidents i hi).2) cut
    refine ⟨hworks.of_faults hfaults, hkeeps.stored, fun l hl => ?_⟩
    rcases List.mem_append.mp hl with hl | hl
    · exact hboots l hl
    · rw [List.mem_singleton.mp hl]
      exact hkeeps

theorem Chronicle.Owned.add (hid : id ≠ 0) (hh : h.Owned id) {stint : Stint β} (hstint : stint.WithoutReset) :
    (h.add stint).Owned id :=
  owned_add hh.works hh.boots hstint (Identity.settles_stored hh.works hid hh.stored stint.entropy)

theorem owned_first {store : MemoryStore} (hworks : store.Works) (hempty : store.value? .idCode = none)
    {first : Stint β} (hfirst : first.WithoutReset) :
    (chronicle store [first]).Owned (Identity.deriveId first.entropy) := by
  refine Chronicle.owned_add hworks (fun l hl => absurd hl List.not_mem_nil) hfirst ?_
  exact Identity.settles_empty hworks hempty first.entropy

theorem Chronicle.Owned.foldl (hid : id ≠ 0) (hh : h.Owned id) {stints : List (Stint β)}
    (hstints : ∀ stint ∈ stints, stint.WithoutReset) : (stints.foldl Chronicle.add h).Owned id :=
  List.foldlRecOn stints Chronicle.add hh fun _ hx stint hstint => hx.add hid (hstints stint hstint)

end Boots

/-! ## A reset -/

/-- Incidents that end with the flush that carries out a reset. -/
def CarriesOutReset {β : Type} (incidents : List (Incident β)) : Prop :=
  ∃ before reset between last, incidents = before ++ reset :: between ++ [last] ∧ reset.isReset = true ∧
    (∀ i ∈ between, i.flushes = false) ∧ last.flushes = true

namespace Logged

variable {β : Type} [Bus β] {id : UInt32} {l : Logged}

theorem reset_pending_of_isReset (l : Logged) {incident : Incident β} (h : incident.isReset = true) :
    (l.take incident).bridge.engine.pending.reset = true := by
  cases incident with
  | send bus now => contradiction
  | fault key access cause? => contradiction
  | step s =>
    cases s with
    | request r | call r =>
      cases r with
      | reset => rfl
      | _ => contradiction
    | _ => contradiction

/-- A reset stays pending until a flush. -/
theorem reset_pending_take (hbears : l.Bears id) (h : l.bridge.engine.pending.reset = true) {incident : Incident β}
    (hquiet : incident.flushes = false) : (l.take incident).bridge.engine.pending.reset = true := by
  cases hreset : incident.isReset with
  | true => exact reset_pending_of_isReset l hreset
  | false =>
    cases incident with
    | send bus now => exact (reset_send hbears bus now).trans h
    | fault key access cause? => exact h
    | step s =>
      rcases l.bridge.take_cases hreset with rfl | ⟨bus, now, rfl⟩ | ⟨-, e, hcore, htake⟩
      · contradiction
      · contradiction
      · rw [take_of_not_flushes l hquiet, htake]
        exact (Engine.core_eq_iff.mp hcore).2.2.trans h

theorem Bears.foldl_take (h : l.Bears id) (incidents : List (Incident β)) :
    (incidents.foldl Logged.take l).Bears id :=
  List.foldlRecOn incidents Logged.take h fun _ hl i _ => hl.take i

theorem reset_pending_foldl (hbears : l.Bears id) (h : l.bridge.engine.pending.reset = true)
    {incidents : List (Incident β)} (hquiet : ∀ i ∈ incidents, i.flushes = false) :
    (incidents.foldl take l).bridge.engine.pending.reset = true := by
  induction incidents generalizing l with
  | nil => exact h
  | cons i incidents ih =>
    obtain ⟨hi, hrest⟩ := List.forall_mem_cons.mp hquiet
    exact ih (hbears.take i) (reset_pending_take hbears h hi) hrest

/-- A flush with a reset pending removes the records of the station. -/
theorem gone_flush (hworks : l.bridge.store.Works) (h : l.bridge.engine.pending.reset = true) :
    ∀ key ∈ Engine.resetKeys, l.flush.bridge.store.value? key = none := by
  have hstore : l.flush.bridge.store = Engine.resetKeys.foldl MemoryStore.tryRemove l.bridge.store :=
    Engine.store_flush_reset h l.bridge.store
  intro key hkey
  rw [hstore, MemoryStore.value?_foldl_tryRemove, if_pos ⟨hkey, hworks key .remove⟩]

theorem gone_take (hbears : l.Bears id) (hworks : l.bridge.store.Works)
    (h : l.bridge.engine.pending.reset = true) {incident : Incident β} (hflushes : incident.flushes = true) :
    ∀ key ∈ Engine.resetKeys, (l.take incident).bridge.store.value? key = none := by
  cases incident with
  | send bus now => contradiction
  | fault key access cause? => contradiction
  | step s =>
    cases s with
    | flush => exact gone_flush hworks h
    | service bus now => exact gone_flush hworks ((reset_transmit hbears bus now).trans h)
    | _ => contradiction

/-- **After the flush that carries out a reset nothing is left of the station.** -/
theorem gone_after_reset {settings : Settings} {s : MemoryStore} (hplus2 : settings.security = .plus2)
    (hworks : s.Works) (entropy : UInt32) (now : Nat) {incidents : List (Incident β)}
    (hsound : ∀ i ∈ incidents, i.isFault = false) (hreset : CarriesOutReset incidents) :
    ∀ key ∈ Engine.resetKeys, (incidents.foldl take (start settings s entropy now)).bridge.store.value? key = none := by
  obtain ⟨before, reset, between, last, rfl, hasked, hquiet, hlast⟩ := hreset
  have hbears := bears_start hplus2 s entropy now
  have hpending : ((before ++ reset :: between).foldl take (start settings s entropy now)).bridge.engine.pending.reset =
      true := by
    rw [List.foldl_append, List.foldl_cons]
    have hasker := hbears.foldl_take before
    exact reset_pending_foldl (hasker.take reset) (reset_pending_of_isReset _ hasked) hquiet
  have hfaults := fault?_run hplus2 s entropy now (fun i hi => hsound i (List.mem_append_left [last] hi)) .idle
  rw [List.foldl_append]
  exact gone_take (hbears.foldl_take _) (hworks.of_faults hfaults) hpending hlast

end Logged

/-- A start over a store without a station makes a new one. -/
theorem start_afresh {settings : Settings} {s : MemoryStore} (hplus2 : settings.security = .plus2)
    (hworks : s.Works) (hid : s.value? .idCode = none) (hcounter : s.value? .rollingCode = none) (entropy : UInt32)
    (now : Nat) :
    let b := Bridge.start settings s entropy now
    b.engine.identity = ⟨Identity.deriveId entropy, 0, 0⟩ ∧
      b.store.value? .idCode = some (wordBytes (Identity.deriveId entropy)) ∧
      b.store.value? .rollingCode = some (wordBytes 0) := by
  intro b
  obtain ⟨hcore, hstore⟩ := Engine.core_start hplus2 s entropy now
  have hidentity := (Engine.core_eq_iff.mp hcore).1
  have hsettles := Identity.settles_empty hworks hid entropy
  have hzero := Identity.startCounter_of_missing (hworks .rollingCode .read) hcounter entropy
  have hafter : b.store = (Identity.restore s entropy).store := hstore
  rw [Identity.identity_restore, hsettles.1, hzero] at hidentity
  refine ⟨hidentity, ?_, ?_⟩
  · rw [hafter, Identity.id_restore, hsettles.2]
  · rw [hafter, Identity.counter_restore, if_pos (hworks .rollingCode .write), hzero]
    rfl

/-- **The id of a station is fixed for life.**  The first boot over an empty store settles on an id of the given form;
without a reset the store and every engine keep it through all boots, and every frame carries it; and the start that
comes after the flush that carries out a reset makes a new id from its own entropy and counts from zero. -/
theorem identity_fixed_for_life {β : Type} [Bus β] {store : MemoryStore} {first : Stint β} {rest : List (Stint β)}
    (hworks : store.Works) (hempty : store.value? .idCode = none)
    (hstints : ∀ stint ∈ first :: rest, stint.WithoutReset) :
    let id := Identity.deriveId first.entropy
    let h := chronicle store (first :: rest)
    (∃ r, 1 ≤ r ∧ r ≤ 0xfff ∧ id.toNat = r <<< 12 ||| 0x539) ∧
    (chronicle store [first]).store.value? .idCode = some (wordBytes id) ∧
    h.store.value? .idCode = some (wordBytes id) ∧
    (∀ l ∈ h.boots, l.bridge.store.value? .idCode = some (wordBytes id) ∧ l.bridge.engine.identity.idCode = id ∧
      ∀ row ∈ framesOf l.log, ∃ packet code, readRow? row = some (.ok ⟨packet, code, id⟩)) ∧
    ∀ (settings : Settings) (entropy : UInt32) (now : Nat) (incidents : List (Incident β)),
      settings.security = .plus2 → (∀ i ∈ incidents, i.isFault = false) → CarriesOutReset incidents →
      let gone := (incidents.foldl Logged.take (Logged.start settings h.store entropy now)).bridge.store
      ∀ (settings' : Settings) (entropy' : UInt32) (now' : Nat), settings'.security = .plus2 →
        let b := Bridge.start settings' gone entropy' now'
        b.engine.identity = ⟨Identity.deriveId entropy', 0, 0⟩ ∧
          b.store.value? .idCode = some (wordBytes (Identity.deriveId entropy')) ∧
          b.store.value? .rollingCode = some (wordBytes 0) := by
  intro id h
  obtain ⟨hfirst, hrest⟩ := List.forall_mem_cons.mp hstints
  have hborn := owned_first hworks hempty hfirst
  have howned : h.Owned id := hborn.foldl (Identity.deriveId_ne_zero _) hrest
  refine ⟨Identity.exists_deriveId_eq _, hborn.stored, howned.stored, fun l hl => ?_, ?_⟩
  · have hkeeps := howned.boots l hl
    exact ⟨hkeeps.stored, hkeeps.bears.idCode, hkeeps.bears.rows⟩
  · intro settings entropy now incidents hplus2 hsound hreset gone settings' entropy' now' hplus2'
    have hgone : ∀ key ∈ Engine.resetKeys, gone.value? key = none :=
      Logged.gone_after_reset hplus2 howned.works entropy now hsound hreset
    have hfaults : gone.fault? = h.store.fault? := Logged.fault?_run hplus2 h.store entropy now hsound .idle
    have hworks' : gone.Works := howned.works.of_faults hfaults
    exact start_afresh hplus2' hworks' (hgone .idCode (by decide)) (hgone .rollingCode (by decide)) entropy' now'

/-- A first boot that is asked to open the door. -/
def firstBoot : Stint BusScript :=
  .full {} 0x123 0 [.step (.request .openDoor), .step (.service {} 0), .send {} 1000] .idle

/-- A boot with other entropy that loses power in its second pass. -/
def secondBoot : Stint BusScript := .full {} 5 0 [.step (.service {} 0)] (.sending {} 1000)

/-- What happens in a boot in which somebody asks for a reset. -/
def resetBoot : List (Incident BusScript) :=
  [.step (.service {} 0), .step (.request .reset), .send {} 1000, .step (.service {} 2000)]

/-- The second boot goes on with the id of the first one, and the boot after the reset takes another id. -/
theorem identity_fixed_for_life_early :
    let h := chronicle ({} : MemoryStore) [firstBoot, secondBoot]
    let gone := (resetBoot.foldl Logged.take (Logged.start {} h.store 7 0)).bridge.store
    h.store.value? .idCode = some (wordBytes 0x124539) ∧
      h.boots.map (fun l => (framesOf l.log).length) = [2, 2] ∧
      (∀ l ∈ h.boots, ∀ row ∈ framesOf l.log, ∃ packet code, readRow? row = some (.ok ⟨packet, code, 0x124539⟩)) ∧
      (Bridge.start {} gone 5 0).engine.identity = ⟨0x6539, 0, 0⟩ := by
  have hworks : ({} : MemoryStore).Works := fun _ _ => rfl
  have hstints : ∀ stint ∈ [firstBoot, secondBoot], stint.WithoutReset := by
    refine List.forall_mem_cons.mpr ⟨⟨rfl, by decide⟩, fun stint hstint => ?_⟩
    rw [List.mem_singleton.mp hstint]
    exact ⟨rfl, by decide⟩
  have hreset : CarriesOutReset resetBoot :=
    ⟨[.step (.service {} 0)], .step (.request .reset), [.send {} 1000], .step (.service {} 2000), rfl, rfl, by decide,
      rfl⟩
  have hid : Identity.deriveId firstBoot.entropy = 0x124539 := by decide
  have hnewId : Identity.deriveId 5 = 0x6539 := by decide
  obtain ⟨-, -, hstored, hboots, hafresh⟩ := identity_fixed_for_life hworks rfl hstints
  have hnew := (hafresh {} 7 0 resetBoot rfl (by decide) hreset {} 5 0 rfl).1
  rw [hid] at hstored hboots
  rw [hnewId] at hnew
  exact ⟨hstored, by decide +kernel, fun l hl => (hboots l hl).2.2, hnew⟩

end DoorBridge
