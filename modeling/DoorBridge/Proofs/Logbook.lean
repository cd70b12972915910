import DoorBridge.Arbiter.Script
import DoorBridge.Proofs.History
import DoorBridge.Proofs.Log
import DoorBridge.Proofs.Restore

/-!
# Proofs.Logbook — boots over a store that may fail, with their logs

* `Incident` is a step of a boot, a try to send outside of a pass, or a storage fault that comes or goes.
* `Logged` is a bridge with the log of its boot.  `triesToSave` tells from the number of writes whether an operation
  tries to write the counter, however it does.
* `Logged.OnCourse` says how counter, save point, store and log hang together; every boot of ordinary incidents keeps to
  it (`Logged.onCourse_run`), whatever fails.
* `counter_saved_lazily`: the counter is never more than nine steps past the save point after a pass, the store agrees
  with the save point as long as all writes succeed, and attempts to write lie at least nine codes apart.
-/

namespace DoorBridge

/-! ## Attempts to write the counter -/

/-- Whether an operation on a store tries to write the counter: whether it matters to the number of writes if that
succeeds. -/
def triesToSave (operate : MemoryStore → MemoryStore) (s : MemoryStore) : Bool :=
  (operate (s.setFault .rollingCode .write none)).writes !=
    (operate (s.setFault .rollingCode .write (some .flash))).writes

/-- The entry for an attempt to write the counter, if an operation makes one. -/
def attempts (operate : MemoryStore → MemoryStore) (s : MemoryStore) (counter : Nat) (forced : Bool) : List LogEntry :=
  if triesToSave operate s then [.save counter forced (s.fault? .rollingCode .write).isNone] else []

/-- A flush without a reset tries to write the counter exactly when a save is due. -/
theorem triesToSave_flush {e : Engine} (hplus2 : e.settings.security = .plus2) (hreset : e.pending.reset = false)
    (s : MemoryStore) : triesToSave (fun s => (e.flush s).2.2) s = e.saveIsDue := by
  simp only [triesToSave, Engine.store_flush hplus2 hreset, Engine.store_flushMotion]
  cases e.pending.hasMotion <;> cases e.saveIsDue <;>
    simp [MemoryStore.writes_tryWrite, MemoryStore.fault?_setFault]

/-- A start on Security+ 2.0 always tries to write the counter. -/
theorem triesToSave_start {settings : Settings} (hplus2 : settings.security = .plus2) (entropy : UInt32) (now : Nat)
    (s : MemoryStore) : triesToSave (fun s => ((Engine.new settings).start s entropy now).2.2) s = true := by
  have hload (fault : Option StorageError) :
      Identity.loadId (s.setFault .rollingCode .write fault) = Identity.loadId s := by
    rw [Identity.loadId, Identity.loadId, MemoryStore.readWord_setFault_write]
  simp only [triesToSave, (Engine.core_start hplus2 _ entropy now).2, Identity.store_restore,
    MemoryStore.writes_tryWrite, Identity.store_establishId, hload]
  split <;> simp [MemoryStore.writes_tryWrite, MemoryStore.fault?_setFault]

/-! ## Boots with a log -/

/-- A bridge with the log of its boot. -/
structure Logged where
  bridge : Bridge
  log : List LogEntry

/-- What may happen in a boot. -/
inductive Incident (β : Type) where
  | step (s : BootStep β)
  /-- A try to send outside of a pass. -/
  | send (bus : β) (now : Nat)
  /-- An access to a record begins to fail, or ceases to. -/
  | fault (key : StorageKey) (access : Access) (cause? : Option StorageError)

/-- Whether neither a reset is asked for nor a packet sent outside of a pass. -/
def Incident.isOrdinary {β : Type} : Incident β → Bool
  | step s => !s.isReset
  | send .. => false
  | fault .. => true

/-- A try to send, with no timeouts before it. -/
def Bridge.send {β : Type} [Bus β] (b : Bridge) (bus : β) (now : Nat) : Bridge :=
  let (answer, engine, tap) := b.engine.transmitNext (Tap.mk bus b.rows) now
  { b with engine, rows := tap.rows, codesUsed := b.codesUsed + (b.engine.usesUp answer).toNat }

namespace Logged

def start (settings : Settings) (store : MemoryStore) (entropy : UInt32) (now : Nat) : Logged :=
  let bridge := Bridge.start settings store entropy now
  { bridge
    log := attempts (fun s => ((Engine.new settings).start s entropy now).2.2) store bridge.firstCounter false }

/-- What a try to send adds to the log.  The row handed over comes before the code that it uses up. -/
def afterSending (l : Logged) (bridge : Bridge) : Logged where
  bridge
  log := l.log ++ (bridge.rows.drop l.bridge.rows.length).map .frame ++
    List.replicate (bridge.codesUsed - l.bridge.codesUsed) .code

/-- The first half of a pass. -/
def transmit {β : Type} [Bus β] (l : Logged) (bus : β) (now : Nat) : Logged :=
  l.afterSending (l.bridge.transmit bus now)

def flush (l : Logged) : Logged :=
  let e := l.bridge.engine
  { bridge := l.bridge.flush
    log := l.log ++ attempts (fun s => (e.flush s).2.2) l.bridge.store e.identity.rolling e.pending.save }

variable {β : Type} [Bus β]

def take (l : Logged) : Incident β → Logged
  | .step (.service bus now) => (l.transmit bus now).flush
  | .step .flush => l.flush
  | .step s => { l with bridge := l.bridge.take s }
  | .send bus now => l.afterSending (l.bridge.send bus now)
  | .fault key access cause? =>
    { l with bridge := { l.bridge with store := l.bridge.store.setFault key access cause? } }

def cutOff (l : Logged) : Cut β → Logged
  | .idle => l
  | .sending bus now => l.transmit bus now
  | .recording bus now => { l.transmit bus now with bridge := (l.transmit bus now).bridge.recordMotion }
  | .flushing => { l with bridge := l.bridge.recordMotion }

/-- A boot from its start to the loss of power. -/
def run (l : Logged) (incidents : List (Incident β)) (cut : Cut β) : Logged := (incidents.foldl take l).cutOff cut

/-- The log changes nothing. -/
theorem bridge_take (l : Logged) (s : BootStep β) : (l.take (.step s)).bridge = l.bridge.take s := by
  cases s <;> rfl

/-- Only a step that flushes is logged. -/
theorem take_of_not_flushes (l : Logged) {s : BootStep β} (h : s.flushes = false) :
    l.take (.step s) = { l with bridge := l.bridge.take s } := by
  cases s with
  | flush | service bus now => contradiction
  | _ => rfl

/-! ## The course of a boot -/

/-- A boot that started from `c` over a store with some counter record, has used `n` codes, tried to save its counter
last after `a` of them, and last managed to after `p?`. -/
structure OnCourse (c n a : Nat) (p? : Option Nat) (found? : Option (List UInt8)) (l : Logged) : Prop where
  core : ∃ id, l.bridge.engine.core = ⟨⟨id, codeAfter c n, codeAfter c a⟩, .plus2, false⟩
  stored : l.bridge.store.value? .rollingCode = (p?.map fun p => wordBytes (.ofNat (codeAfter c p))).or found?
  course : Course c n a p? l.log

/-- Between two steps the counter stays short of where it is due to be saved. -/
def AtRest (c n a : Nat) (p? : Option Nat) (found? : Option (List UInt8)) (l : Logged) : Prop :=
  OnCourse c n a p? found? l ∧ n < nextStart c a

variable {c n a : Nat} {p? : Option Nat} {found? : Option (List UInt8)} {l : Logged}

section Core

variable (h : OnCourse c n a p? found? l)
include h

theorem OnCourse.security : l.bridge.engine.settings.security = .plus2 := by
  obtain ⟨id, hcore⟩ := h.core
  exact (Engine.core_eq_iff.mp hcore).2.1

theorem OnCourse.noReset : l.bridge.engine.pending.reset = false := by
  obtain ⟨id, hcore⟩ := h.core
  exact (Engine.core_eq_iff.mp hcore).2.2

theorem OnCourse.rolling : l.bridge.engine.identity.rolling = codeAfter c n := by
  obtain ⟨id, hcore⟩ := h.core
  exact congrArg Identity.rolling (Engine.core_eq_iff.mp hcore).1

theorem OnCourse.lastSaved : l.bridge.engine.identity.lastSaved = codeAfter c a := by
  obtain ⟨id, hcore⟩ := h.core
  exact congrArg Identity.lastSaved (Engine.core_eq_iff.mp hcore).1

end Core

theorem OnCourse.withEngine {e : Engine} (h : OnCourse c n a p? found? l) (hcore : e.core = l.bridge.engine.core) :
    OnCourse c n a p? found? { l with bridge := l.bridge.withEngine e } :=
  { h with core := h.core.imp fun _ => hcore.trans }

theorem AtRest.withEngine {e : Engine} (h : AtRest c n a p? found? l) (hcore : e.core = l.bridge.engine.core) :
    AtRest c n a p? found? { l with bridge := l.bridge.withEngine e } := ⟨h.1.withEngine hcore, h.2⟩

/-- Rows that carry the code at hand keep a log on its course. -/
theorem course_frames {log : List LogEntry} (h : Course c n a p? log) (hshort : n < nextStart c a)
    {rows : List (List UInt8)} (hrows : ∀ row ∈ rows, codeOf? row = some (codeAfter c n)) :
    Course c n a p? (log ++ rows.map .frame) := by
  induction rows generalizing log with
  | nil => rwa [List.map_nil, List.append_nil]
  | cons row rows ih =>
    obtain ⟨hrow, hrest⟩ := List.forall_mem_cons.mp hrows
    rw [List.map_cons, List.append_cons]
    exact ih (h.frame hshort hrow) hrest

/-- A transmission uses up at most one code, and the row that it hands over carries the code from before. -/
theorem AtRest.transmit (h : AtRest c n a p? found? l) (bus : β) (now : Nat) :
    ∃ n', OnCourse c n' a p? found? (l.transmit bus now) := by
  obtain ⟨h, hshort⟩ := h
  obtain ⟨id, hbefore⟩ := h.core
  obtain ⟨new, hrows, hnew, hused⟩ := Bridge.transmit_rows h.security bus now
  have hdrop : (l.bridge.transmit bus now).rows.drop l.bridge.rows.length = new := by
    rw [hrows, List.drop_left]
  rw [h.rolling] at hnew
  have hframes := course_frames h.course hshort hnew
  rcases Bridge.transmit_core h.security bus now with ⟨hsame, hcore⟩ | ⟨hstep, hcore⟩
  · refine ⟨n, ⟨id, hcore.trans hbefore⟩, h.stored, ?_⟩
    simp only [Logged.transmit, afterSending, hdrop, hsame, Nat.sub_self, List.replicate_zero, List.append_nil]
    exact hframes
  · have hidentity : l.bridge.engine.identity = ⟨id, codeAfter c n, codeAfter c a⟩ :=
      (Engine.core_eq_iff.mp hbefore).1
    rw [hbefore, hidentity] at hcore
    refine ⟨n + 1, ⟨id, hcore⟩, h.stored, ?_⟩
    obtain ⟨row, hrow⟩ := List.exists_mem_of_ne_nil new (hused.resolve_left (by omega))
    have hcarried : ∃ row ∈ framesOf (l.log ++ new.map .frame), codeOf? row = some (codeAfter c n) := by
      refine ⟨row, ?_, hnew row hrow⟩
      simp [framesOf, LogEntry.row?, hrow]
    have hone : l.bridge.codesUsed + 1 - l.bridge.codesUsed = 1 := by omega
    simp only [Logged.transmit, afterSending, hdrop, hstep, hone, List.replicate_one]
    exact hframes.code hshort hcarried

/-- Whether a flush has enough codes to save. -/
theorem OnCourse.needsSave_iff (hc : c < counterBound) (h : OnCourse c n a p? found? l) :
    l.bridge.engine.identity.needsSave = true ↔ n = nextStart c a := by
  obtain ⟨k, hk⟩ := Nat.exists_eq_add_of_le h.course.tried_le
  have hrolling : l.bridge.engine.identity.rolling = codeAfter (codeAfter c a) k := by
    rw [h.rolling, codeAfter_add, ← hk]
  have hused := h.course.used_le
  rw [nextStart] at hused ⊢
  rw [DoorBridge.needsSave_iff (codeAfter_lt hc a) h.lastSaved hrolling (by omega)]
  omega

/-- A flush that saves brings the save point up to the counter, and the store too, if the write succeeds. -/
theorem OnCourse.flush_saving (hc : c < counterBound) (h : OnCourse c n a p? found? l)
    (hdue : l.bridge.engine.saveIsDue = true) : ∃ p?', AtRest c n n p?' found? l.flush := by
  obtain ⟨id, hbefore⟩ := h.core
  have hidentity : l.bridge.engine.identity = ⟨id, codeAfter c n, codeAfter c a⟩ :=
    (Engine.core_eq_iff.mp hbefore).1
  have hcore := Engine.core_flush h.security h.noReset l.bridge.store
  have hstored := Engine.counter_flush h.security h.noReset l.bridge.store
  rw [if_pos hdue, hbefore, hidentity] at hcore
  have hshort : n < nextStart c n := by
    have hbounds := (nextStart_bounds c n).1
    omega
  have hforced : l.bridge.engine.pending.save = false → n = nextStart c a := by
    intro hsave
    rw [Engine.saveIsDue, hsave, Bool.false_or] at hdue
    exact (h.needsSave_iff hc).mp hdue
  have hlog : l.flush.log = l.log ++ [.save (codeAfter c n) l.bridge.engine.pending.save
      (l.bridge.store.fault? .rollingCode .write).isNone] := by
    rw [Logged.flush, attempts, triesToSave_flush h.security h.noReset, if_pos hdue, h.rolling]
  refine ⟨if (l.bridge.store.fault? .rollingCode .write).isNone then some n else p?, ⟨⟨id, hcore⟩, hstored.trans ?_,
    hlog ▸ h.course.save _ _ hforced⟩, hshort⟩
  cases l.bridge.store.fault? .rollingCode .write with
  | none => simp [hdue, h.rolling]
  | some cause => simp [h.stored]

/-- A flush that does not save leaves the counter short of a save. -/
theorem OnCourse.flush_idle (hc : c < counterBound) (h : OnCourse c n a p? found? l)
    (hdue : l.bridge.engine.saveIsDue = false) : AtRest c n a p? found? l.flush := by
  have hcore := Engine.core_flush h.security h.noReset l.bridge.store
  have hstored := Engine.counter_flush h.security h.noReset l.bridge.store
  rw [if_neg (ne_true_of_eq_false hdue)] at hcore
  rw [if_neg fun hboth => ne_true_of_eq_false hdue hboth.1] at hstored
  have hneeds := (Bool.or_eq_false_iff.mp hdue).2
  have hshort : n < nextStart c a :=
    lt_of_le_of_ne h.course.used_le fun hn => ne_true_of_eq_false hneeds ((h.needsSave_iff hc).mpr hn)
  have hlog : l.flush.log = l.log := by
    rw [Logged.flush, attempts, triesToSave_flush h.security h.noReset, hdue]
    exact List.append_nil _
  exact ⟨⟨h.core.imp fun _ => hcore.trans, hstored.trans h.stored, hlog ▸ h.course⟩, hshort⟩

theorem OnCourse.flush (hc : c < counterBound) (h : OnCourse c n a p? found? l) :
    ∃ a' p?', AtRest c n a' p?' found? l.flush := by
  cases hdue : l.bridge.engine.saveIsDue with
  | true => exact ⟨n, h.flush_saving hc hdue⟩
  | false => exact ⟨a, p?, h.flush_idle hc hdue⟩

theorem OnCourse.recordMotion (h : OnCourse c n a p? found? l) :
    OnCourse c n a p? found? { l with bridge := l.bridge.recordMotion } where
  core := h.core.imp fun _ => (Engine.core_flushMotion l.bridge.engine l.bridge.store).trans
  stored := (Engine.value?_flushMotion (by decide) l.bridge.engine l.bridge.store).trans h.stored
  course := h.course

/-- Every ordinary incident keeps a boot on course, whatever fails. -/
theorem AtRest.take (hc : c < counterBound) (h : AtRest c n a p? found? l) {incident : Incident β}
    (hordinary : incident.isOrdinary = true) : ∃ n' a' p?', AtRest c n' a' p?' found? (l.take incident) := by
  cases incident with
  | send bus now => contradiction
  | fault key access cause? => exact ⟨n, a, p?, { h.1 with stored := h.1.stored }, h.2⟩
  | step s =>
    have hreset : s.isReset = false := by simpa [Incident.isOrdinary] using hordinary
    rcases l.bridge.take_cases hreset with
      rfl | ⟨bus, now, rfl⟩ | ⟨hquiet, e, hcore, htake⟩
    · exact ⟨n, h.1.flush hc⟩
    · obtain ⟨n', hsent⟩ := h.transmit bus now
      exact ⟨n', hsent.flush hc⟩
    · refine ⟨n, a, p?, ?_⟩
      rw [take_of_not_flushes l hquiet, htake]
      exact h.withEngine hcore

theorem AtRest.foldl_take (hc : c < counterBound) (h : AtRest c n a p? found? l) {incidents : List (Incident β)}
    (hordinary : ∀ i ∈ incidents, i.isOrdinary = true) :
    ∃ n' a' p?', AtRest c n' a' p?' found? (incidents.foldl Logged.take l) := by
  induction incidents generalizing n a p? l with
  | nil => exact ⟨n, a, p?, h⟩
  | cons i incidents ih =>
    obtain ⟨n', a', p?', h'⟩ := h.take hc (hordinary i List.mem_cons_self)
    exact ih h' fun i' hi' => hordinary i' (List.mem_cons_of_mem _ hi')

theorem AtRest.cutOff (h : AtRest c n a p? found? l) (cut : Cut β) :
    ∃ n', OnCourse c n' a p? found? (l.cutOff cut) := by
  cases cut with
  | idle => exact ⟨n, h.1⟩
  | sending bus now => exact h.transmit bus now
  | recording bus now =>
    obtain ⟨n', hsent⟩ := h.transmit bus now
    exact ⟨n', hsent.recordMotion⟩
  | flushing => exact ⟨n, h.1.recordMotion⟩

variable {settings : Settings}

/-- A start on Security+ 2.0 is at rest, with the counter that it loaded and one attempt to save it. -/
theorem atRest_start (hplus2 : settings.security = .plus2) (store : MemoryStore) (entropy : UInt32) (now : Nat) :
    ∃ p?, AtRest (Identity.startCounter store entropy) 0 0 p? (store.value? .rollingCode)
      (start settings store entropy now) := by
  obtain ⟨hcore, hstore⟩ := Engine.core_start hplus2 store entropy now
  rw [Identity.identity_restore] at hcore
  have hstored := Identity.counter_restore store entropy
  rw [← hstore] at hstored
  have hlog : (start settings store entropy now).log =
      [.save (Identity.startCounter store entropy) false (store.fault? .rollingCode .write).isNone] := by
    have hfirst : (Bridge.start settings store entropy now).firstCounter = Identity.startCounter store entropy :=
      congrArg Identity.rolling (Engine.core_eq_iff.mp hcore).1
    rw [start, attempts, triesToSave_start hplus2, if_pos rfl, hfirst]
  refine ⟨if (store.fault? .rollingCode .write).isNone then some 0 else none, ⟨⟨_, hcore⟩, hstored.trans ?_,
    hlog ▸ .boot _⟩, ?_⟩
  · cases store.fault? .rollingCode .write <;> rfl
  · have hbounds := (nextStart_bounds (Identity.startCounter store entropy) 0).1
    omega

/-- **Every boot of ordinary incidents keeps to its course**, whatever fails and wherever it loses power. -/
theorem onCourse_run (hplus2 : settings.security = .plus2) (store : MemoryStore) (entropy : UInt32) (now : Nat)
    {incidents : List (Incident β)} (hordinary : ∀ i ∈ incidents, i.isOrdinary = true) (cut : Cut β) :
    ∃ n a p?, OnCourse (Identity.startCounter store entropy) n a p? (store.value? .rollingCode)
      ((start settings store entropy now).run incidents cut) := by
  obtain ⟨p?, hstart⟩ := atRest_start hplus2 store entropy now
  obtain ⟨n, a, p?', hrest⟩ := hstart.foldl_take (Identity.startCounter_lt store entropy) hordinary
  obtain ⟨n', hcut⟩ := hrest.cutOff cut
  exact ⟨n', a, p?', hcut⟩

/-- Between two steps the counter is less than a save interval ahead of the save point, on the circle of 28-bit
numbers. -/
theorem AtRest.gap_le (hc : c < counterBound) (h : AtRest c n a p? found? l) :
    ((l.bridge.engine.identity.rolling : Int) - l.bridge.engine.identity.lastSaved) % counterBound ≤ 9 := by
  have hneeds : ¬ l.bridge.engine.identity.needsSave = true :=
    fun hneeds => Nat.ne_of_lt h.2 ((h.1.needsSave_iff hc).mp hneeds)
  have hrolling := codeAfter_lt hc n
  have hsaved := codeAfter_lt hc a
  rw [← h.1.rolling] at hrolling
  rw [← h.1.lastSaved] at hsaved
  rw [Identity.needsSave, decide_eq_true_iff, saveInterval, Nat.mod_eq_of_lt hsaved] at hneeds
  rw [counterBound_val] at *
  omega

end Logged

/-- **The counter is saved lazily and never lags behind.**  Whatever fails in a boot without a reset that sends in
passes only, after a pass the counter is at most nine ahead of the save point; as long as all writes of the counter have
succeeded, the store has the save point; and between an attempt to write the counter and a later one that no restart
asked for, at least nine codes were used. -/
theorem counter_saved_lazily {β : Type} [Bus β] {settings : Settings} (hplus2 : settings.security = .plus2)
    (store : MemoryStore) (entropy : UInt32) (now : Nat) {incidents : List (Incident β)}
    (hordinary : ∀ i ∈ incidents, i.isOrdinary = true) :
    let l := incidents.foldl Logged.take (Logged.start settings store entropy now)
    (∀ (bus : β) (time : Nat),
      let passed := (l.take (.step (.service bus time))).bridge.engine.identity
      ((passed.rolling : Int) - passed.lastSaved) % counterBound ≤ 9) ∧
    (failuresIn l.log = 0 →
      l.bridge.store.value? .rollingCode = some (wordBytes (.ofNat l.bridge.engine.identity.lastSaved))) ∧
    ∀ before between after x y forced done done',
      l.log = before ++ .save x forced done :: between ++ .save y false done' :: after → 9 ≤ codesIn between := by
  intro l
  have hc := Identity.startCounter_lt store entropy
  obtain ⟨p?, hstart⟩ := Logged.atRest_start hplus2 store entropy now
  obtain ⟨n, a, p?', hrest⟩ := hstart.foldl_take hc hordinary
  refine ⟨fun bus time => ?_, fun hnone => ?_, fun before between after x y forced done done' hlog => ?_⟩
  · have hservice : (Incident.step (.service bus time)).isOrdinary = true := rfl
    obtain ⟨n', a', p?'', hpassed⟩ := hrest.take hc hservice
    exact hpassed.gap_le hc
  · have hstored := hrest.1.stored
    rw [hrest.1.course.saved_of_no_failure hnone] at hstored
    rw [hrest.1.lastSaved]
    exact hstored
  · exact hrest.1.course.nine_le hlog

/-- A store with nothing but a counter in it. -/
def storeOf (counter : UInt32) : MemoryStore where
  value? key := if key = .rollingCode then some (wordBytes counter) else none

/-- Ten passes, each with a request. -/
def tenPasses (now : Nat) : List (Incident BusScript) :=
  (List.range 10).flatMap fun i => [.step (.request .getStatus), .step (.service {} (now + 1000 * i))]

/-- Ten passes with writes of the counter failing, and ten more with writes at work. -/
def failingPasses : List (Incident BusScript) :=
  .fault .rollingCode .write (some .flash) :: tenPasses 0 ++ .fault .rollingCode .write none :: tenPasses 10000

/-- Across the wrap the attempt that fails comes after nine codes, and the next one after ten. -/
theorem counter_saved_lazily_wrap :
    let l := failingPasses.foldl Logged.take (Logged.start {} (storeOf 0xffffff3) 0 0)
    let passed := (l.take (.step (.service ({} : BusScript) 20000))).bridge.engine.identity
    l.log.filter (fun entry => entry.row?.isNone && entry != .code) =
        [.save 0xffffffd false true, .save 7 false false, .save 17 false true] ∧
      failuresIn l.log = 1 ∧ ((passed.rolling : Int) - passed.lastSaved) % counterBound ≤ 9 ∧
      ∀ before between after x y forced done done',
        l.log = before ++ .save x forced done :: between ++ .save y false done' :: after → 9 ≤ codesIn between := by
  have hplus2 : ({} : Settings).security = .plus2 := rfl
  have hordinary : ∀ i ∈ failingPasses, i.isOrdinary = true := by decide
  obtain ⟨hgap, -, hapart⟩ := counter_saved_lazily hplus2 (storeOf 0xffffff3) 0 0 hordinary
  exact ⟨by decide +kernel, by decide +kernel, hgap {} 20000, hapart⟩

end DoorBridge
