import DoorBridge.Storage.Chip
import Mathlib.Logic.Function.Basic

/-!
# Proofs.Storage.Items — records over a map whose accesses may fail

`FaultyItems` is a map of items with every pattern of failing accesses: each call says what fails while it is carried out.
A chip behaves like one (`ChipStore.read_items`, `ChipStore.write_items`, `ChipStore.remove_items`).
`settle_write_cases` and `settle_remove_cases` say all that a call can do; what later reads can give back is the record as
it is (`givesBack_iff`).  A removal that met a failing fetch reports that there is nothing to remove, and leaves the
record: `removed_record_returns_iff`.
-/

namespace DoorBridge

/-! ## A map that may fail -/

/-- A map of items, and what fails of the next call. -/
structure FaultyItems where
  item? : StorageKey → Option (List UInt8) := fun _ => none
  fetchFault? : Option ItemError := none
  storeFault? : Option ItemError := none

instance : ItemMap FaultyItems where
  fetch m key :=
    match m.fetchFault? with
    | some cause => .error cause
    | none => .ok (m.item? key)
  store m key bytes :=
    match m.storeFault? with
    | some cause => .error cause
    | none => .ok { m with item? := Function.update m.item? key (some bytes) }

namespace ChipStore

/-- A chip as a map of items: what it refuses fails. -/
def items (s : ChipStore) : FaultyItems where
  item? key := some (s.item key)
  fetchFault? := if s.refuses.read then some .medium else if s.corrupted then some .corrupted else none
  storeFault? :=
    if s.refuses.read then some .medium
    else if s.corrupted then some .corrupted
    else if s.refuses.write then some .medium
    else none

theorem fetch_items (s : ChipStore) (key : StorageKey) : ItemMap.fetch s.items key = ItemMap.fetch s key := by
  simp only [ItemMap.fetch, items]
  cases s.refuses.read with
  | true => rfl
  | false => cases s.corrupted <;> rfl

theorem store_items (s : ChipStore) (key : StorageKey) (bytes : List UInt8) :
    ItemMap.store s.items key bytes = (ItemMap.store s key bytes).map items := by
  have hitem : Function.update (fun k => some (s.item k)) key (some bytes) =
      fun k => some (if k = key then bytes else s.item k) := by
    funext k
    by_cases h : k = key
    · rw [h, Function.update_self, if_pos rfl]
    · rw [Function.update_of_ne h, if_neg h]
  simp only [ItemMap.store, items]
  cases hread : s.refuses.read with
  | true => rfl
  | false =>
    cases hcorrupted : s.corrupted with
    | true => rfl
    | false =>
      cases hwrite : s.refuses.write with
      | true => rfl
      | false => simp [Except.map, items, hitem, hread, hwrite]

theorem read_items (s : ChipStore) (key : StorageKey) (room : Nat) :
    Storage.read s.items key room = Storage.read s key room := by
  simp only [Storage.read, fetch_items]

theorem write_items (s : ChipStore) (key : StorageKey) (bytes : List UInt8) :
    Storage.write s.items key bytes = (Storage.write s key bytes).map items := by
  simp only [Storage.write, ItemMap.write, store_items]
  split
  · cases ItemMap.store s key bytes <;> rfl
  · rfl

theorem remove_items (s : ChipStore) (key : StorageKey) :
    Storage.remove s.items key = (Storage.remove s key).map items := by
  have hholds : ItemMap.holds s.items key = ItemMap.holds s key := by simp only [ItemMap.holds, fetch_items]
  have hwrite : ItemMap.write s.items key [] = (ItemMap.write s key []).map items := s.write_items key []
  simp only [Storage.remove, hholds, hwrite]
  cases ItemMap.holds s key <;> rfl

end ChipStore

/-! ## Calls -/

inductive RecordRequest where
  | read (key : StorageKey) (room : Nat)
  | holds (key : StorageKey)
  | write (key : StorageKey) (bytes : List UInt8)
  | remove (key : StorageKey)

namespace RecordRequest

def Writes (key : StorageKey) : RecordRequest → Prop
  | write k _ => k = key
  | _ => False

/-- Writes a record or removes it. -/
def Changes (key : StorageKey) : RecordRequest → Prop
  | write k _ | remove k => k = key
  | _ => False

end RecordRequest

/-- A request and what fails while it is carried out.  No request fetches or stores more than one item. -/
structure RecordCall where
  request : RecordRequest
  fetchFault? : Option ItemError := none
  storeFault? : Option ItemError := none

inductive RecordAnswer where
  | bytes (found : Except StorageError (List UInt8))
  | holds (found : Bool)
  | done (result : Except StorageError Unit)

namespace FaultyItems

/-- The answer to a write or a removal; a failed one leaves the map as it is. -/
def settle (m : FaultyItems) : Except StorageError FaultyItems → RecordAnswer × FaultyItems
  | .ok m' => (.done (.ok ()), m')
  | .error cause => (.done (.error cause), m)

def call (m : FaultyItems) (c : RecordCall) : RecordAnswer × FaultyItems :=
  let m := { m with fetchFault? := c.fetchFault?, storeFault? := c.storeFault? }
  match c.request with
  | .read key room => (.bytes (Storage.read m key room), m)
  | .holds key => (.holds (ItemMap.holds m key), m)
  | .write key bytes => m.settle (Storage.write m key bytes)
  | .remove key => m.settle (Storage.remove m key)

def run (m : FaultyItems) (calls : List RecordCall) : FaultyItems := calls.foldl (fun m c => (m.call c).2) m

/-- The record under a key: the item, unless it is empty. -/
def record? (m : FaultyItems) (key : StorageKey) : Option (List UInt8) := (m.item? key).filter (· ≠ [])

/-- What a read answers that finds a record. -/
def readAnswer (room : Nat) : Option (List UInt8) → Except StorageError (List UInt8)
  | none => .error .notFound
  | some bytes => if bytes.length ≤ room then .ok bytes else .error .bufferTooSmall

variable (m : FaultyItems) (key : StorageKey)

theorem read_eq (room : Nat) : Storage.read m key room =
    match m.fetchFault? with
    | some cause => .error (ItemMap.fetchFailure cause)
    | none => readAnswer room (m.record? key) := by
  simp only [Storage.read, ItemMap.fetch, record?]
  cases m.fetchFault? with
  | some cause => rfl
  | none =>
    rcases m.item? key with _ | _ | ⟨b, bytes⟩
    · rfl
    · rfl
    · rfl

theorem holds_eq : ItemMap.holds m key = (m.fetchFault?.isNone && (m.record? key).isSome) := by
  simp only [ItemMap.holds, ItemMap.fetch, record?]
  cases m.fetchFault? with
  | some cause => rfl
  | none =>
    rcases m.item? key with _ | _ | ⟨b, bytes⟩
    · rfl
    · rfl
    · rfl

/-- The record of a key after an item was stored. -/
theorem record?_stored (k : StorageKey) (bytes : List UInt8) :
    { m with item? := Function.update m.item? key (some bytes) }.record? k =
      if k = key then (some bytes).filter (· ≠ []) else m.record? k := by
  simp only [record?]
  by_cases h : k = key
  · rw [if_pos h, h, Function.update_self]
  · rw [if_neg h, Function.update_of_ne h]

/-! ## What a call can do -/

/-- A write fails and changes nothing, or stores the bytes. -/
theorem settle_write_cases (bytes : List UInt8) :
    (∃ cause ≠ .notFound, m.settle (ItemMap.write m key bytes) = (.done (.error cause), m)) ∨
      m.settle (ItemMap.write m key bytes) =
        (.done (.ok ()), { m with item? := Function.update m.item? key (some bytes) }) := by
  unfold ItemMap.write
  by_cases hsize : bytes.length ≤ maxRecordSize
  · rw [if_pos hsize]
    simp only [ItemMap.store]
    cases m.storeFault? with
    | some cause => exact .inl ⟨_, by cases cause <;> decide, rfl⟩
    | none => exact .inr rfl
  · rw [if_neg hsize]
    exact .inl ⟨_, by decide, rfl⟩

/-- A removal finds nothing, or its fetch fails and it says so too; or it fails and changes nothing; or it stores an empty
item. -/
theorem settle_remove_cases :
    ((m.fetchFault? ≠ none ∨ m.record? key = none) ∧
        m.settle (Storage.remove m key) = (.done (.error .notFound), m)) ∨
      (∃ cause ≠ .notFound, m.settle (Storage.remove m key) = (.done (.error cause), m)) ∨
      m.fetchFault? = none ∧ m.settle (Storage.remove m key) =
        (.done (.ok ()), { m with item? := Function.update m.item? key (some []) }) := by
  have hremove : Storage.remove m key =
      if m.fetchFault?.isNone && (m.record? key).isSome then ItemMap.write m key [] else .error .notFound := by
    rw [← holds_eq]
    rfl
  rw [hremove]
  cases hholds : m.fetchFault?.isNone && (m.record? key).isSome with
  | false =>
    rw [Bool.and_eq_false_iff, Option.isNone_eq_false_iff, Option.isSome_eq_false_iff, Option.isNone_iff_eq_none,
      Option.isSome_iff_ne_none] at hholds
    exact .inl ⟨hholds, rfl⟩
  | true =>
    obtain ⟨hfetch, -⟩ := Bool.and_eq_true_iff.mp hholds
    rw [if_pos rfl]
    rcases m.settle_write_cases key [] with hfails | hstored
    · exact .inr (.inl hfails)
    · exact .inr (.inr ⟨Option.isNone_iff_eq_none.mp hfetch, hstored⟩)

/-! ## What calls do to a record -/

variable {m key}

/-- A call that neither writes nor removes a record leaves it alone. -/
theorem record?_call_of_not_changes {c : RecordCall} (h : ¬c.request.Changes key) :
    (m.call c).2.record? key = m.record? key := by
  obtain ⟨request, fetchFault?, storeFault?⟩ := c
  cases request with
  | read k room | holds k => rfl
  | write k bytes =>
    have hother : key ≠ k := fun heq => h heq.symm
    rcases settle_write_cases { m with fetchFault?, storeFault? } k bytes with ⟨cause, -, hfails⟩ | hstored
    · exact congrArg (fun r => r.2.record? key) hfails
    · refine (congrArg (fun r => r.2.record? key) hstored).trans ?_
      rw [record?_stored, if_neg hother]
      rfl
  | remove k =>
    have hother : key ≠ k := fun heq => h heq.symm
    rcases settle_remove_cases { m with fetchFault?, storeFault? } k with ⟨-, habsent⟩ | ⟨cause, -, hfails⟩ | ⟨-, hstored⟩
    · exact congrArg (fun r => r.2.record? key) habsent
    · exact congrArg (fun r => r.2.record? key) hfails
    · refine (congrArg (fun r => r.2.record? key) hstored).trans ?_
      rw [record?_stored, if_neg hother]
      rfl

/-- **What a removal leaves of the record** if it reports success, or that there was nothing to remove. -/
theorem record?_call_remove {fetchFault? storeFault? : Option ItemError} :
    let removal := m.call ⟨.remove key, fetchFault?, storeFault?⟩
    (removal.1 = .done (.ok ()) ∨ removal.1 = .done (.error .notFound)) →
      removal.2.record? key = if fetchFault? = none then none else m.record? key := by
  intro removal hanswer
  rcases settle_remove_cases { m with fetchFault?, storeFault? } key with
    ⟨hwhy, habsent⟩ | ⟨cause, hcause, hfails⟩ | ⟨hfetch, hstored⟩
  · have hsame : removal.2.record? key = m.record? key := congrArg (fun r => r.2.record? key) habsent
    rw [hsame]
    split
    · next hfetch => exact hwhy.resolve_left fun h => h hfetch
    · rfl
  · have hrefused : removal.1 = .done (.error cause) := congrArg Prod.fst hfails
    rw [hrefused] at hanswer
    rcases hanswer with h | h
    · simp only [RecordAnswer.done.injEq, reduceCtorEq] at h
    · simp only [RecordAnswer.done.injEq, Except.error.injEq] at h
      exact absurd h hcause
  · have hremoved : removal.2.record? key = none := by
      refine (congrArg (fun r => r.2.record? key) hstored).trans ?_
      rw [record?_stored, if_pos rfl]
      rfl
    rw [hremoved, if_pos hfetch]

/-- A call that does not write a record leaves it alone or removes it. -/
theorem record?_call_of_not_writes {c : RecordCall} (h : ¬c.request.Writes key) :
    (m.call c).2.record? key = m.record? key ∨ (m.call c).2.record? key = none := by
  by_cases hchanges : c.request.Changes key
  · obtain ⟨request, fetchFault?, storeFault?⟩ := c
    cases request with
    | read k room | holds k => contradiction
    | write k bytes => contradiction
    | remove k =>
      obtain rfl : k = key := hchanges
      rcases settle_remove_cases { m with fetchFault?, storeFault? } k with
        ⟨-, habsent⟩ | ⟨cause, -, hfails⟩ | ⟨-, hstored⟩
      · exact .inl (congrArg (fun r => r.2.record? k) habsent)
      · exact .inl (congrArg (fun r => r.2.record? k) hfails)
      · refine .inr ((congrArg (fun r => r.2.record? k) hstored).trans ?_)
        rw [record?_stored, if_pos rfl]
        rfl
  · exact .inl (record?_call_of_not_changes hchanges)

theorem record?_run_of_not_changes {calls : List RecordCall} (h : ∀ c ∈ calls, ¬c.request.Changes key) :
    (m.run calls).record? key = m.record? key :=
  List.foldlRecOn calls (fun (x : FaultyItems) c => (x.call c).2)
    (motive := fun x : FaultyItems => x.record? key = m.record? key) rfl
    fun _ hx c hc => (record?_call_of_not_changes (h c hc)).trans hx

theorem record?_run_of_not_writes {calls : List RecordCall} (h : ∀ c ∈ calls, ¬c.request.Writes key) :
    (m.run calls).record? key = m.record? key ∨ (m.run calls).record? key = none := by
  refine List.foldlRecOn calls (fun (x : FaultyItems) c => (x.call c).2)
    (motive := fun x : FaultyItems => x.record? key = m.record? key ∨ x.record? key = none) (.inl rfl)
    fun x hx c hc => ?_
  rcases record?_call_of_not_writes (m := x) (h c hc) with hsame | hgone
  · rwa [hsame]
  · exact .inr hgone

/-! ## What comes back -/

/-- A read of the key before the next write of it gives these bytes. -/
def GivesBack (m : FaultyItems) (key : StorageKey) (bytes : List UInt8) : Prop :=
  ∃ (later : List RecordCall) (room : Nat) (fetchFault? storeFault? : Option ItemError),
    (∀ c ∈ later, ¬c.request.Writes key) ∧
      ((m.run later).call ⟨.read key room, fetchFault?, storeFault?⟩).1 = .bytes (.ok bytes)

/-- What a read answers. -/
theorem answer_read (m : FaultyItems) (key : StorageKey) (room : Nat) (fetchFault? storeFault? : Option ItemError) :
    (m.call ⟨.read key room, fetchFault?, storeFault?⟩).1 = .bytes
      (match fetchFault? with
        | some cause => .error (ItemMap.fetchFailure cause)
        | none => readAnswer room (m.record? key)) :=
  congrArg RecordAnswer.bytes (read_eq _ key room)

theorem readAnswer_eq_ok {room : Nat} {found : Option (List UInt8)} {bytes : List UInt8} :
    readAnswer room found = .ok bytes ↔ found = some bytes ∧ bytes.length ≤ room := by
  cases found with
  | none => simp [readAnswer]
  | some b =>
    rw [readAnswer]
    split <;> grind

theorem givesBack_iff {bytes : List UInt8} : m.GivesBack key bytes ↔ m.record? key = some bytes := by
  constructor
  · rintro ⟨later, room, fetchFault?, storeFault?, hlater, hread⟩
    rw [answer_read, RecordAnswer.bytes.injEq] at hread
    cases fetchFault? with
    | some cause => contradiction
    | none =>
      obtain ⟨hfound, -⟩ := readAnswer_eq_ok.mp hread
      rcases record?_run_of_not_writes (m := m) hlater with hsame | hgone
      · rw [← hsame, hfound]
      · rw [hgone] at hfound
        contradiction
  · intro h
    refine ⟨[], bytes.length, none, none, nofun, ?_⟩
    rw [answer_read]
    exact congrArg RecordAnswer.bytes (readAnswer_eq_ok.mpr ⟨h, Nat.le_refl _⟩)

/-- **A removed record comes back exactly if the fetch of its removal failed.**  Over any map and with any failing
accesses: after a removal that reports success, or that there is nothing to remove, the reads before the next write of the
key can give back just the record from before, and only if the fetch of the removal failed.  A record that was written
with success is what every later read of it finds until the next write or removal of it, whatever is done to other keys;
the read fails only if its fetch does or if it has no room. -/
theorem removed_record_returns_iff (m : FaultyItems) (key : StorageKey) (fetchFault? storeFault? : Option ItemError) :
    let removal := m.call ⟨.remove key, fetchFault?, storeFault?⟩
    ((removal.1 = .done (.ok ()) ∨ removal.1 = .done (.error .notFound)) →
      ∀ bytes, removal.2.GivesBack key bytes ↔ m.record? key = some bytes ∧ fetchFault? ≠ none) ∧
    ∀ bytes ≠ [],
      let writing := m.call ⟨.write key bytes, fetchFault?, storeFault?⟩
      writing.1 = .done (.ok ()) → ∀ later : List RecordCall, (∀ c ∈ later, ¬c.request.Changes key) →
        ∀ (room : Nat) (readFault? unused? : Option ItemError),
          ((writing.2.run later).call ⟨.read key room, readFault?, unused?⟩).1 = .bytes
            (match readFault? with
              | some cause => .error (ItemMap.fetchFailure cause)
              | none => if bytes.length ≤ room then .ok bytes else .error .bufferTooSmall) := by
  refine ⟨fun hanswer bytes => ?_, fun bytes hbytes hwritten later hlater room readFault? unused? => ?_⟩
  · rw [givesBack_iff, record?_call_remove hanswer]
    by_cases hfetch : fetchFault? = none
    · rw [if_pos hfetch]
      exact iff_of_false nofun fun h => h.2 hfetch
    · rw [if_neg hfetch]
      exact (and_iff_left hfetch).symm
  · have hrecord : (m.call ⟨.write key bytes, fetchFault?, storeFault?⟩).2.record? key = some bytes := by
      rcases settle_write_cases { m with fetchFault?, storeFault? } key bytes with ⟨cause, -, hfails⟩ | hstored
      · have hrefused : (m.call ⟨.write key bytes, fetchFault?, storeFault?⟩).1 = .done (.error cause) :=
          congrArg Prod.fst hfails
        rw [hrefused] at hwritten
        simp only [RecordAnswer.done.injEq, reduceCtorEq] at hwritten
      · refine (congrArg (fun r => r.2.record? key) hstored).trans ?_
        rw [record?_stored, if_pos rfl]
        exact Option.filter_eq_some_iff.mpr ⟨rfl, decide_eq_true hbytes⟩
    rw [answer_read, record?_run_of_not_changes hlater, hrecord]
    rfl

def stationId : List UInt8 := [0x39, 0x65, 0x45, 0]

/-- A map with the id of a station. -/
def withId : FaultyItems := (({} : FaultyItems).call ⟨.write .idCode stationId, none, none⟩).2

/-- The id is written, and read after another record was written and a third one could not be removed.  Then it is
removed, once with a map that can be read and once with one that cannot. -/
theorem removed_record_returns_iff_withId :
    let others : List RecordCall :=
      [⟨.write .rollingCode [7, 0, 0, 0], none, none⟩, ⟨.remove .hasMotion, some .corrupted, none⟩]
    ((withId.run others).call ⟨.read .idCode 4, none, none⟩).1 = .bytes (.ok stationId) ∧
      (∀ bytes, ¬(withId.call ⟨.remove .idCode, none, none⟩).2.GivesBack .idCode bytes) ∧
      (withId.call ⟨.remove .idCode, some .medium, none⟩).2.GivesBack .idCode stationId := by
  intro others
  have hlater : ∀ c ∈ others, ¬c.request.Changes .idCode := by
    intro c hc
    simp only [others, List.mem_cons, List.not_mem_nil, or_false] at hc
    rcases hc with rfl | rfl <;> nofun
  refine ⟨?_, fun bytes hback => ?_, ?_⟩
  · exact (removed_record_returns_iff {} .idCode none none).2 stationId (by decide) rfl others hlater 4 none none
  · exact (((removed_record_returns_iff withId .idCode none none).1 (.inl rfl) bytes).mp hback).2 rfl
  · exact ((removed_record_returns_iff withId .idCode (some .medium) none).1 (.inr rfl) stationId).mpr ⟨rfl, nofun⟩

/-- The chip refuses to be read while the id is removed.  The answer is that there is nothing to remove, and as soon as
the chip can be read again it gives back the id. -/
theorem record_back_after_removal :
    let removal := withId.call ⟨.remove .idCode, some .medium, none⟩
    removal.1 = .done (.error .notFound) ∧ (removal.2.call ⟨.read .idCode 4, none, none⟩).1 = .bytes (.ok stationId) :=
  ⟨rfl, rfl⟩

end FaultyItems

end DoorBridge
