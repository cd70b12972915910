import Mathlib.Data.String.Basic
import DoorBridge.Toml.Document

/-!
# Proofs.Toml.Entries — tables with ascending keys

`Entries.update?` changes one entry and leaves the others alone (`update?_spec`).  From that follows what opening a table and
adding a value do to a document of tables that stand side by side: nothing that is there is ever replaced.
-/

namespace DoorBridge.Toml

/-- The keys of a table ascend. -/
def Entries.Sorted (entries : Entries) : Prop := entries.Pairwise fun x y => x.1 < y.1

theorem Entries.sorted_nil : Sorted [] := List.Pairwise.nil

theorem lookup_eq_none_of_lt {key : String} {entries : Entries} (h : ∀ x ∈ entries, key < x.1) :
    entries.lookup key = none := by
  induction entries with
  | nil => rfl
  | cons x entries ih =>
    have hne : (key == x.1) = false := by simpa using (h x (by simp)).ne
    rw [List.lookup_cons, hne]
    exact ih fun y hy => h y (by simp [hy])

/-- What a change of the entry of one key does: it decides on the entry that is there, and the other keys keep theirs. -/
structure Entries.Updated (key : String) (v : Value) (entries entries' : Entries) : Prop where
  here : entries'.lookup key = some v
  other : ∀ k, k ≠ key → entries'.lookup k = entries.lookup k
  sorted : entries'.Sorted

theorem Entries.keys_update? {key : String} {f : Option Value → Option Value} {entries entries' : Entries}
    (h : update? key f entries = some entries') {x : String × Value} (hx : x ∈ entries') :
    x.1 = key ∨ ∃ y ∈ entries, y.1 = x.1 := by
  induction entries generalizing entries' with
  | nil =>
    obtain ⟨v, -, rfl⟩ : ∃ v, f none = some v ∧ [(key, v)] = entries' := by simpa [update?] using h
    exact .inl (by simp_all)
  | cons y entries ih =>
    obtain ⟨k, w⟩ := y
    rw [update?] at h
    split at h
    · obtain ⟨v, -, rfl⟩ := Option.map_eq_some_iff.mp h
      rcases List.mem_cons.mp hx with rfl | hx
      · exact .inr ⟨(k, w), by simp, rfl⟩
      · exact .inr ⟨x, by simp [hx], rfl⟩
    · split at h
      · obtain ⟨v, -, rfl⟩ := Option.map_eq_some_iff.mp h
        rcases List.mem_cons.mp hx with rfl | hx
        · exact .inl rfl
        · exact .inr ⟨x, hx, rfl⟩
      · obtain ⟨rest, hrest, rfl⟩ := Option.map_eq_some_iff.mp h
        rcases List.mem_cons.mp hx with rfl | hx
        · exact .inr ⟨(k, w), by simp, rfl⟩
        · rcases ih hrest hx with heq | ⟨y, hy, heq⟩
          · exact .inl heq
          · exact .inr ⟨y, by simp [hy], heq⟩

theorem Entries.update?_spec {key : String} {f : Option Value → Option Value} {entries entries' : Entries}
    (hs : entries.Sorted) (h : update? key f entries = some entries') :
    ∃ v, f (entries.lookup key) = some v ∧ Updated key v entries entries' := by
  induction entries generalizing entries' with
  | nil =>
    obtain ⟨v, hv, rfl⟩ : ∃ v, f none = some v ∧ [(key, v)] = entries' := by simpa [update?] using h
    refine ⟨v, hv, by simp, fun k hk => ?_, List.pairwise_singleton _ _⟩
    have : (k == key) = false := by simpa using hk
    rw [List.lookup_cons, this]
  | cons y entries ih =>
    obtain ⟨k, w⟩ := y
    obtain ⟨hlt, htail⟩ := List.pairwise_cons.mp hs
    rw [update?] at h
    split at h
    · next hk =>
      obtain rfl := hk
      obtain ⟨v, hv, rfl⟩ := Option.map_eq_some_iff.mp h
      refine ⟨v, by simpa using hv, by simp, fun k' hk' => ?_, List.pairwise_cons.mpr ⟨hlt, htail⟩⟩
      have : (k' == k) = false := by simpa using hk'
      simp only [List.lookup_cons, this]
    · next hk =>
      have hk' : (key == k) = false := by simpa using fun heq => hk heq.symm
      split at h
      · next hbelow =>
        obtain ⟨v, hv, rfl⟩ := Option.map_eq_some_iff.mp h
        have habove : ∀ x ∈ (k, w) :: entries, key < x.1 := by
          intro x hx
          rcases List.mem_cons.mp hx with rfl | hx
          · exact hbelow
          · exact hbelow.trans (hlt x hx)
        refine ⟨v, by rwa [lookup_eq_none_of_lt habove], by simp, fun k' hne => ?_,
          List.pairwise_cons.mpr ⟨habove, hs⟩⟩
        have : (k' == key) = false := by simpa using hne
        rw [List.lookup_cons, this]
      · next hbelow =>
        have hgt : k < key := lt_of_le_of_ne (not_lt.mp hbelow) hk
        obtain ⟨rest, hrest, rfl⟩ := Option.map_eq_some_iff.mp h
        obtain ⟨v, hv, hup⟩ := ih htail hrest
        have hlook : ∀ tail : Entries, ((k, w) :: tail).lookup key = tail.lookup key := fun tail => by
          rw [List.lookup_cons, hk']
        refine ⟨v, by rw [hlook]; exact hv, by rw [hlook]; exact hup.here, fun k' hne => ?_,
          List.pairwise_cons.mpr ⟨fun x hx => ?_, hup.sorted⟩⟩
        · simp only [List.lookup_cons, hup.other k' hne]
        · rcases keys_update? hrest hx with heq | ⟨y, hy, heq⟩
          · exact heq ▸ hgt
          · exact heq ▸ hlt y hy

theorem add?_spec {key : String} {v : Value} {entries entries' : Entries} (hs : entries.Sorted)
    (h : add? key v entries = some entries') : entries.lookup key = none ∧ Entries.Updated key v entries entries' := by
  obtain ⟨w, hw, hup⟩ := Entries.update?_spec hs h
  split at hw
  · next hnone =>
    obtain rfl : v = w := by simpa using hw
    exact ⟨hnone, hup⟩
  · contradiction

/-! ## Tables side by side -/

/-- A value that is no table. -/
def Value.Scalar (v : Value) : Prop := ∀ origin entries, v ≠ .table origin entries

/-- A document whose tables all have headers of their own, with keys that ascend. -/
structure Entries.Flat (root : Entries) : Prop where
  sorted : root.Sorted
  tables : ∀ name origin entries, root.lookup name = some (.table origin entries) → origin = .header ∧ Sorted entries

theorem Entries.flat_nil : Flat [] := ⟨sorted_nil, by simp⟩

theorem Entries.Updated.flat_scalar {key : String} {v : Value} {root root' : Entries} (h : Updated key v root root')
    (hr : root.Flat) (hv : v.Scalar) : root'.Flat := by
  refine ⟨h.sorted, fun name origin entries hlook => ?_⟩
  by_cases hname : name = key
  · rw [hname, h.here] at hlook
    exact absurd (Option.some.inj hlook) (hv origin entries)
  · rw [h.other name hname] at hlook
    exact hr.tables name origin entries hlook

theorem Entries.Updated.flat_table {name : String} {entries : Entries} {root root' : Entries}
    (h : Updated name (.table .header entries) root root') (hr : root.Flat) (hs : Sorted entries) : root'.Flat := by
  refine ⟨h.sorted, fun name' origin entries' hlook => ?_⟩
  by_cases hname : name' = name
  · rw [hname, h.here] at hlook
    obtain ⟨rfl, rfl⟩ : Origin.header = origin ∧ entries = entries' := by simpa using hlook
    exact ⟨rfl, hs⟩
  · rw [h.other name' hname] at hlook
    exact hr.tables name' origin entries' hlook

/-- A header opens a table that was not there. -/
theorem openTable?_spec {name : String} {root root' : Entries} (hr : root.Flat)
    (h : openTable? [name] root = some root') :
    root.lookup name = none ∧ Entries.Updated name (.table .header []) root root' := by
  simp only [openTable?, List.getLast?_singleton, Option.bind_eq_bind, List.dropLast_singleton, descend?,
    Option.map_bind, Function.comp_def, Option.map_some, Option.bind_fun_some] at h
  obtain ⟨w, hw, hup⟩ := Entries.update?_spec hr.sorted h
  split at hw
  · next hnone =>
    obtain rfl := Option.some.inj hw
    exact ⟨hnone, hup⟩
  · next entries hpassed =>
    have := (hr.tables name _ _ hpassed).1
    contradiction
  · contradiction

/-- Before the first header a value goes into the document itself. -/
theorem assignUnder?_root {key : String} {v : Value} {root root' : Entries} (hr : root.Flat)
    (h : assignUnder? [] [key] v root = some root') : root.lookup key = none ∧ Entries.Updated key v root root' := by
  have hadd : add? key v root = some root' := by
    simpa [assignUnder?, assign?, descend?] using h
  exact add?_spec hr.sorted hadd

/-- Behind a header a value goes into its table. -/
theorem assignUnder?_table {name key : String} {v : Value} {root root' entries : Entries} (hr : root.Flat)
    (hname : root.lookup name = some (.table .header entries)) (h : assignUnder? [name] [key] v root = some root') :
    entries.lookup key = none ∧ ∃ entries', Entries.Updated key v entries entries' ∧
      Entries.Updated name (.table .header entries') root root' := by
  simp only [assignUnder?, descend?, Bool.false_eq_true, if_false, Option.bind_eq_bind, false_and, or_false,
    Option.map_bind, Function.comp_def, Option.map_some, Option.bind_fun_some] at h
  obtain ⟨w, hw, hup⟩ := Entries.update?_spec hr.sorted h
  obtain ⟨entries', hadd, rfl⟩ : ∃ entries', add? key v entries = some entries' ∧ .table .header entries' = w := by
    simpa [hname, assign?, descend?, Option.bind_eq_some_iff] using hw
  obtain ⟨hnone, hup'⟩ := add?_spec (hr.tables name _ _ hname).2 hadd
  exact ⟨hnone, entries', hup', hup⟩

/-! ## A document only grows -/

/-- Values stay as they are, and tables keep their entries. -/
structure Entries.Grows (root root' : Entries) : Prop where
  values : ∀ key v, v.Scalar → root.lookup key = some v → root'.lookup key = some v
  tables : ∀ name entries, root.lookup name = some (.table .header entries) →
    ∃ entries', root'.lookup name = some (.table .header entries') ∧
      ∀ key v, entries.lookup key = some v → entries'.lookup key = some v

theorem Entries.Grows.refl (root : Entries) : Grows root root :=
  ⟨fun _ _ _ h => h, fun _ entries h => ⟨entries, h, fun _ _ h => h⟩⟩

theorem Entries.Grows.trans {root root' root'' : Entries} (h : Grows root root') (h' : Grows root' root'') :
    Grows root root'' := by
  refine ⟨fun key v hv hlook => h'.values key v hv (h.values key v hv hlook), fun name entries hlook => ?_⟩
  obtain ⟨entries', hlook', hkeep⟩ := h.tables name entries hlook
  obtain ⟨entries'', hlook'', hkeep'⟩ := h'.tables name entries' hlook'
  exact ⟨entries'', hlook'', fun key v hkey => hkeep' key v (hkeep key v hkey)⟩

theorem Entries.Updated.grows_of_none {key : String} {v : Value} {root root' : Entries}
    (h : Updated key v root root') (hnone : root.lookup key = none) : Grows root root' := by
  have hne : ∀ k w, root.lookup k = some w → k ≠ key := by
    rintro k w hlook rfl
    rw [hnone] at hlook
    contradiction
  refine ⟨fun k w _ hlook => ?_, fun name entries hlook => ⟨entries, ?_, fun _ _ hkey => hkey⟩⟩
  · rw [h.other k (hne k w hlook)]
    exact hlook
  · rw [h.other name (hne name _ hlook)]
    exact hlook

theorem Entries.Updated.grows_table {name key : String} {v : Value} {root root' entries entries' : Entries}
    (h : Updated name (.table .header entries') root root') (hname : root.lookup name = some (.table .header entries))
    (hin : Updated key v entries entries') (hnone : entries.lookup key = none) : Grows root root' := by
  have hkeep : ∀ k w, entries.lookup k = some w → entries'.lookup k = some w := by
    intro k w hlook
    by_cases hk : k = key
    · rw [hk, hnone] at hlook
      contradiction
    · rw [hin.other k hk]
      exact hlook
  refine ⟨fun k w hw hlook => ?_, fun name' entries'' hlook => ?_⟩
  · have hk : k ≠ name := by
      rintro rfl
      rw [hname] at hlook
      exact hw _ _ (Option.some.inj hlook).symm
    rw [h.other k hk]
    exact hlook
  · by_cases hn : name' = name
    · rw [hn, hname] at hlook
      obtain rfl : entries = entries'' := by simpa using hlook
      exact ⟨entries', hn ▸ h.here, hkeep⟩
    · exact ⟨entries'', by rw [h.other name' hn]; exact hlook, fun _ _ hkey => hkey⟩

end DoorBridge.Toml
