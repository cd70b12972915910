import DoorBridge.Proofs.Settings.Values
import DoorBridge.Proofs.Toml.Statements
import DoorBridge.Settings.Load

/-!
# Proofs.Settings.Agreement — text that the build accepts, read at boot

The build reads settings text as a document, the firmware reads it line by line.  `ofDocument` is what a document asks for.
For text that the build accepts the two agree on plain lines, and on any other line the firmware stops with an error:
`parse_of_checked`.
-/

namespace DoorBridge

open Toml (Value Draft Completes wordValue?)

/-- What a phrase has to be for both readers: its value plain, if it gives one. -/
def Phrase.Plain : Phrase → Prop
  | .pair key value => PlainValue key value
  | _ => True

/-- A line that says nothing, names a section by its bare name, or gives a bare key a plain value. -/
def PlainLine (line : List Char) : Prop := ∃ p, Written line p ∧ p.Plain

namespace Settings

/-! ## What a document asks for -/

/-- The value of a key in a section of a document. -/
def valueAt? (document : Value) (sec : Section) (key : String) : Option Value :=
  (document.get? sec.key).bind (·.get? key)

/-- The set of the triggers that are on. -/
def triggersOf (on : MotionTrigger → Bool) : MotionTriggers :=
  MotionTrigger.all.foldl (fun set t => set.set t (on t)) {}

/-- The settings of a document: each setting as its entry says, and its default where there is none. -/
def ofDocument (document : Value) : Settings where
  security := ((valueAt? document .bridge "security_type").bind securityOf?).getD .plus2
  ttcSeconds := .ofNat (((valueAt? document .bridge "ttc_seconds").bind naturalOf?).getD 0)
  motionTriggers := triggersOf fun t => ((valueAt? document .motionTriggers t.key).bind flagOf?).getD false
  debounce := ((valueAt? document .bridge "sec1_door_debounce").bind flagOf?).getD true
  recoveryWindow := .ofNat (((valueAt? document .bridge "force_recover_delay_ms").bind naturalOf?).getD 3000)
  ledIdle := ((valueAt? document .bridge "led_idle").bind ledIdleOf?).getD .off

/-- The order in which triggers are set does not matter. -/
theorem triggersOf_update (on : MotionTrigger → Bool) (t : MotionTrigger) (b : Bool) :
    triggersOf (Function.update on t b) = (triggersOf on).set t b := by
  have hset : ∀ m o l d k b : Bool, ∀ t : MotionTrigger,
      let on : MotionTrigger → Bool := MotionTrigger.rec m o l d k
      triggersOf (Function.update on t b) = (triggersOf on).set t b := by
    intro m o l d k b t
    revert m o l d k b
    cases t <;> decide
  have hon : on = MotionTrigger.rec (on .motion) (on .obstruction) (on .lightKey) (on .doorKey) (on .lockKey) := by
    funext t
    cases t <;> rfl
  rw [hon]
  exact hset _ _ _ _ _ b t

/-! ## One more entry -/

/-- A document with one more entry. -/
structure Grown (document document' : Value) (sec : Section) (key : String) (v : Value) : Prop where
  here : valueAt? document' sec key = some v
  other : ∀ sec' key', (sec', key') ≠ (sec, key) → valueAt? document' sec' key' = valueAt? document sec' key'

/-- One more entry sets what it names. -/
theorem Grown.ofDocument {document document' v : Value} {sec : Section} {key : String}
    (h : Grown document document' sec key v) {s : Settings} (hs : (ofDocument document).give sec key v = some s) :
    ofDocument document' = s := by
  cases sec with
  | bridge =>
    have htriggers : ∀ k, valueAt? document' .motionTriggers k = valueAt? document .motionTriggers k :=
      fun k => h.other _ _ (by simp)
    have hbridge : ∀ k, k ≠ key → valueAt? document' .bridge k = valueAt? document .bridge k :=
      fun k hk => h.other _ _ (by simpa using hk)
    unfold give at hs
    simp only at hs
    split at hs
    · obtain ⟨g, hg, rfl⟩ := Option.map_eq_some_iff.mp hs
      simp [Settings.ofDocument, htriggers, hbridge, h.here, hg]
    · obtain ⟨n, hn, rfl⟩ := Option.map_eq_some_iff.mp hs
      simp [Settings.ofDocument, htriggers, hbridge, h.here, hn]
    · obtain ⟨on, hon, rfl⟩ := Option.map_eq_some_iff.mp hs
      simp [Settings.ofDocument, htriggers, hbridge, h.here, hon]
    · obtain ⟨n, hn, rfl⟩ := Option.map_eq_some_iff.mp hs
      simp [Settings.ofDocument, htriggers, hbridge, h.here, hn]
    · obtain ⟨idle, hidle, rfl⟩ := Option.map_eq_some_iff.mp hs
      simp [Settings.ofDocument, htriggers, hbridge, h.here, hidle]
    · contradiction
  | motionTriggers =>
    have hbridge : ∀ k, valueAt? document' .bridge k = valueAt? document .bridge k := fun k => h.other _ _ (by simp)
    unfold give at hs
    simp only at hs
    split at hs
    · next t ht =>
      obtain ⟨on, hon, rfl⟩ := Option.map_eq_some_iff.mp hs
      obtain rfl : t.key = key := by simpa using List.find?_some ht
      have htriggers : (fun t => ((valueAt? document' .motionTriggers t.key).bind flagOf?).getD false) =
          Function.update (fun t => ((valueAt? document .motionTriggers t.key).bind flagOf?).getD false) t on := by
        funext t'
        by_cases ht' : t' = t
        · subst ht'
          simp [h.here, hon]
        · have hkey : t'.key ≠ t.key := by
            revert ht'
            cases t <;> cases t' <;> decide
          rw [Function.update_of_ne ht', h.other _ _ (by simpa using hkey)]
      simp only [Settings.ofDocument, hbridge, htriggers, triggersOf_update]
    · contradiction

/-! ## What the check says about a document -/

theorem mem_of_lookup {entries : List (String × Value)} {key : String} {v : Value} (h : entries.lookup key = some v) :
    (key, v) ∈ entries := by
  obtain ⟨before, after, rfl, -⟩ := List.lookup_eq_some_iff.mp h
  simp

theorem checkEntries_nil {check : String → Value → List String} {entries : List (String × Value)} {origin : Toml.Origin}
    (h : checkEntries check (some (.table origin entries)) = []) {key : String} {v : Value}
    (hkey : entries.lookup key = some v) : check key v = [] :=
  List.flatMap_eq_nil_iff.mp h (key, v) (mem_of_lookup hkey)

section Checked

variable {root : Toml.Entries} (hc : check (.table .header root) = [])

include hc in
/-- Everything at the top of a document is the table of a section. -/
theorem section_of_check {name : String} {v : Value} (h : root.lookup name = some v) :
    ∃ sec : Section, name = sec.key ∧ ∃ origin entries, v = .table origin entries := by
  have hsection : checkSection name v = [] :=
    checkEntries_nil (List.append_eq_nil_iff.mp (List.append_eq_nil_iff.mp hc).1).1 h
  unfold checkSection at hsection
  split at hsection
  · next hname =>
    split at hsection
    · next origin entries =>
      rcases hname with rfl | rfl
      · exact ⟨.bridge, rfl, origin, entries, rfl⟩
      · exact ⟨.motionTriggers, rfl, origin, entries, rfl⟩
    · contradiction
  · contradiction

include hc in
theorem checkEntry_of_check {sec : Section} {key : String} {v : Value}
    (h : valueAt? (.table .header root) sec key = some v) : checkEntry sec key v = [] := by
  obtain ⟨table, htable, hkey⟩ := Option.bind_eq_some_iff.mp h
  obtain ⟨hbridge, htriggers⟩ := List.append_eq_nil_iff.mp hc
  have hbridge' := (List.append_eq_nil_iff.mp hbridge).2
  cases table with
  | table origin entries =>
    cases sec with
    | bridge =>
      change (Value.table .header root).get? "bridge" = _ at htable
      rw [htable] at hbridge'
      exact checkEntries_nil hbridge' hkey
    | motionTriggers =>
      change (Value.table .header root).get? "motion_triggers" = _ at htable
      rw [htable] at htriggers
      exact checkEntries_nil htriggers hkey
  | _ => contradiction

include hc in
/-- Every entry of a document without complaints is set: setting it once more changes nothing. -/
theorem give_ofDocument {sec : Section} {key : String} {v : Value}
    (h : valueAt? (.table .header root) sec key = some v) :
    (ofDocument (.table .header root)).give sec key v = some (ofDocument (.table .header root)) := by
  have hentry := checkEntry_of_check hc h
  cases sec with
  | bridge =>
    have hkey := key_of_check hentry
    simp only [sectionKeys, List.mem_cons, List.not_mem_nil, or_false] at hkey
    rcases hkey with rfl | rfl | rfl | rfl | rfl
    · obtain ⟨g, hg⟩ := securityOf?_of_check hentry
      simp [give, hg, ofDocument, h]
    · obtain ⟨n, hn, -⟩ := naturalOf?_of_check_ttc hentry
      simp [give, hn, ofDocument, h]
    · obtain ⟨on, hon⟩ := flagOf?_of_check hentry
      simp [give, hon, ofDocument, h]
    · obtain ⟨n, hn, -⟩ := naturalOf?_of_check_window hentry
      simp [give, hn, ofDocument, h]
    · obtain ⟨idle, hidle⟩ := ledIdleOf?_of_check hentry
      simp [give, hidle, ofDocument, h]
  | motionTriggers =>
    obtain ⟨t, on, ht, hon⟩ := trigger_of_check hentry
    obtain rfl : t.key = key := by simpa using List.find?_some ht
    have hset : (ofDocument (.table .header root)).motionTriggers.set t on =
        (ofDocument (.table .header root)).motionTriggers := by
      have hon' : ((valueAt? (.table .header root) .motionTriggers t.key).bind flagOf?).getD false = on := by
        simp [h, hon]
      simp only [ofDocument]
      rw [← triggersOf_update, Function.update_eq_self_iff.mpr hon'.symm]
    simp only [give, ht, hon, Option.map_some, hset]

end Checked

/-! ## One line -/

/-- Settings and section in force are those of the document so far. -/
structure Settled (state : Settings × Section) (d : Draft) : Prop where
  tidy : d.Tidy
  settings : state.1 = ofDocument (.table .header d.root)
  place : d.header = [] ∧ state.2 = .bridge ∨ d.header = [state.2.key]

theorem settled_empty : Settled ({}, .bridge) {} := ⟨Draft.tidy_empty, by decide, .inl ⟨rfl, rfl⟩⟩

theorem valueAt?_table {root entries : Toml.Entries} {sec : Section}
    (h : root.lookup sec.key = some (.table .header entries)) (key : String) :
    valueAt? (.table .header root) sec key = entries.lookup key := by
  show ((root.lookup sec.key).bind _) = _
  rw [h]
  rfl

theorem valueAt?_of_lookup {root root' : Toml.Entries} {sec : Section} (h : root'.lookup sec.key = root.lookup sec.key)
    (key : String) : valueAt? (.table .header root') sec key = valueAt? (.table .header root) sec key := by
  show ((root'.lookup sec.key).bind _) = (root.lookup sec.key).bind _
  rw [h]

theorem section_key_injective {sec sec' : Section} (h : sec.key = sec'.key) : sec = sec' := by
  revert h
  cases sec <;> cases sec' <;> decide

section Step

variable {state state' : Settings × Section} {d d' final : Draft} {p : Phrase}

/-- A header names a section of the document, whose table is new. -/
theorem Settled.header {name : List Char} {root : Toml.Entries} (h : Settled state d)
    (hroot : Toml.openTable? [String.ofList name] d.root = some root) (hgrows : root.Grows final.root)
    (hc : check (.table .header final.root) = []) :
    ∃ sec, readPhrase state (.header name) = .ok (state.1, sec) ∧
      Settled (state.1, sec) ⟨root, [String.ofList name]⟩ := by
  obtain ⟨hnone, hup⟩ := Toml.openTable?_spec h.tidy.flat hroot
  obtain ⟨entries, hfinal, -⟩ := hgrows.tables _ _ hup.here
  obtain ⟨sec, hname, -⟩ := section_of_check hc hfinal
  have hread : sectionNamed? name = .ok sec := by
    rw [sectionNamed?, hname]
    cases sec with
    | bridge => exact if_pos rfl
    | motionTriggers => rw [if_neg (by decide), if_pos rfl]
  have hentry : ∀ sec' key, valueAt? (.table .header root) sec' key = valueAt? (.table .header d.root) sec' key := by
    intro sec' key
    by_cases hsec : sec'.key = String.ofList name
    · rw [← hsec] at hnone hup
      rw [valueAt?_table hup.here, valueAt?, Value.get?]
      show none = (d.root.lookup sec'.key).bind _
      rw [hnone]
      rfl
    · exact valueAt?_of_lookup (hup.other _ hsec) key
  have htidy := ((Toml.Draft.Takes.header hroot).tidy h.tidy).1
  refine ⟨sec, by rw [readPhrase, hread]; rfl, htidy, ?_, .inr (by rw [hname])⟩
  rw [h.settings]
  simp only [ofDocument, hentry]

/-- A pair adds an entry to the section in force, which the check has seen. -/
theorem Settled.entry {key : List Char} {v : Value} {root : Toml.Entries} (h : Settled state d) (hv : v.Scalar)
    (hroot : Toml.assignUnder? d.header [String.ofList key] v d.root = some root) (hgrows : root.Grows final.root)
    (hc : check (.table .header final.root) = []) :
    checkEntry state.2 (String.ofList key) v = [] ∧
      Grown (.table .header d.root) (.table .header root) state.2 (String.ofList key) v ∧ d.header = [state.2.key] := by
  rcases h.place with ⟨hnil, -⟩ | hplace
  · -- before the first header the value would stand beside the sections, which the check does not accept
    rw [hnil] at hroot
    obtain ⟨-, hup⟩ := Toml.assignUnder?_root h.tidy.flat hroot
    obtain ⟨-, -, origin, entries, rfl⟩ := section_of_check hc (hgrows.values _ v hv hup.here)
    exact absurd rfl (hv origin entries)
  · obtain ⟨entries, htable⟩ : ∃ entries, d.root.lookup state.2.key = some (.table .header entries) := by
      rcases h.tidy.place with hnil | ⟨name, entries, hname, htable⟩
      · rw [hnil] at hplace
        contradiction
      · rw [hname] at hplace
        obtain rfl : name = state.2.key := by simpa using hplace
        exact ⟨entries, htable⟩
    rw [hplace] at hroot
    obtain ⟨-, entries', hin, hup⟩ := Toml.assignUnder?_table h.tidy.flat htable hroot
    obtain ⟨entries'', hfinal, hkeep⟩ := hgrows.tables _ _ hup.here
    refine ⟨checkEntry_of_check hc ?_, ⟨?_, ?_⟩, hplace⟩
    · rw [valueAt?_table hfinal]
      exact hkeep _ _ hin.here
    · rw [valueAt?_table hup.here]
      exact hin.here
    · intro sec' key' hne
      by_cases hsec : sec' = state.2
      · subst hsec
        rw [valueAt?_table hup.here, valueAt?_table htable]
        exact hin.other key' (by simpa using hne)
      · exact valueAt?_of_lookup (hup.other _ fun heq => hsec (section_key_injective heq)) key'

/-- A plain line does to the settings what it does to the document. -/
theorem Settled.of_plain (h : Settled state d) (ht : d.Takes p d') (hgrows : d'.root.Grows final.root)
    (hc : check (.table .header final.root) = []) (hp : p.Plain) :
    ∃ state', readPhrase state p = .ok state' ∧ Settled state' d' := by
  have htidy := (ht.tidy h.tidy).1
  cases ht with
  | nothing => exact ⟨state, rfl, h⟩
  | header hroot =>
    obtain ⟨sec, hread, hset⟩ := h.header hroot hgrows hc
    exact ⟨_, hread, hset⟩
  | @pair key value v root hv hroot =>
    obtain ⟨hcheck, hgrown, hplace⟩ := h.entry (Toml.wordValue?_scalar hv) hroot hgrows hc
    obtain ⟨s, hgive, hassign⟩ := assign_of_stands (PlainValue.stands hp hv) hp.no_sign hcheck state.1
    rw [h.settings] at hgive
    exact ⟨(s, state.2), by rw [readPhrase, hassign]; rfl, htidy, (hgrown.ofDocument hgive).symm, .inr hplace⟩

/-- A line that is read is plain. -/
theorem plain_of_readPhrase (ht : d.Takes p d') (h : readPhrase state p = .ok state') : p.Plain := by
  cases ht with
  | nothing => trivial
  | header => trivial
  | pair hv _ =>
    obtain ⟨s, hs, -⟩ := map_eq_ok.mp h
    exact plain_of_assign hs hv

end Step

/-! ## All lines -/

section Lines

variable {lines : List (List Char)} {state state' : Settings × Section} {d final : Draft}

/-- Plain lines are read, and give what the document asks for. -/
theorem Settled.foldlM_of_plain (hlines : ∀ line ∈ lines, '\n' ∉ line ∧ PlainLine line) (h : Settled state d)
    (hcomplete : Completes d (Toml.joinLines lines) final) (hc : check (.table .header final.root) = []) :
    ∃ state', lines.foldlM readLine state = .ok state' ∧ state'.1 = ofDocument (.table .header final.root) := by
  induction lines generalizing state d with
  | nil =>
    obtain rfl := Completes.nil_iff.mp hcomplete
    exact ⟨state, rfl, h.settings⟩
  | cons line lines ih =>
    obtain ⟨hnl, p, hw, hp⟩ := hlines line (by simp)
    obtain ⟨e, he, hjoin, hrest⟩ := Toml.exists_joinLines_cons line lines
    rw [hjoin] at hcomplete
    obtain ⟨d', htakes, hcomplete'⟩ := hcomplete.exists_takes hw hnl he
    rw [hrest] at hcomplete'
    have hlater : ∀ l ∈ lines, '\n' ∉ l ∧ PlainLine l := fun l hl => hlines l (by simp [hl])
    -- the check speaks of the whole document, and the later lines leave this line's entry in it
    have hgrows : d'.root.Grows final.root :=
      hcomplete'.grows (fun l hl => ⟨(hlater l hl).1, (hlater l hl).2.imp fun _ => And.left⟩) (htakes.tidy h.tidy).1
    obtain ⟨state'', hread, hset⟩ := h.of_plain htakes hgrows hc hp
    obtain ⟨state', hfold, hresult⟩ := ih hlater hset hcomplete'
    refine ⟨state', ?_, hresult⟩
    rw [List.foldlM_cons, readLine_of_written hw, hread]
    exact hfold

/-- Lines that are read and make a document are plain. -/
theorem plain_of_foldlM (hlines : ∀ line ∈ lines, '\n' ∉ line) (hcomplete : Completes d (Toml.joinLines lines) final)
    (h : lines.foldlM readLine state = .ok state') : ∀ line ∈ lines, PlainLine line := by
  induction lines generalizing state d with
  | nil => simp
  | cons line lines ih =>
    rw [List.foldlM_cons] at h
    cases hread : readLine state line with
    | error cause =>
      rw [hread] at h
      contradiction
    | ok state'' =>
      rw [hread] at h
      obtain ⟨p, hw⟩ := exists_written hread
      obtain ⟨e, he, hjoin, hrest⟩ := Toml.exists_joinLines_cons line lines
      rw [hjoin] at hcomplete
      obtain ⟨d', htakes, hcomplete'⟩ := hcomplete.exists_takes hw (hlines line (by simp)) he
      rw [hrest] at hcomplete'
      rw [readLine_of_written hw] at hread
      intro l hl
      rcases List.mem_cons.mp hl with rfl | hl
      · exact ⟨p, hw, plain_of_readPhrase htakes hread⟩
      · exact ih (fun l hl => hlines l (by simp [hl])) hcomplete' h l hl

end Lines

/-! ## Whole texts -/

theorem Written.head_ne_mark {line : List Char} {p : Phrase} (h : Written line p) : line.head? ≠ some '\ufeff' := by
  have hblank : ∀ {b : List Char}, Blanks b → ∀ {rest}, rest.head? ≠ some '\ufeff' →
      (b ++ rest).head? ≠ some '\ufeff' := by
    intro b hb rest hrest
    cases b with
    | nil => exact hrest
    | cons c b =>
      intro heq
      exact ne_of_test (x := '\ufeff') (hb c (by simp)) rfl (by simpa using heq)
  have hword : ∀ {w rest : List Char}, BareWord w → (w ++ rest).head? ≠ some '\ufeff' := by
    intro w rest hw heq
    obtain ⟨c, cs, rfl⟩ := List.exists_cons_of_ne_nil hw.1
    exact ne_of_test (x := '\ufeff') (hw.2 c (by simp)) rfl (by simpa using heq)
  cases h with
  | nothing ht =>
    cases ht with
    | blanks hb =>
      intro heq
      exact ne_of_test (x := '\ufeff') (hb _ (List.mem_of_head? heq)) rfl rfl
    | comment more hb => exact hblank hb (by simp)
  | header hb => exact hblank hb (by simp)
  | pair hb hkey =>
    rw [List.append_assoc, List.append_assoc]
    exact hblank hb (hword hkey)

/-- A text without a byte order mark is read as a document from its first character on. -/
theorem completes_of_parse? {text : String} {document : Value} (h : Toml.parse? text = some document)
    (hmark : text.toList.head? ≠ some '\ufeff') :
    ∃ final : Draft, document = .table .header final.root ∧
      Completes {} (Toml.joinLines (splitAtChar '\n' text.toList)) final := by
  obtain ⟨final, hfinal, rfl⟩ := Option.map_eq_some_iff.mp h
  refine ⟨final, rfl, ?_⟩
  rw [Toml.joinLines_splitAtChar]
  split at hfinal
  · next cs heq =>
    rw [heq] at hmark
    exact absurd rfl hmark
  · exact ⟨_, hfinal⟩

theorem head?_splitAtChar {cs line : List Char} {lines : List (List Char)} (h : splitAtChar '\n' cs = line :: lines) :
    cs.head? = some '\ufeff' → line.head? = some '\ufeff' := by
  intro hmark
  obtain ⟨rest, rfl⟩ := List.head?_eq_some_iff.mp hmark
  obtain ⟨first, later, hsplit⟩ := Toml.exists_splitAtChar '\n' rest
  rw [splitAtChar, hsplit, if_neg (by decide)] at h
  obtain ⟨rfl, -⟩ := List.cons.inj h
  rfl

theorem ofText_eq (text : String) : ofText text.toUTF8.data.toList =
    match parse text with
    | .ok s => .ok s
    | .error cause => .error (.parse cause) := by
  have hbytes : (⟨text.toUTF8.data.toList.toArray⟩ : ByteArray) = text.toUTF8 := by simp
  have hutf8 : String.fromUTF8? text.toUTF8 = some text := by
    simp only [String.fromUTF8?, String.toUTF8_eq_toByteArray, dif_pos text.isValidUTF8]
    rfl
  cases hparse : parse text <;> simp only [ofText, hbytes, hutf8, hparse]

section Texts

variable {text : String} {document : Value}

/-- No text with a byte order mark has a first line of one of the three forms. -/
theorem no_mark {line : List Char} {lines : List (List Char)} {p : Phrase}
    (h : splitAtChar '\n' text.toList = line :: lines) (hw : Written line p) : text.toList.head? ≠ some '\ufeff' :=
  fun hmark => Written.head_ne_mark hw (head?_splitAtChar h hmark)

theorem parse_of_plain (h : Toml.parse? text = some document) (hc : check document = [])
    (hplain : ∀ line ∈ splitAtChar '\n' text.toList, PlainLine line) : parse text = .ok (ofDocument document) := by
  obtain ⟨first, later, hsplit⟩ := Toml.exists_splitAtChar '\n' text.toList
  obtain ⟨p, hw, -⟩ := hplain first (by simp [hsplit])
  obtain ⟨final, rfl, hcomplete⟩ := completes_of_parse? h (no_mark hsplit hw)
  obtain ⟨state, hfold, hresult⟩ := settled_empty.foldlM_of_plain
    (fun line hl => ⟨Toml.not_mem_of_mem_splitAtChar hl, hplain line hl⟩) hcomplete hc
  rw [parse, hfold, ← hresult]
  rfl

/-- Text that both readers take has plain lines only. -/
theorem plain_of_parse (h : Toml.parse? text = some document) {s : Settings} (hs : parse text = .ok s) :
    ∀ line ∈ splitAtChar '\n' text.toList, PlainLine line := by
  obtain ⟨first, later, hsplit⟩ := Toml.exists_splitAtChar '\n' text.toList
  obtain ⟨state, hfold, -⟩ := map_eq_ok.mp hs
  have hfirst : ∃ p, Written first p := by
    rw [hsplit, List.foldlM_cons] at hfold
    cases hread : readLine ({}, .bridge) first with
    | error cause =>
      rw [hread] at hfold
      contradiction
    | ok state' => exact exists_written hread
  obtain ⟨p, hw⟩ := hfirst
  obtain ⟨final, rfl, hcomplete⟩ := completes_of_parse? h (no_mark hsplit hw)
  exact plain_of_foldlM (fun _ => Toml.not_mem_of_mem_splitAtChar) hcomplete hfold

/-- For text that parses as a document without a complaint, every entry of which is a setting: if its lines are plain, the
settings are read and are those that the document asks for; and if some line is not, reading stops with an error, and the
image falls back to the defaults. -/
theorem parse_of_checked (h : Toml.parse? text = some document) (hc : check document = []) :
    (∀ sec key v, valueAt? document sec key = some v →
      (ofDocument document).give sec key v = some (ofDocument document)) ∧
    ((∀ line ∈ splitAtChar '\n' text.toList, PlainLine line) → parse text = .ok (ofDocument document) ∧
      embedded text = (ofDocument document, [.info "Parsed embedded configuration successfully"])) ∧
    ((∃ line ∈ splitAtChar '\n' text.toList, ¬ PlainLine line) →
      (∃ cause, parse text = .error cause) ∧ (embedded text).1 = {}) := by
  refine ⟨?_, fun hplain => ?_, ?_⟩
  · obtain ⟨final, -, rfl⟩ := Option.map_eq_some_iff.mp h
    exact fun sec key v => give_ofDocument hc
  · have hparse := parse_of_plain h hc hplain
    exact ⟨hparse, by simp only [embedded, ofText_eq, hparse]⟩
  · rintro ⟨line, hmem, hline⟩
    cases hparse : parse text with
    | error cause => exact ⟨⟨cause, rfl⟩, by simp only [embedded, ofText_eq, hparse]⟩
    | ok s => exact absurd (plain_of_parse h hparse line hmem) hline

end Texts

theorem parse_of_checked_signed :
    let text := "[bridge]\nttc_seconds = +10\n"
    let document := Value.table .header [("bridge", .table .header [("ttc_seconds", .integer 10)])]
    Toml.parse? text = some document ∧ check document = [] ∧
      (∀ line ∈ splitAtChar '\n' text.toList, PlainLine line) ∧ parse text = .ok { ttcSeconds := 10 } := by
  have hdoc : Toml.parse? "[bridge]\nttc_seconds = +10\n" =
      some (.table .header [("bridge", .table .header [("ttc_seconds", .integer 10)])]) := rfl
  have hcheck : check (.table .header [("bridge", .table .header [("ttc_seconds", .integer 10)])]) = [] := rfl
  have hplain : ∀ line ∈ splitAtChar '\n' "[bridge]\nttc_seconds = +10\n".toList, PlainLine line := by
    have hnone : Blanks [] := by simp [Blanks]
    have hspace : Blanks [' '] := fun c hc => by
      rw [List.mem_singleton.mp hc]
      rfl
    have hheader : Written ([] ++ '[' :: ([] ++ "bridge".toList ++ [] ++ ']' :: [])) (.header "bridge".toList) :=
      .header hnone hnone (by decide) hnone (.blanks hnone)
    have hpair : Written ([] ++ "ttc_seconds".toList ++ [' '] ++ '=' :: ([' '] ++ "+10".toList ++ []))
        (.pair "ttc_seconds".toList "+10".toList) :=
      .pair hnone (by decide) hspace hspace (.bare (by decide) (by simp)) (.blanks hnone)
    have hvalue : PlainValue "ttc_seconds".toList ('+' :: "10".toList) :=
      .signed (by decide) (List.all_eq_true.mp (by decide)) (by decide)
    have hlines : splitAtChar '\n' "[bridge]\nttc_seconds = +10\n".toList =
        ["[bridge]".toList, "ttc_seconds = +10".toList, []] := by decide
    rw [hlines]
    intro line hline
    simp only [List.mem_cons, List.not_mem_nil, or_false] at hline
    rcases hline with rfl | rfl | rfl
    · exact ⟨_, hheader, trivial⟩
    · exact ⟨_, hpair, hvalue⟩
    · exact ⟨_, .nothing (.blanks hnone), trivial⟩
  refine ⟨hdoc, hcheck, hplain, ?_⟩
  rw [((parse_of_checked hdoc hcheck).2.1 hplain).1]
  decide

/-- A number in base sixteen passes the build, and the firmware falls back to its defaults. -/
theorem hexadecimal_refused :
    let text := "[bridge]\nttc_seconds = 0x0a\n"
    let document := Value.table .header [("bridge", .table .header [("ttc_seconds", .integer 10)])]
    Toml.parse? text = some document ∧ check document = [] ∧ ofDocument document = { ttcSeconds := 10 } ∧
      parse text = .error .invalidValue ∧ (embedded text).1 = {} := by
  have hparse : parse "[bridge]\nttc_seconds = 0x0a\n" = .error .invalidValue := by decide
  refine ⟨rfl, rfl, by decide, hparse, ?_⟩
  simp only [embedded, ofText_eq, hparse]

end Settings

end DoorBridge
