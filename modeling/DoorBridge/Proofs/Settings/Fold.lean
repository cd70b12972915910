import DoorBridge.Proofs.Settings.Spellings

/-!
# Proofs.Settings.Fold — settings text as the fold of its lines

Under the section in force a line is good (`Good`) or at fault (`Fault`), and never anything else (`good_or_fault`).  A
good line makes its assignment and says which section is in force after it (`readLine_of_good`); a line at fault stops
the reading with its error (`readLine_of_fault`).  So text is read as the fold of its lines, up to the first one at
fault: `parse_eq_fold`.
-/

namespace DoorBridge

/-! ## Good lines -/

/-- What stands behind the opening bracket of a header: the name of a section, the closing bracket, and maybe a comment. -/
inductive Heads (sec : Section) : List Char → Prop where
  | mk {b b' tail} : Blanks b → Blanks b' → Trailer tail → Heads sec (b ++ sec.key.toList ++ b' ++ ']' :: tail)

/-- What stands behind the equals sign of an assignment: a value of the key, and maybe a comment. -/
inductive Gives (sec : Section) (key : String) : List Char → Assignment → Prop where
  | mk {b value tail a} : Blanks b → Spells sec key value a → Trailer tail → Gives sec key (b ++ value ++ tail) a

/-- A line that is accepted under a section, the assignments it makes, and the section in force after it. -/
inductive Good (sec : Section) : List Char → List Assignment → Section → Prop where
  | nothing {line} : Trailer line → Good sec line [] sec
  | header {b rest sec'} : Blanks b → Heads sec' rest → Good sec (b ++ '[' :: rest) [] sec'
  | assign {b key b' right a} : Blanks b → Blanks b' → Gives sec key right a →
      Good sec (b ++ key.toList ++ b' ++ '=' :: right) [a] sec

/-! ## Lines at fault -/

/-- A line that is refused under a section, and the error.  A missing value counts before an unknown key, and that before
a bad value. -/
inductive Fault (sec : Section) : List Char → ParseError → Prop where
  | badHeader {b rest} : Blanks b → (∀ sec', ¬Heads sec' rest) → Fault sec (b ++ '[' :: rest) .invalidSection
  | noEquals {b key b'} : Blanks b → Label key → Blanks b' → Fault sec (b ++ key ++ b') .invalidValue
  | noKey {b right} : Blanks b → Fault sec (b ++ '=' :: right) .invalidValue
  | noValue {b key b' right} : Blanks b → Label key → Blanks b' → Trailer right →
      Fault sec (b ++ key ++ b' ++ '=' :: right) .invalidValue
  | unknownKey {b key b' right} : Blanks b → Label key → Blanks b' → ¬Trailer right →
      String.ofList key ∉ Settings.sectionKeys sec → Fault sec (b ++ key ++ b' ++ '=' :: right) .unknownKey
  | badValue {b key b' right} : Blanks b → key ∈ Settings.sectionKeys sec → Blanks b' → (∀ a, ¬Gives sec key right a) →
      Fault sec (b ++ key.toList ++ b' ++ '=' :: right) .invalidValue

/-! ## Text -/

/-- Lines that are good one after another, with all their assignments, and the section in force at the end. -/
inductive GoodLines : Section → List (List Char) → List Assignment → Section → Prop where
  | nil {sec} : GoodLines sec [] [] sec
  | cons {sec line as sec' lines as' sec''} : Good sec line as sec' → GoodLines sec' lines as' sec'' →
      GoodLines sec (line :: lines) (as ++ as') sec''

/-- Text in lines.  Each line but the last ends in a line feed, or in a carriage return and a line feed. -/
inductive Composed : List Char → List (List Char) → Prop where
  | last {line} : '\n' ∉ line → Composed line [line]
  | feed {line text lines} : '\n' ∉ line → Composed text lines → Composed (line ++ '\n' :: text) (line :: lines)
  | returnFeed {line text lines} : '\n' ∉ line → Composed text lines →
      Composed (line ++ '\r' :: '\n' :: text) (line :: lines)

namespace Settings

variable {state : Settings × Section} {sec : Section}

/-! ## Headers -/

theorem sectionNamed?_eq_ok {name : List Char} : sectionNamed? name = .ok sec ↔ name = sec.key.toList := by
  have hname : String.ofList name = sec.key ↔ name = sec.key.toList := by
    rw [← String.toList_inj, String.toList_ofList]
  rw [← hname, sectionNamed?]
  generalize String.ofList name = word
  cases sec with
  | bridge => grind [Section.key]
  | motionTriggers => grind [Section.key]

theorem readHeader_error {line : List Char} {cause : ParseError} (h : readHeader line = .error cause) :
    cause = .invalidSection := by
  unfold readHeader at h
  grind

theorem readLine_bracket {b : List Char} (hb : Blanks b) (rest : List Char) :
    readLine state (b ++ '[' :: rest) = (readHeader ('[' :: rest.rdropWhile isBlank)).map fun sec => (state.1, sec) := by
  have htrim : trimBlanks (b ++ '[' :: rest) = '[' :: rest.rdropWhile isBlank := trimBlanks_cons hb rfl rest
  simp only [readLine, htrim]

theorem readLine_of_heads {b rest : List Char} (hb : Blanks b) (h : Heads sec rest) :
    readLine state (b ++ '[' :: rest) = .ok (state.1, sec) := by
  cases h with
  | mk hb' hb'' ht =>
    have hname : BareWord sec.key.toList := by cases sec <;> decide
    rw [readLine_of_written (.header hb hb' hname hb'' ht), readPhrase, sectionNamed?_eq_ok.mpr rfl]
    rfl

theorem readLine_of_not_heads {b rest : List Char} (hb : Blanks b) (h : ∀ sec, ¬Heads sec rest) :
    readLine state (b ++ '[' :: rest) = .error .invalidSection := by
  have hread : readLine state (b ++ '[' :: rest) = _ := readLine_bracket hb rest
  cases hheader : readHeader ('[' :: rest.rdropWhile isBlank) with
  | error cause =>
    rw [hread, hheader, readHeader_error hheader]
    rfl
  | ok sec =>
    obtain ⟨c, name, c', tail, hc, hname, hc', ht, hrest⟩ := exists_of_readHeader hheader
    have hblanks : Blanks (rest.rtakeWhile isBlank) := fun c hc => List.mem_rtakeWhile_imp hc
    have hall : rest = c ++ name ++ c' ++ ']' :: (tail ++ rest.rtakeWhile isBlank) :=
      calc rest
        _ = rest.rdropWhile isBlank ++ rest.rtakeWhile isBlank := List.rdropWhile_append_rtakeWhile.symm
        _ = _ := by rw [hrest]; simp
    have htail := ht.append_blanks hblanks
    have hnamed : (sectionNamed? name).map (fun sec => (state.1, sec)) = .ok (state.1, sec) := by
      have hphrase := readLine_of_written (.header hb hc hname hc' htail) state
      rw [← hall, hread, hheader] at hphrase
      exact hphrase.symm
    obtain ⟨sec', hsec, -⟩ := map_eq_ok.mp hnamed
    obtain rfl := sectionNamed?_eq_ok.mp hsec
    exact absurd (hall ▸ .mk hc hc' htail) (h sec')

/-! ## Entries -/

/-- Nothing is left of a value exactly if there is none. -/
theorem dropComment_eq_nil {right : List Char} : dropComment (trimBlanks right) = [] ↔ Trailer right := by
  constructor
  · intro h
    obtain ⟨b, b', hb, hb', hright⟩ := exists_trimBlanks right
    obtain ⟨c, tail, hc, ht, htrim⟩ := exists_dropComment (trimBlanks right)
    rw [h, List.append_nil] at htrim
    rw [hright, htrim]
    exact (Trailer.blanks_append hb (Trailer.blanks_append hc ht)).append_blanks hb'
  · intro h
    cases h with
    | blanks hb => rw [trimBlanks_blanks hb]; rfl
    | @comment b more hb =>
      rw [trimBlanks_cons hb rfl]
      simp [dropComment, trimBlanks]

theorem gives_iff {key : String} {right : List Char} {a : Assignment} :
    Gives sec key right a ↔ Spells sec key (dropComment (trimBlanks right)) a := by
  constructor
  · rintro ⟨hb, hvalue, ht⟩
    rwa [dropComment_trimBlanks hb hvalue.oneWord ht]
  · intro h
    obtain ⟨b, b', hb, hb', hright⟩ := exists_trimBlanks right
    obtain ⟨c, tail, hc, ht, htrim⟩ := exists_dropComment (trimBlanks right)
    have hrow : right = (b ++ c) ++ dropComment (trimBlanks right) ++ (tail ++ b') :=
      calc right
        _ = b ++ trimBlanks right ++ b' := hright
        _ = b ++ (c ++ dropComment (trimBlanks right) ++ tail) ++ b' := by rw [← htrim]
        _ = _ := by simp
    rw [hrow]
    exact .mk (hb.append hc) h (ht.append_blanks hb')

theorem label_of_mem_sectionKeys {key : String} (h : key ∈ sectionKeys sec) : Label key.toList :=
  BareWord.label (bareWord_of_mem_sectionKeys (by simpa using h))

theorem readLine_of_no_equals {b key b' : List Char} (hb : Blanks b) (hkey : Label key) (hb' : Blanks b') :
    readLine state (b ++ key ++ b') = .error .invalidValue := by
  have htrim : trimBlanks (b ++ key ++ b') = key ++ [] := by rw [trimBlanks_of_tight hb hkey.tight hb', List.append_nil]
  have hnone : readAssignment? (key ++ []) = none := by
    have htake : key.takeWhile (· ≠ '=') = key :=
      List.takeWhile_eq_self_iff.mpr fun c hc => by simpa using hkey.ne_equals hc
    rw [List.append_nil, readAssignment?]
    simp only [htake]
    exact if_neg fun h => Nat.lt_irrefl _ h.1
  rw [readLine_of_label hkey htrim, hnone]

theorem readLine_of_no_key {b : List Char} (hb : Blanks b) (right : List Char) :
    readLine state (b ++ '=' :: right) = .error .invalidValue := by
  have htrim : trimBlanks (b ++ '=' :: right) = '=' :: right.rdropWhile isBlank := trimBlanks_cons hb rfl right
  have hnone : readAssignment? ('=' :: right.rdropWhile isBlank) = none := by
    rw [readAssignment?, List.takeWhile_cons_of_neg (by simp)]
    exact if_neg fun h => h.2.1 rfl
  rw [readLine_of_opening htrim (by decide) (by decide), hnone]

/-! ## One line -/

variable {line : List Char}

/-- A good line makes its assignments, and the section it says is in force after it. -/
theorem readLine_of_good {as : List Assignment} {sec' : Section} (h : Good sec line as sec') (s : Settings) :
    readLine (s, sec) line = .ok (as.foldl apply s, sec') := by
  cases h with
  | nothing ht => exact readLine_of_written (.nothing ht) (s, sec)
  | header hb hheads => exact readLine_of_heads hb hheads
  | @assign b key b' right a hb hb' hgives =>
    have hspells := gives_iff.mp hgives
    have hkey : key ∈ sectionKeys sec := (accepted_of_assign (s := s) (assign_of_spells hspells)).1
    rw [readLine_of_entry hb (label_of_mem_sectionKeys hkey) hb', if_neg hspells.oneWord.ne_nil, String.ofList_toList,
      assign_of_spells hspells]
    rfl

/-- A line at fault stops the reading. -/
theorem readLine_of_fault {cause : ParseError} (h : Fault sec line cause) (s : Settings) :
    readLine (s, sec) line = .error cause := by
  cases h with
  | badHeader hb hrest => exact readLine_of_not_heads hb hrest
  | noEquals hb hkey hb' => exact readLine_of_no_equals hb hkey hb'
  | noKey hb => exact readLine_of_no_key hb _
  | noValue hb hkey hb' ht => rw [readLine_of_entry hb hkey hb', if_pos (dropComment_eq_nil.mpr ht)]
  | unknownKey hb hkey hb' ht hmem =>
    rw [readLine_of_entry hb hkey hb', if_neg fun h => ht (dropComment_eq_nil.mp h), assign_of_not_mem hmem]
    rfl
  | badValue hb hmem hb' hgives =>
    rw [readLine_of_entry hb (label_of_mem_sectionKeys hmem) hb', String.ofList_toList,
      assign_of_mem hmem fun a ha => hgives a (gives_iff.mpr ha)]
    split <;> rfl

theorem label_of_opening {c : Char} {cs key rest : List Char} (hhash : c ≠ '#') (hbracket : c ≠ '[') (hne : key ≠ [])
    (htight : Tight key) (hequals : '=' ∉ key) (h : c :: cs = key ++ rest) : Label key := by
  obtain ⟨x, xs, rfl⟩ := List.exists_cons_of_ne_nil hne
  obtain rfl : c = x := (List.cons.inj h).1
  exact ⟨hne, htight, hequals, fun heq => hhash (Option.some.inj heq), fun heq => hbracket (Option.some.inj heq)⟩

/-- A line that opens neither a comment nor a header, cut at its first equals sign. -/
theorem entry_cases {c : Char} {cs : List Char} (hcore : trimBlanks line = c :: cs) (hhash : c ≠ '#')
    (hbracket : c ≠ '[') :
    (∃ b right, Blanks b ∧ line = b ++ '=' :: right) ∨
      ∃ b key b', Blanks b ∧ Label key ∧ Blanks b' ∧
        (line = b ++ key ++ b' ∨ ∃ right, line = b ++ key ++ b' ++ '=' :: right) := by
  obtain ⟨left, tail, hcut, hequals, htail⟩ :
      ∃ left tail, line = left ++ tail ∧ '=' ∉ left ∧ (tail = [] ∨ ∃ right, tail = '=' :: right) := by
    have hequals : '=' ∉ line.takeWhile (· ≠ '=') := fun hmem => by simpa using List.mem_takeWhile_imp hmem
    rcases takeWhile_ne_cases '=' line with hall | ⟨right, hcut⟩
    · exact ⟨_, [], by rw [List.append_nil, hall], hequals, .inl rfl⟩
    · exact ⟨_, _, hcut, hequals, .inr ⟨right, rfl⟩⟩
  obtain ⟨b, b', hb, hb', hleft⟩ := exists_trimBlanks left
  by_cases hne : trimBlanks left = []
  · refine .inl ?_
    rw [hne, List.append_nil] at hleft
    rcases htail with rfl | ⟨right, rfl⟩
    · -- then the whole line is blank
      rw [hcut, List.append_nil, hleft, trimBlanks_blanks (hb.append hb')] at hcore
      contradiction
    · exact ⟨b ++ b', right, hb.append hb', hleft ▸ hcut⟩
  · have hopens : c :: cs = trimBlanks left ++ (b' ++ tail).rdropWhile isBlank := by
      rw [← hcore, ← trimBlanks_append hb hne (tight_trimBlanks left) (b' ++ tail), hcut]
      nth_rewrite 1 [hleft]
      rw [List.append_assoc _ b' tail]
    have hkey : '=' ∉ trimBlanks left := fun hmem =>
      hequals (hleft ▸ List.mem_append_left _ (List.mem_append_right _ hmem))
    have hlabel := label_of_opening hhash hbracket hne (tight_trimBlanks left) hkey hopens
    refine .inr ⟨b, trimBlanks left, b', hb, hlabel, hb', ?_⟩
    rw [← hleft]
    rcases htail with rfl | ⟨right, rfl⟩
    · exact .inl (by rw [hcut, List.append_nil])
    · exact .inr ⟨right, hcut⟩

/-- A line says nothing, opens a header, has nothing in front of its equals sign, or opens with a label. -/
theorem line_cases (line : List Char) :
    Trailer line ∨ (∃ b rest, Blanks b ∧ line = b ++ '[' :: rest) ∨ (∃ b right, Blanks b ∧ line = b ++ '=' :: right) ∨
      ∃ b key b', Blanks b ∧ Label key ∧ Blanks b' ∧
        (line = b ++ key ++ b' ∨ ∃ right, line = b ++ key ++ b' ++ '=' :: right) := by
  obtain ⟨b, b', hb, hb', hline⟩ := exists_trimBlanks line
  cases hcore : trimBlanks line with
  | nil =>
    rw [hcore, List.append_nil] at hline
    exact .inl (.blanks (hline ▸ hb.append hb'))
  | cons c cs =>
    rw [hcore] at hline
    by_cases hhash : c = '#'
    · refine .inl ?_
      rw [hline, hhash]
      exact (Trailer.comment cs hb).append_blanks hb'
    by_cases hbracket : c = '['
    · refine .inr (.inl ⟨b, cs ++ b', hb, ?_⟩)
      rw [hline, hbracket]
      simp
    exact .inr (.inr (entry_cases hcore hhash hbracket))

/-- **Under any section a line is good or at fault.** -/
theorem good_or_fault (sec : Section) (line : List Char) :
    (∃ as sec', Good sec line as sec') ∨ ∃ cause, Fault sec line cause := by
  rcases line_cases line with ht | ⟨b, rest, hb, rfl⟩ | ⟨b, right, hb, rfl⟩ |
    ⟨b, key, b', hb, hkey, hb', rfl | ⟨right, rfl⟩⟩
  · exact .inl ⟨[], sec, .nothing ht⟩
  · by_cases hheads : ∃ sec', Heads sec' rest
    · obtain ⟨sec', h⟩ := hheads
      exact .inl ⟨[], sec', .header hb h⟩
    · exact .inr ⟨_, .badHeader hb fun sec' h => hheads ⟨sec', h⟩⟩
  · exact .inr ⟨_, .noKey hb⟩
  · exact .inr ⟨_, .noEquals hb hkey hb'⟩
  · obtain ⟨key, rfl⟩ : ∃ k : String, k.toList = key := ⟨String.ofList key, String.toList_ofList⟩
    by_cases ht : Trailer right
    · exact .inr ⟨_, .noValue hb hkey hb' ht⟩
    by_cases hmem : key ∈ sectionKeys sec
    · by_cases hgives : ∃ a, Gives sec key right a
      · obtain ⟨a, h⟩ := hgives
        exact .inl ⟨[a], sec, .assign hb hb' h⟩
      · exact .inr ⟨_, .badValue hb hmem hb' fun a h => hgives ⟨a, h⟩⟩
    · exact .inr ⟨_, .unknownKey hb hkey hb' ht (by rwa [String.ofList_toList])⟩

/-! ## All lines -/

variable {lines : List (List Char)}

theorem foldlM_of_good {as : List Assignment} {sec' : Section} (h : GoodLines sec lines as sec') (s : Settings) :
    lines.foldlM readLine (s, sec) = .ok (as.foldl apply s, sec') := by
  induction h generalizing s with
  | nil => rfl
  | @cons sec line as sec' lines as' sec'' hline _ ih =>
    rw [List.foldlM_cons, readLine_of_good hline, List.foldl_append]
    exact ih _

/-- Good lines in front of a line at fault do not save the text. -/
theorem foldlM_of_fault {good more : List (List Char)} {as : List Assignment} {sec' : Section} {cause : ParseError}
    (h : GoodLines sec good as sec') (hline : Fault sec' line cause) (s : Settings) :
    (good ++ line :: more).foldlM readLine (s, sec) = .error cause := by
  rw [List.foldlM_append, foldlM_of_good h]
  change (line :: more).foldlM readLine (as.foldl apply s, sec') = _
  rw [List.foldlM_cons, readLine_of_fault hline]
  rfl

/-- Lines are all good, or there is a first one at fault. -/
theorem good_or_first_fault (sec : Section) (lines : List (List Char)) :
    (∃ as sec', GoodLines sec lines as sec') ∨ ∃ good line more as sec' cause,
      lines = good ++ line :: more ∧ GoodLines sec good as sec' ∧ Fault sec' line cause := by
  induction lines generalizing sec with
  | nil => exact .inl ⟨[], sec, .nil⟩
  | cons line lines ih =>
    rcases good_or_fault sec line with ⟨as, sec', hgood⟩ | ⟨cause, hfault⟩
    · rcases ih sec' with ⟨as', sec'', hall⟩ | ⟨good, bad, more, as', sec'', cause, rfl, hgoods, hfault⟩
      · exact .inl ⟨as ++ as', sec'', .cons hgood hall⟩
      · exact .inr ⟨line :: good, bad, more, as ++ as', sec'', cause, rfl, .cons hgood hgoods, hfault⟩
    · exact .inr ⟨[], line, lines, [], sec, cause, rfl, .nil, hfault⟩

/-! ## Line ends -/

theorem splitAtChar_of_not_mem {sep : Char} {cs : List Char} (h : sep ∉ cs) : splitAtChar sep cs = [cs] := by
  induction cs with
  | nil => rfl
  | cons c cs ih =>
    rw [List.mem_cons, not_or] at h
    rw [splitAtChar, if_neg (Ne.symm h.1), ih h.2]

theorem splitAtChar_append {sep : Char} {cs : List Char} (h : sep ∉ cs) (rest : List Char) :
    splitAtChar sep (cs ++ sep :: rest) = cs :: splitAtChar sep rest := by
  induction cs with
  | nil => exact if_pos rfl
  | cons c cs ih =>
    rw [List.mem_cons, not_or] at h
    rw [List.cons_append, splitAtChar, if_neg (Ne.symm h.1), ih h.2]

theorem readLine_append_blanks {b : List Char} (hb : Blanks b) (line : List Char) :
    readLine state (line ++ b) = readLine state line := by
  rw [readLine, readLine, trimBlanks_append_blanks hb]

/-- Both line ends are read alike: a carriage return in front of a line feed is one more blank on the line. -/
theorem foldlM_composed {text : List Char} (h : Composed text lines) (state : Settings × Section) :
    (splitAtChar '\n' text).foldlM readLine state = lines.foldlM readLine state := by
  induction h generalizing state with
  | last hline => rw [splitAtChar_of_not_mem hline]
  | @feed line text lines hline _ ih =>
    rw [splitAtChar_append hline, List.foldlM_cons, List.foldlM_cons]
    exact congrArg _ (funext ih)
  | @returnFeed line text lines hline _ ih =>
    have hreturn : '\n' ∉ line ++ ['\r'] := by simpa using hline
    have hrow : line ++ '\r' :: '\n' :: text = (line ++ ['\r']) ++ '\n' :: text := by simp
    have hblank : Blanks ['\r'] := by simp [Blanks]; rfl
    rw [hrow, splitAtChar_append hreturn, List.foldlM_cons, List.foldlM_cons, readLine_append_blanks hblank]
    exact congrArg _ (funext ih)

theorem exists_composed (text : List Char) : ∃ lines, Composed text lines := by
  induction text with
  | nil => exact ⟨[[]], .last List.not_mem_nil⟩
  | cons c text ih =>
    obtain ⟨lines, h⟩ := ih
    by_cases hc : c = '\n'
    · have hempty : Composed ([] ++ '\n' :: text) ([] :: lines) := .feed List.not_mem_nil h
      exact ⟨[] :: lines, hc ▸ hempty⟩
    · have hfirst {line : List Char} (hline : '\n' ∉ line) : '\n' ∉ c :: line := by
        rw [List.mem_cons, not_or]
        exact ⟨Ne.symm hc, hline⟩
      cases h with
      | last hline => exact ⟨_, .last (hfirst hline)⟩
      | feed hline h => exact ⟨_, .feed (hfirst hline) h⟩
      | returnFeed hline h => exact ⟨_, .returnFeed (hfirst hline) h⟩

theorem parse_of_good {text : String} {as : List Assignment} (hlines : Composed text.toList lines)
    (h : GoodLines .bridge lines as sec) : parse text = .ok (ofAssignments as) := by
  rw [parse, foldlM_composed hlines, foldlM_of_good h, foldl_apply]
  rfl

theorem parse_of_fault {text : String} {good more : List (List Char)} {as : List Assignment} {cause : ParseError}
    (hlines : Composed text.toList (good ++ line :: more)) (h : GoodLines .bridge good as sec)
    (hline : Fault sec line cause) : parse text = .error cause := by
  rw [parse, foldlM_composed hlines, foldlM_of_fault h hline]
  rfl

/-- **Settings text is read as the fold of its lines.**  Every text is composed of lines.  If all of them are good under
the section in force, `bridge` before the first header, the result has every setting with the last value it was given and
its default if it was given none.  Otherwise the result is the error of the first line at fault. -/
theorem parse_eq_fold (text : String) :
    (∃ lines, Composed text.toList lines) ∧ ∀ lines, Composed text.toList lines →
      (∀ s, parse text = .ok s ↔ ∃ as sec, GoodLines .bridge lines as sec ∧ s = ofAssignments as) ∧
      ∀ cause, parse text = .error cause ↔ ∃ good line more as sec,
        lines = good ++ line :: more ∧ GoodLines .bridge good as sec ∧ Fault sec line cause := by
  refine ⟨exists_composed _, fun lines hlines => ⟨fun s => ⟨fun hparse => ?_, ?_⟩, fun cause => ⟨fun hparse => ?_, ?_⟩⟩⟩
  · rcases good_or_first_fault .bridge lines with ⟨as, sec, h⟩ | ⟨good, line, more, as, sec, cause, rfl, h, hline⟩
    · rw [parse_of_good hlines h] at hparse
      exact ⟨as, sec, h, (Except.ok.inj hparse).symm⟩
    · rw [parse_of_fault hlines h hline] at hparse
      contradiction
  · rintro ⟨as, sec, h, rfl⟩
    exact parse_of_good hlines h
  · rcases good_or_first_fault .bridge lines with ⟨as, sec, h⟩ | ⟨good, line, more, as, sec, cause', rfl, h, hline⟩
    · rw [parse_of_good hlines h] at hparse
      contradiction
    · rw [parse_of_fault hlines h hline] at hparse
      obtain rfl := Except.error.inj hparse
      exact ⟨good, line, more, as, sec, rfl, h, hline⟩
  · rintro ⟨good, line, more, as, sec, rfl, h, hline⟩
    exact parse_of_fault hlines h hline

/-- Lines that give a key twice, with a number sign and a quote in the comment between, and arm a trigger. -/
def twiceGiven : List (List Char) :=
  ["ttc_seconds=5 # \"#".toList, "ttc_seconds = +7".toList, "[motion_triggers]".toList, "motion=true".toList]

theorem goodLines_twiceGiven :
    GoodLines .bridge twiceGiven [.ttcSeconds 5, .ttcSeconds 7, .trigger .motion true] .motionTriggers := by
  have hblank : Blanks [' '] := List.forall_mem_singleton.mpr rfl
  have hfirst : Good .bridge ([] ++ "ttc_seconds".toList ++ [] ++ '=' :: ([] ++ ['5'] ++ ([' '] ++ '#' :: " \"#".toList)))
      [.ttcSeconds 5] .bridge := by
    have hfive : Decimal 5 ['5'] := ⟨['5'], by decide, List.forall_mem_singleton.mpr rfl, .inl rfl, by decide⟩
    have hlt : 5 < 0x100 := by decide
    exact .assign blanks_nil blanks_nil (.mk blanks_nil (.ttcSeconds hfive hlt) (.comment _ hblank))
  have hsecond : Good .bridge ([] ++ "ttc_seconds".toList ++ [' '] ++ '=' :: ([' '] ++ ['+', '7'] ++ []))
      [.ttcSeconds 7] .bridge := by
    have hseven : Decimal 7 ['+', '7'] := ⟨['7'], by decide, List.forall_mem_singleton.mpr rfl, .inr rfl, by decide⟩
    have hlt : 7 < 0x100 := by decide
    exact .assign blanks_nil hblank (.mk hblank (.ttcSeconds hseven hlt) (.blanks blanks_nil))
  have hheader : Good .bridge ([] ++ '[' :: ([] ++ "motion_triggers".toList ++ [] ++ ']' :: [])) [] .motionTriggers :=
    .header blanks_nil (.mk blanks_nil blanks_nil (.blanks blanks_nil))
  have hmotion : Good .motionTriggers ([] ++ "motion".toList ++ [] ++ '=' :: ([] ++ "true".toList ++ []))
      [.trigger .motion true] .motionTriggers :=
    .assign blanks_nil blanks_nil (.mk blanks_nil (.trigger .motion true) (.blanks blanks_nil))
  have hgood := GoodLines.cons hfirst (.cons hsecond (.cons hheader (.cons hmotion .nil)))
  convert hgood using 1
  · decide
  · rfl

theorem fault_volume : Fault .motionTriggers "volume=3".toList .unknownKey := by
  have hrow : "volume=3".toList = [] ++ "volume".toList ++ [] ++ '=' :: ['3'] := by decide
  have hword : BareWord "volume".toList := by decide
  rw [hrow]
  refine .unknownKey blanks_nil hword.label blanks_nil (fun ht => ?_) (by decide)
  exact absurd (dropComment_eq_nil.mpr ht) (by decide)

/-- The lines are read, and stop the reading with an unknown key behind them. -/
theorem parse_eq_fold_twiceGiven :
    parse "ttc_seconds=5 # \"#\r\nttc_seconds = +7\n[motion_triggers]\nmotion=true" =
        .ok { ttcSeconds := 7, motionTriggers := ⟨1⟩ } ∧
      parse "ttc_seconds=5 # \"#\r\nttc_seconds = +7\n[motion_triggers]\nmotion=true\nvolume=3" =
        .error .unknownKey := by
  have hgood : Composed "ttc_seconds=5 # \"#\r\nttc_seconds = +7\n[motion_triggers]\nmotion=true".toList twiceGiven := by
    have htext : "ttc_seconds=5 # \"#\r\nttc_seconds = +7\n[motion_triggers]\nmotion=true".toList =
        "ttc_seconds=5 # \"#".toList ++ '\r' :: '\n' :: ("ttc_seconds = +7".toList ++ '\n' ::
          ("[motion_triggers]".toList ++ '\n' :: "motion=true".toList)) := by decide
    rw [htext]
    exact .returnFeed (by decide) (.feed (by decide) (.feed (by decide) (.last (by decide))))
  have hbad : Composed "ttc_seconds=5 # \"#\r\nttc_seconds = +7\n[motion_triggers]\nmotion=true\nvolume=3".toList
      (twiceGiven ++ ["volume=3".toList]) := by
    have htext : "ttc_seconds=5 # \"#\r\nttc_seconds = +7\n[motion_triggers]\nmotion=true\nvolume=3".toList =
        "ttc_seconds=5 # \"#".toList ++ '\r' :: '\n' :: ("ttc_seconds = +7".toList ++ '\n' ::
          ("[motion_triggers]".toList ++ '\n' :: ("motion=true".toList ++ '\n' :: "volume=3".toList))) := by decide
    rw [htext]
    exact .returnFeed (by decide) (.feed (by decide) (.feed (by decide) (.feed (by decide) (.last (by decide)))))
  refine ⟨?_, ?_⟩
  · exact (((parse_eq_fold _).2 _ hgood).1 _).mpr ⟨_, _, goodLines_twiceGiven, by decide⟩
  · exact (((parse_eq_fold _).2 _ hbad).2 _).mpr ⟨_, _, _, _, _, rfl, goodLines_twiceGiven, fault_volume⟩

end Settings

end DoorBridge
