import Mathlib.Data.List.DropRight
import DoorBridge.Settings.Text
import DoorBridge.Toml.Document

/-!
# Proofs.Settings.Lines — the lines of settings text, taken apart

A line says nothing, names a section or gives a key its value (`Written`).  What reading it does depends on what it says
and not on the blanks and the comment in it: `readLine_of_written`.
-/

namespace DoorBridge

/-! ## Blanks at the ends of a row -/

/-- A row of blanks only. -/
def Blanks (cs : List Char) : Prop := ∀ c ∈ cs, isBlank c

theorem blanks_nil : Blanks [] := nofun

theorem Blanks.append {b b' : List Char} (h : Blanks b) (h' : Blanks b') : Blanks (b ++ b') := by
  intro c hc
  rcases List.mem_append.mp hc with hc | hc
  · exact h c hc
  · exact h' c hc

/-- Neither the first nor the last character of a row is a blank. -/
def Tight (cs : List Char) : Prop :=
  (∀ c, cs.head? = some c → isBlank c = false) ∧ ∀ c, cs.getLast? = some c → isBlank c = false

theorem tight_nil : Tight [] := by simp [Tight]

theorem tight_of_forall {cs : List Char} (h : ∀ c ∈ cs, isBlank c = false) : Tight cs :=
  ⟨fun c hc => h c (List.mem_of_head? hc), fun c hc => h c (List.mem_of_getLast? hc)⟩

theorem dropWhile_blanks_append {b : List Char} (h : Blanks b) (cs : List Char) :
    (b ++ cs).dropWhile isBlank = cs.dropWhile isBlank := by
  induction b with
  | nil => rfl
  | cons c b ih =>
    have hc : isBlank c := h c (by simp)
    have hb : Blanks b := fun x hx => h x (by simp [hx])
    simp [hc, ih hb]

theorem dropWhile_of_head {p : Char → Bool} {cs : List Char} (h : ∀ c, cs.head? = some c → p c = false) :
    cs.dropWhile p = cs := by
  cases cs with
  | nil => rfl
  | cons c cs => simp [h c rfl]

/-- Trimming goes no further than the last character that is no blank. -/
theorem rdropWhile_append_of_last {p : Char → Bool} {cs : List Char}
    (h : ∀ c, cs.getLast? = some c → p c = false) (tail : List Char) :
    (cs ++ tail).rdropWhile p = cs ++ tail.rdropWhile p := by
  induction tail using List.reverseRecOn with
  | nil =>
    rw [List.append_nil, List.rdropWhile_nil, List.append_nil, List.rdropWhile_eq_self_iff]
    intro hl
    simp [h _ (List.getLast?_eq_some_getLast hl)]
  | append_singleton tail c ih =>
    rw [← List.append_assoc, List.rdropWhile_concat, List.rdropWhile_concat]
    split
    · exact ih
    · exact List.append_assoc ..

theorem rdropWhile_blanks {b : List Char} (h : Blanks b) : b.rdropWhile isBlank = [] :=
  List.rdropWhile_eq_nil_iff.mpr h

theorem trimBlanks_eq (cs : List Char) : trimBlanks cs = (cs.dropWhile isBlank).rdropWhile isBlank := rfl

/-- Trimming a row that begins with a tight one trims what comes behind. -/
theorem trimBlanks_append {b core : List Char} (hb : Blanks b) (hne : core ≠ []) (h : Tight core)
    (tail : List Char) : trimBlanks (b ++ core ++ tail) = core ++ tail.rdropWhile isBlank := by
  have hhead : ∀ c, (core ++ tail).head? = some c → isBlank c = false := by
    intro c hc
    cases core with
    | nil => exact absurd rfl hne
    | cons x core => exact h.1 c hc
  rw [trimBlanks_eq, List.append_assoc, dropWhile_blanks_append hb, dropWhile_of_head hhead,
    rdropWhile_append_of_last h.2]

theorem trimBlanks_cons {b : List Char} (hb : Blanks b) {c : Char} (hc : isBlank c = false) (rest : List Char) :
    trimBlanks (b ++ c :: rest) = c :: rest.rdropWhile isBlank := by
  have hrow : b ++ c :: rest = b ++ [c] ++ rest := by simp
  have htight : Tight [c] := tight_of_forall fun x hx => List.mem_singleton.mp hx ▸ hc
  rw [hrow, trimBlanks_append hb (List.cons_ne_nil c []) htight]
  rfl

theorem trimBlanks_of_tight {b core b' : List Char} (hb : Blanks b) (h : Tight core) (hb' : Blanks b') :
    trimBlanks (b ++ core ++ b') = core := by
  by_cases hne : core = []
  · subst hne
    have : (b ++ [] ++ b').dropWhile isBlank = [] := by
      rw [List.append_nil, dropWhile_blanks_append hb]
      exact List.dropWhile_eq_nil_iff.mpr hb'
    rw [trimBlanks_eq, this, List.rdropWhile_nil]
  · rw [trimBlanks_append hb hne h, rdropWhile_blanks hb', List.append_nil]

theorem trimBlanks_blanks {b : List Char} (hb : Blanks b) : trimBlanks b = [] := by
  simpa using trimBlanks_of_tight hb tight_nil blanks_nil

/-- Every row is its trimmed self between blanks. -/
theorem exists_trimBlanks (cs : List Char) :
    ∃ b b', Blanks b ∧ Blanks b' ∧ cs = b ++ trimBlanks cs ++ b' := by
  refine ⟨cs.takeWhile isBlank, (cs.dropWhile isBlank).rtakeWhile isBlank, fun c hc => List.mem_takeWhile_imp hc,
    fun c hc => List.mem_rtakeWhile_imp hc, ?_⟩
  rw [trimBlanks_eq, List.append_assoc, List.rdropWhile_append_rtakeWhile, List.takeWhile_append_dropWhile]

theorem rdropWhile_append_blanks {b : List Char} (hb : Blanks b) (cs : List Char) :
    (cs ++ b).rdropWhile isBlank = cs.rdropWhile isBlank := by
  have hb' : Blanks b.reverse := fun c hc => hb c (List.mem_reverse.mp hc)
  rw [List.rdropWhile, List.reverse_append, dropWhile_blanks_append hb', List.rdropWhile]

theorem trimBlanks_append_blanks {b : List Char} (hb : Blanks b) (cs : List Char) :
    trimBlanks (cs ++ b) = trimBlanks cs := by
  rw [trimBlanks_eq, trimBlanks_eq, List.dropWhile_append]
  split
  · next hnil =>
    have hcs : cs.dropWhile isBlank = [] := List.isEmpty_iff.mp hnil
    rw [hcs, List.dropWhile_eq_nil_iff.mpr hb]
  · exact rdropWhile_append_blanks hb _

theorem trimBlanks_rdropWhile (cs : List Char) : trimBlanks (cs.rdropWhile isBlank) = trimBlanks cs := by
  have hb : Blanks (cs.rtakeWhile isBlank) := fun c hc => List.mem_rtakeWhile_imp hc
  rw [← trimBlanks_append_blanks hb, List.rdropWhile_append_rtakeWhile]

theorem tight_trimBlanks (cs : List Char) : Tight (trimBlanks cs) := by
  rw [trimBlanks_eq]
  refine ⟨fun c hc => ?_, fun c hc => ?_⟩
  · obtain ⟨rest, hrest⟩ := List.rdropWhile_prefix isBlank (cs.dropWhile isBlank)
    have hhead : (cs.dropWhile isBlank).head? = some c := by
      rw [← hrest, List.head?_append, hc]
      rfl
    have hnot := List.head?_dropWhile_not isBlank cs
    rw [hhead] at hnot
    exact hnot
  · have hne : (cs.dropWhile isBlank).rdropWhile isBlank ≠ [] := by
      intro hnil
      rw [hnil] at hc
      contradiction
    have hlast := List.rdropWhile_last_not isBlank _ hne
    rw [List.getLast?_eq_some_getLast hne, Option.some.injEq] at hc
    rwa [hc, Bool.not_eq_true] at hlast

/-! ## The forms of a line -/

/-- A word of letters, digits, underscores and dashes. -/
def BareWord (cs : List Char) : Prop := cs ≠ [] ∧ ∀ c ∈ cs, Toml.isBareKeyChar c

instance (cs : List Char) : Decidable (BareWord cs) :=
  decidable_of_iff (cs ≠ [] ∧ cs.all Toml.isBareKeyChar) (and_congr_right' List.all_eq_true)

/-- What may stand at the end of a line: blanks, and a comment behind them. -/
inductive Trailer : List Char → Prop where
  | blanks {b} : Blanks b → Trailer b
  | comment {b} (more) : Blanks b → Trailer (b ++ '#' :: more)

/-- A value in one word: letters, digits and plus signs, or letters and digits in double quotes. -/
inductive OneWord : List Char → Prop where
  | bare {cs} : cs ≠ [] → (∀ c ∈ cs, c.isAlphanum ∨ c = '+') → OneWord cs
  | quoted {w} : w ≠ [] → (∀ c ∈ w, c.isAlphanum) → OneWord ('"' :: (w ++ ['"']))

/-- What a line says. -/
inductive Phrase where
  | nothing
  | header (name : List Char)
  | pair (key value : List Char)

/-- How a line may say it. -/
inductive Written : List Char → Phrase → Prop where
  | nothing {line} : Trailer line → Written line .nothing
  | header {b b' name b'' tail} : Blanks b → Blanks b' → BareWord name → Blanks b'' → Trailer tail →
      Written (b ++ '[' :: (b' ++ name ++ b'' ++ ']' :: tail)) (.header name)
  | pair {b key b' b'' value tail} : Blanks b → BareWord key → Blanks b' → Blanks b'' → OneWord value →
      Trailer tail → Written (b ++ key ++ b' ++ '=' :: (b'' ++ value ++ tail)) (.pair key value)

theorem isAlphanum_iff {c : Char} : c.isAlphanum ↔
    ((65 ≤ c.toNat ∧ c.toNat ≤ 90) ∨ 97 ≤ c.toNat ∧ c.toNat ≤ 122) ∨ 48 ≤ c.toNat ∧ c.toNat ≤ 57 := by
  change (decide (c.val ≥ 65 ∧ c.val ≤ 90) || c.val ≥ 97 && c.val ≤ 122 || c.val ≥ 48 && c.val ≤ 57) = true ↔ _
  simp only [Bool.or_eq_true, Bool.and_eq_true, decide_eq_true_eq, UInt32.le_iff_toNat_le, ge_iff_le]
  rfl

theorem isBlank_of_isAlphanum {c : Char} (h : c.isAlphanum) : isBlank c = false := by
  rw [isAlphanum_iff] at h
  simp only [isBlank, Bool.or_eq_false_iff, Bool.and_eq_false_iff, decide_eq_false_iff_not, beq_eq_false_iff_ne]
  omega

/-- Characters that a test tells apart differ. -/
theorem ne_of_test {p : Char → Bool} {c x : Char} (h : p c) (hx : p x = false) : c ≠ x := by
  rintro rfl
  rw [h] at hx
  contradiction

theorem isBlank_of_isBareKeyChar {c : Char} (h : Toml.isBareKeyChar c) : isBlank c = false := by
  simp only [Toml.isBareKeyChar, Bool.or_eq_true, decide_eq_true_eq] at h
  rcases h with (h | rfl) | rfl
  · exact isBlank_of_isAlphanum h
  · rfl
  · rfl

theorem BareWord.tight {cs : List Char} (h : BareWord cs) : Tight cs :=
  tight_of_forall fun c hc => isBlank_of_isBareKeyChar (h.2 c hc)

theorem OneWord.ne_nil {cs : List Char} (h : OneWord cs) : cs ≠ [] := by
  cases h with
  | bare hne _ => exact hne
  | quoted _ _ => exact List.cons_ne_nil _ _

theorem OneWord.tight {cs : List Char} (h : OneWord cs) : Tight cs := by
  cases h with
  | bare _ h =>
    refine tight_of_forall fun c hc => ?_
    rcases h c hc with hc | rfl
    · exact isBlank_of_isAlphanum hc
    · rfl
  | quoted _ _ =>
    refine ⟨fun c hc => ?_, fun c hc => ?_⟩
    · obtain rfl : '"' = c := by simpa using hc
      rfl
    · obtain rfl : '"' = c := by simpa [List.getLast?_cons] using hc
      rfl

theorem Trailer.rdropWhile {tail : List Char} (h : Trailer tail) :
    tail.rdropWhile isBlank = [] ∨ ∃ b more, Blanks b ∧ tail.rdropWhile isBlank = b ++ '#' :: more := by
  cases h with
  | blanks hb => exact .inl (rdropWhile_blanks hb)
  | @comment b more hb =>
    refine .inr ⟨b, more.rdropWhile isBlank, hb, ?_⟩
    rw [List.append_cons, rdropWhile_append_of_last (by simp; rfl)]
    simp

theorem Trailer.append_blanks {b tail : List Char} (h : Trailer tail) (hb : Blanks b) : Trailer (tail ++ b) := by
  cases h with
  | blanks hb' => exact .blanks (hb'.append hb)
  | @comment b' more hb' => exact (by simp : b' ++ '#' :: more ++ b = b' ++ '#' :: (more ++ b)) ▸ .comment _ hb'

theorem Trailer.blanks_append {b tail : List Char} (hb : Blanks b) (h : Trailer tail) : Trailer (b ++ tail) := by
  cases h with
  | blanks hb' => exact .blanks (hb.append hb')
  | @comment b' more hb' => exact List.append_assoc b b' _ ▸ .comment more (hb.append hb')

theorem count_quotes_of_isAlphanum {w : List Char} (h : ∀ c ∈ w, c.isAlphanum) : w.count '"' = 0 := by
  refine List.count_eq_zero.mpr fun hmem => ?_
  have := h _ hmem
  contradiction

/-- A value in one word has no quotes or two. -/
theorem OneWord.count_quotes {value : List Char} (h : OneWord value) : value.count '"' % 2 = 0 := by
  cases h with
  | bare _ h =>
    have : '"' ∉ value := by
      intro hmem
      rcases h _ hmem with h | h <;> contradiction
    rw [List.count_eq_zero.mpr this]
  | @quoted w _ h => simp [count_quotes_of_isAlphanum h]

theorem OneWord.hash_not_mem {value : List Char} (h : OneWord value) : ∀ c ∈ value, c ≠ '#' := by
  cases h with
  | bare _ h =>
    intro c hc
    rcases h c hc with hc | rfl
    · exact ne_of_test hc rfl
    · decide
  | quoted _ h =>
    intro c hc
    simp only [List.mem_cons, List.mem_append, List.not_mem_nil, or_false] at hc
    rcases hc with rfl | hc | rfl
    · decide
    · exact ne_of_test (h c hc) rfl
    · decide

theorem Blanks.hash_not_mem {b : List Char} (h : Blanks b) : ∀ c ∈ b, c ≠ '#' :=
  fun c hc => ne_of_test (h c hc) rfl

/-- Text without an equals sign that opens neither a comment nor a header. -/
structure Label (cs : List Char) : Prop where
  ne_nil : cs ≠ []
  tight : Tight cs
  equals_not_mem : '=' ∉ cs
  no_comment : cs.head? ≠ some '#'
  no_header : cs.head? ≠ some '['

theorem Label.ne_equals {key : List Char} (h : Label key) {c : Char} (hc : c ∈ key) : c ≠ '=' := by
  rintro rfl
  exact h.equals_not_mem hc

theorem BareWord.label {key : List Char} (h : BareWord key) : Label key := by
  have hclean {x : Char} (hx : Toml.isBareKeyChar x = false) : x ∉ key := fun hmem => ne_of_test (h.2 x hmem) hx rfl
  exact ⟨h.1, h.tight, hclean rfl, fun heq => hclean rfl (List.mem_of_head? heq),
    fun heq => hclean rfl (List.mem_of_head? heq)⟩

/-! ## What a line of each form does -/

def Section.key : Section → String
  | .bridge => "bridge"
  | .motionTriggers => "motion_triggers"

namespace Settings

/-- The section of a name. -/
def sectionNamed? (name : List Char) : Except ParseError Section :=
  if String.ofList name = Section.bridge.key then .ok .bridge
  else if String.ofList name = Section.motionTriggers.key then .ok .motionTriggers
  else .error .invalidSection

/-- Settings and section in force after a phrase. -/
def readPhrase (state : Settings × Section) : Phrase → Except ParseError (Settings × Section)
  | .nothing => .ok state
  | .header name => (sectionNamed? name).map fun sec => (state.1, sec)
  | .pair key value => (state.1.assign state.2 (String.ofList key) value).map fun s => (s, state.2)

theorem takeWhile_append_cons {p : Char → Bool} {cs : List Char} (h : ∀ c ∈ cs, p c) {c : Char} (hc : p c = false)
    (rest : List Char) : (cs ++ c :: rest).takeWhile p = cs := by
  rw [List.takeWhile_append_of_pos h, List.takeWhile_cons_of_neg (by simp [hc]), List.append_nil]

/-- What stands in front of a number sign. -/
theorem takeWhile_hash {cs b : List Char} (h : ∀ c ∈ cs, c ≠ '#') (hb : Blanks b) (more : List Char) :
    (cs ++ (b ++ '#' :: more)).takeWhile (· ≠ '#') = cs ++ b := by
  rw [← List.append_assoc]
  refine takeWhile_append_cons (fun c hc => ?_) (by simp) more
  rcases List.mem_append.mp hc with hc | hc
  · simpa using h c hc
  · simpa using hb.hash_not_mem c hc

theorem dropComment_append {value b : List Char} (h : OneWord value) (hb : Blanks b) (more : List Char) :
    dropComment (value ++ (b ++ '#' :: more)) = value := by
  have htake := takeWhile_hash h.hash_not_mem hb more
  have hcount : (value ++ b).count '"' % 2 = 0 := by
    have : b.count '"' = 0 := List.count_eq_zero.mpr fun hmem => absurd (hb _ hmem) (by decide)
    rw [List.count_append, this]
    exact h.count_quotes
  rw [dropComment]
  simp only [htake]
  rw [if_pos ⟨by simp, hcount⟩]
  simpa using trimBlanks_of_tight blanks_nil h.tight hb

theorem dropComment_of_oneWord {value : List Char} (h : OneWord value) : dropComment value = value := by
  have htake : value.takeWhile (· ≠ '#') = value :=
    List.takeWhile_eq_self_iff.mpr fun c hc => by simpa using h.hash_not_mem c hc
  rw [dropComment]
  simp only [htake]
  exact if_neg fun hlt => absurd hlt.1 (Nat.lt_irrefl _)

/-- A value in one word is read up to the end of the line or up to its comment. -/
theorem dropComment_trailer {value tail : List Char} (h : OneWord value) (ht : Trailer tail) :
    dropComment (value ++ tail.rdropWhile isBlank) = value := by
  rcases ht.rdropWhile with hnil | ⟨b, more, hb, heq⟩
  · rw [hnil, List.append_nil, dropComment_of_oneWord h]
  · rw [heq, dropComment_append h hb]

theorem dropComment_trimBlanks {b value tail : List Char} (hb : Blanks b) (h : OneWord value) (ht : Trailer tail) :
    dropComment (trimBlanks (b ++ value ++ tail)) = value := by
  rw [trimBlanks_append hb h.ne_nil h.tight, dropComment_trailer h ht]

theorem exists_takeWhile_trailer {cs tail : List Char} (h : ∀ c ∈ cs, c ≠ '#') (ht : Trailer tail) :
    ∃ b, Blanks b ∧ (cs ++ tail.rdropWhile isBlank).takeWhile (· ≠ '#') = cs ++ b := by
  rcases ht.rdropWhile with hnil | ⟨b, more, hb, heq⟩
  · refine ⟨[], by simp [Blanks], ?_⟩
    rw [hnil, List.append_nil]
    exact List.takeWhile_eq_self_iff.mpr fun c hc => by simpa using h c hc
  · exact ⟨b, hb, heq ▸ takeWhile_hash h hb more⟩

theorem readHeader_written {b name b' tail : List Char} (hb : Blanks b) (hname : BareWord name) (hb' : Blanks b')
    (ht : Trailer tail) :
    readHeader ('[' :: (b ++ name ++ b' ++ ']' :: tail.rdropWhile isBlank)) = sectionNamed? name := by
  have hclean : ∀ c ∈ b ++ (name ++ b' ++ [']']), c ≠ '#' := by
    intro c hc
    simp only [List.mem_append, List.mem_singleton] at hc
    rcases hc with hc | (hc | hc) | rfl
    · exact hb.hash_not_mem c hc
    · exact ne_of_test (hname.2 c hc) rfl
    · exact hb'.hash_not_mem c hc
    · decide
  have hinside : Tight (name ++ b' ++ [']']) := by
    refine ⟨fun c hc => hname.tight.1 c ?_, fun c hc => ?_⟩
    · rw [List.append_assoc, List.head?_append_of_ne_nil _ hname.1] at hc
      exact hc
    · obtain rfl : ']' = c := by simpa [List.getLast?_concat] using hc
      rfl
  -- the comment, if there is one, is cut off before the bracket is looked for
  have htrim : trimBlanks (('[' :: (b ++ name ++ b' ++ ']' :: tail.rdropWhile isBlank)).drop 1 |>.takeWhile (· ≠ '#')) =
      name ++ b' ++ [']'] := by
    obtain ⟨c, hc, htake⟩ := exists_takeWhile_trailer hclean ht
    have hrow : b ++ name ++ b' ++ ']' :: tail.rdropWhile isBlank =
        b ++ (name ++ b' ++ [']']) ++ tail.rdropWhile isBlank := by simp
    rw [List.drop_succ_cons, List.drop_zero, hrow, htake, trimBlanks_of_tight hb hinside hc]
  have hword : trimBlanks (name ++ b' ++ [']']).dropLast = name := by
    rw [List.dropLast_concat]
    simpa using trimBlanks_of_tight blanks_nil hname.tight hb'
  rw [readHeader]
  simp only [htrim, hword, List.getLast?_concat, if_true]
  rfl

theorem trimBlanks_header {b : List Char} (hb : Blanks b) (inside tail : List Char) :
    trimBlanks (b ++ '[' :: (inside ++ ']' :: tail)) = '[' :: (inside ++ ']' :: tail.rdropWhile isBlank) := by
  have hcore : Tight ('[' :: (inside ++ [']'])) := by
    refine ⟨fun c hc => ?_, fun c hc => ?_⟩
    · obtain rfl : '[' = c := by simpa using hc
      rfl
    · obtain rfl : ']' = c := by simpa [List.getLast?_cons] using hc
      rfl
  have hrow : b ++ '[' :: (inside ++ ']' :: tail) = b ++ ('[' :: (inside ++ [']'])) ++ tail := by simp
  rw [hrow, trimBlanks_append hb (by simp) hcore]
  simp

section Label

variable {b key b' : List Char} {state : Settings × Section}

/-- A line that opens neither a comment nor a header is read as an assignment. -/
theorem readLine_of_opening {line rest : List Char} {c : Char} (h : trimBlanks line = c :: rest) (hhash : c ≠ '#')
    (hbracket : c ≠ '[') : readLine state line =
      match readAssignment? (c :: rest) with
      | none => .error .invalidValue
      | some (key, value) => (state.1.assign state.2 key value).map fun s => (s, state.2) := by
  simp only [readLine, h]
  split
  · contradiction
  · next heq => exact absurd (List.cons.inj heq).1 hhash
  · next heq => exact absurd (List.cons.inj heq).1 hbracket
  · rfl

theorem readLine_of_label (hkey : Label key) {line rest : List Char} (h : trimBlanks line = key ++ rest) :
    readLine state line =
      match readAssignment? (key ++ rest) with
      | none => .error .invalidValue
      | some (key, value) => (state.1.assign state.2 key value).map fun s => (s, state.2) := by
  obtain ⟨c, cs, rfl⟩ := List.exists_cons_of_ne_nil hkey.ne_nil
  exact readLine_of_opening h (fun heq => hkey.no_comment (congrArg some heq))
    fun heq => hkey.no_header (congrArg some heq)

/-- What is read of an assignment is the text on both sides of its first equals sign. -/
theorem readAssignment?_label (hkey : Label key) (hb : Blanks b) (right : List Char) :
    readAssignment? (key ++ (b ++ '=' :: right.rdropWhile isBlank)) =
      if dropComment (trimBlanks right) = [] then none
      else some (String.ofList key, dropComment (trimBlanks right)) := by
  have hleft : (key ++ (b ++ '=' :: right.rdropWhile isBlank)).takeWhile (· ≠ '=') = key ++ b := by
    rw [← List.append_assoc]
    refine takeWhile_append_cons (fun c hc => ?_) (by simp) _
    rcases List.mem_append.mp hc with hc | hc
    · simpa using hkey.ne_equals hc
    · simpa using ne_of_test (x := '=') (hb c hc) rfl
  have hright : (key ++ (b ++ '=' :: right.rdropWhile isBlank)).drop ((key ++ b).length + 1) =
      right.rdropWhile isBlank := by
    rw [← List.append_assoc, List.drop_length_add_append, List.drop_succ_cons, List.drop_zero]
  have hkey' : trimBlanks (key ++ b) = key := by
    simpa using trimBlanks_of_tight blanks_nil hkey.tight hb
  rw [readAssignment?]
  simp only [hleft, hright, hkey', trimBlanks_rdropWhile]
  by_cases hvalue : dropComment (trimBlanks right) = []
  · rw [if_pos hvalue, if_neg fun h => h.2.2 hvalue]
  · rw [if_neg hvalue, if_pos ⟨by simp, hkey.ne_nil, hvalue⟩]

theorem readLine_of_entry (hb : Blanks b) (hkey : Label key) (hb' : Blanks b') (right : List Char) :
    readLine state (b ++ key ++ b' ++ '=' :: right) =
      if dropComment (trimBlanks right) = [] then .error .invalidValue
      else (state.1.assign state.2 (String.ofList key) (dropComment (trimBlanks right))).map fun s => (s, state.2) := by
  have htrim : trimBlanks (b ++ key ++ b' ++ '=' :: right) = key ++ (b' ++ '=' :: right.rdropWhile isBlank) := by
    have hcore : Tight (key ++ b' ++ ['=']) := by
      refine ⟨fun c hc => hkey.tight.1 c ?_, fun c hc => ?_⟩
      · rwa [List.append_assoc, List.head?_append_of_ne_nil _ hkey.ne_nil] at hc
      · obtain rfl : '=' = c := by simpa [List.getLast?_concat] using hc
        rfl
    have hrow : b ++ key ++ b' ++ '=' :: right = b ++ (key ++ b' ++ ['=']) ++ right := by simp
    rw [hrow, trimBlanks_append hb (by simp) hcore]
    simp
  rw [readLine_of_label hkey htrim, readAssignment?_label hkey hb']
  by_cases hvalue : dropComment (trimBlanks right) = []
  · rw [if_pos hvalue, if_pos hvalue]
  · rw [if_neg hvalue, if_neg hvalue]

end Label

/-- What a line does depends on its phrase only. -/
theorem readLine_of_written {line : List Char} {p : Phrase} (h : Written line p) (state : Settings × Section) :
    readLine state line = readPhrase state p := by
  cases h with
  | nothing ht =>
    cases ht with
    | blanks hb => rw [readLine, trimBlanks_blanks hb]; rfl
    | @comment b more hb =>
      rw [readLine, trimBlanks_cons hb rfl]
      rfl
  | @header b b' name b'' tail hb hb' hname hb'' ht =>
    rw [readLine, trimBlanks_header hb (b' ++ name ++ b'') tail]
    show (readHeader _).map _ = _
    rw [readHeader_written hb' hname hb'' ht]
    rfl
  | pair hb hkey hb' hb'' hvalue ht =>
    rw [readLine_of_entry hb hkey.label hb', dropComment_trimBlanks hb'' hvalue ht, if_neg hvalue.ne_nil]
    rfl

end Settings

end DoorBridge
