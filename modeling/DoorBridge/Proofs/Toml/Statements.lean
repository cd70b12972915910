import DoorBridge.Proofs.Toml.Words

/-!
# Proofs.Toml.Statements — documents read line by line

A document is read a statement at a time, and blanks, comments and line ends between statements are skipped together.  Where
a line has one of the forms of settings text, the document takes it as one step (`Completes.line`).
-/

namespace DoorBridge.Toml

/-! ## What is skipped -/

/-- A row of spaces and tabs. -/
def Spaces (cs : List Char) : Prop := ∀ c ∈ cs, isSpace c

theorem dropWhile_spaces_append {s : List Char} (h : Spaces s) (cs : List Char) :
    (s ++ cs).dropWhile isSpace = cs.dropWhile isSpace := by
  induction s with
  | nil => rfl
  | cons c s ih =>
    have hc : isSpace c := h c (by simp)
    have hs : Spaces s := fun x hx => h x (by simp [hx])
    simp [hc, ih hs]

/-- Blanks are spaces and tabs, or one of them is a blank of another kind. -/
theorem blanks_cases {b : List Char} (h : Blanks b) :
    Spaces b ∨ ∃ s c b', Spaces s ∧ b = s ++ c :: b' ∧ isBlank c ∧ isSpace c = false := by
  induction b with
  | nil => exact .inl (by simp [Spaces])
  | cons c b ih =>
    by_cases hc : isSpace c
    · rcases ih fun x hx => h x (by simp [hx]) with hs | ⟨s, x, b', hs, rfl, hx⟩
      · exact .inl fun x hx => by
          rcases List.mem_cons.mp hx with rfl | hx
          · exact hc
          · exact hs x hx
      · refine .inr ⟨c :: s, x, b', fun y hy => ?_, rfl, hx⟩
        rcases List.mem_cons.mp hy with rfl | hy
        · exact hc
        · exact hs y hy
    · exact .inr ⟨[], c, b, by simp [Spaces], rfl, h c (by simp), by simpa using hc⟩

/-- The row behind the end of the line. -/
def afterLine (cs : List Char) : List Char := (cs.dropWhile (· ≠ '\n')).drop 1

theorem afterLine_append {l : List Char} (h : '\n' ∉ l) (cs : List Char) : afterLine (l ++ cs) = afterLine cs := by
  induction l with
  | nil => rfl
  | cons c l ih =>
    have hc : c ≠ '\n' := by
      rintro rfl
      simp at h
    have hl : '\n' ∉ l := fun hmem => h (by simp [hmem])
    simpa [afterLine, hc] using ih hl

theorem afterLine_dropWhile {p : Char → Bool} (hp : p '\n' = false) (cs : List Char) :
    afterLine (cs.dropWhile p) = afterLine cs := by
  have hcut : '\n' ∉ cs.takeWhile p := fun hmem => by
    rw [List.mem_takeWhile_imp hmem] at hp
    contradiction
  have := afterLine_append hcut (cs.dropWhile p)
  rwa [List.takeWhile_append_dropWhile, eq_comm] at this

/-- A comment ends with the document or with its line. -/
theorem dropComment_cases {cs rest : List Char} (h : dropComment ('#' :: cs) = some rest) :
    cs.dropWhile isPlain = [] ∧ rest = [] ∨
      ∃ more, (cs.dropWhile isPlain = '\n' :: more ∨ cs.dropWhile isPlain = '\r' :: '\n' :: more) ∧
        rest = '\n' :: more := by
  rw [dropComment] at h
  split at h
  · next heq => exact .inl ⟨heq, (Option.some.inj h).symm⟩
  · next more heq => exact .inr ⟨more, .inl heq, (Option.some.inj h).symm⟩
  · next more heq => exact .inr ⟨more, .inr heq, (Option.some.inj h).symm⟩
  · contradiction

theorem afterLine_dropComment {cs rest : List Char} (h : dropComment cs = some rest) : afterLine rest = afterLine cs := by
  by_cases hhash : ∃ more, cs = '#' :: more
  · obtain ⟨more, rfl⟩ := hhash
    have hmore : afterLine (more.dropWhile isPlain) = afterLine ('#' :: more) := by
      rw [afterLine_dropWhile rfl]
      exact (afterLine_append (l := ['#']) (by decide) more).symm
    rw [← hmore]
    rcases dropComment_cases h with ⟨heq, rfl⟩ | ⟨rest', heq | heq, rfl⟩
    · rw [heq]
    · rw [heq]
    · rw [heq]
      exact (afterLine_append (l := ['\r']) (by decide) ('\n' :: rest')).symm
  · rw [dropComment] at h
    · rw [← Option.some.inj h]
    · exact fun more heq => hhash ⟨more, heq⟩

theorem length_dropComment {cs rest : List Char} (h : dropComment ('#' :: cs) = some rest) : rest.length ≤ cs.length := by
  have hle : (cs.dropWhile isPlain).length ≤ cs.length := (List.dropWhile_sublist _).length_le
  rcases dropComment_cases h with ⟨-, rfl⟩ | ⟨more, heq | heq, rfl⟩
  · exact Nat.zero_le _
  · rwa [heq] at hle
  · rw [heq] at hle
    simp only [List.length_cons] at hle ⊢
    omega

/-- One round of `dropFiller`: a line end or a comment is skipped, and `next` goes on behind it. -/
def fillerRound (next : List Char → Option (List Char)) : List Char → Option (List Char)
  | '\n' :: rest => next rest
  | '\r' :: '\n' :: rest => next rest
  | '#' :: rest => (dropComment ('#' :: rest)).bind next
  | cs => some cs

theorem dropFiller_succ (n : Nat) (cs : List Char) :
    dropFiller (n + 1) cs = fillerRound (dropFiller n) (cs.dropWhile isSpace) := rfl

/-- Each round takes at least one character off the row. -/
theorem fillerRound_congr {f g : List Char → Option (List Char)} {cs : List Char}
    (h : ∀ rest, rest.length < cs.length → f rest = g rest) : fillerRound f cs = fillerRound g cs := by
  unfold fillerRound
  split
  · exact h _ (Nat.lt_succ_self _)
  · exact h _ (Nat.lt_add_of_pos_right (Nat.zero_lt_two))
  · next rest =>
    cases hc : dropComment ('#' :: rest) with
    | none => rfl
    | some rest' => exact h rest' (Nat.lt_succ_of_le (length_dropComment hc))
  · rfl

theorem length_dropWhile_isSpace (cs : List Char) : (cs.dropWhile isSpace).length ≤ cs.length :=
  (List.dropWhile_sublist _).length_le

/-- Fuel for the whole row is enough. -/
theorem dropFiller_eq {n m : Nat} {cs : List Char} (hn : cs.length ≤ n) (hm : cs.length ≤ m) :
    dropFiller n cs = dropFiller m cs := by
  induction n generalizing m cs with
  | zero =>
    obtain rfl := List.length_eq_zero_iff.mp (Nat.le_zero.mp hn)
    cases m <;> rfl
  | succ n ih =>
    cases m with
    | zero =>
      obtain rfl := List.length_eq_zero_iff.mp (Nat.le_zero.mp hm)
      rfl
    | succ m =>
      have hle := length_dropWhile_isSpace cs
      rw [dropFiller_succ, dropFiller_succ]
      exact fillerRound_congr fun rest hlt => ih (by omega) (by omega)

/-- The row behind everything that may stand between two statements. -/
def dropBetween (cs : List Char) : Option (List Char) := dropFiller cs.length cs

theorem dropBetween_eq {n : Nat} {cs : List Char} (h : cs.length ≤ n) : dropFiller n cs = dropBetween cs :=
  dropFiller_eq h (Nat.le_refl _)

theorem dropBetween_unfold (cs : List Char) : dropBetween cs = fillerRound dropBetween (cs.dropWhile isSpace) := by
  have hle := length_dropWhile_isSpace cs
  rw [← dropBetween_eq (Nat.le_succ cs.length), dropFiller_succ]
  exact fillerRound_congr fun rest hlt => dropBetween_eq (by omega)

section Between

variable {cs rest : List Char}

theorem dropBetween_nil (h : cs.dropWhile isSpace = []) : dropBetween cs = some [] := by
  rw [dropBetween_unfold, h]
  rfl

theorem dropBetween_newline (h : cs.dropWhile isSpace = '\n' :: rest) : dropBetween cs = dropBetween rest := by
  rw [dropBetween_unfold, h]
  rfl

theorem dropBetween_return (h : cs.dropWhile isSpace = '\r' :: '\n' :: rest) : dropBetween cs = dropBetween rest := by
  rw [dropBetween_unfold, h]
  rfl

theorem dropBetween_comment (h : cs.dropWhile isSpace = '#' :: rest) :
    dropBetween cs = (dropComment ('#' :: rest)).bind dropBetween := by
  rw [dropBetween_unfold, h]
  rfl

/-- A character that is none of those that are skipped. -/
theorem dropBetween_stop {c : Char} (h : cs.dropWhile isSpace = c :: rest) (hc : c ≠ '\n') (hhash : c ≠ '#')
    (hreturn : ∀ more, c :: rest ≠ '\r' :: '\n' :: more) : dropBetween cs = some (c :: rest) := by
  rw [dropBetween_unfold, h]
  unfold fillerRound
  split
  · next heq => exact absurd (List.cons.inj heq).1 hc
  · next heq => exact absurd heq (hreturn _)
  · next heq => exact absurd (List.cons.inj heq).1 hhash
  · rfl

end Between

/-! ## Statements -/

/-- Reads a statement and those that follow it, where nothing is left to skip before it. -/
def scanRest (fuel : Nat) (d : Draft) : List Char → Option Draft
  | [] => some d
  | cs => do
    let (d, rest) ← scanStatement d cs
    match ← dropComment (rest.dropWhile isSpace) with
    | [] => some d
    | '\n' :: rest => scanStatements fuel d rest
    | '\r' :: '\n' :: rest => scanStatements fuel d rest
    | _ => none

/-- What is still to be read makes a given document of what has been read. -/
def Completes (d : Draft) (cs : List Char) (final : Draft) : Prop := ∃ n, scanStatements n d cs = some final

theorem completes_iff {d final : Draft} {cs : List Char} :
    Completes d cs final ↔ ∃ n, (dropBetween cs).bind (scanRest n d) = some final := by
  constructor
  · rintro ⟨n, h⟩
    cases n with
    | zero => exact absurd h (Option.some_ne_none final).symm
    | succ n => exact ⟨n, h⟩
  · rintro ⟨n, h⟩
    exact ⟨n + 1, h⟩

namespace Completes

variable {d final : Draft} {cs : List Char}

theorem of_dropBetween {cs' : List Char} (h : Completes d cs final) (heq : dropBetween cs = dropBetween cs') :
    Completes d cs' final := by
  rw [completes_iff] at h ⊢
  rwa [← heq]

theorem exists_dropBetween (h : Completes d cs final) : ∃ rest, dropBetween cs = some rest := by
  obtain ⟨n, h⟩ := completes_iff.mp h
  obtain ⟨rest, hrest, -⟩ := Option.bind_eq_some_iff.mp h
  exact ⟨rest, hrest⟩

theorem nil_iff : Completes d [] final ↔ final = d := by
  rw [completes_iff, dropBetween_nil rfl]
  simp [scanRest, eq_comm]

/-- A statement is read, and what it leaves of its line is skipped. -/
theorem exists_statement {c : Char} {rest : List Char} (h : Completes d cs final)
    (hstop : dropBetween cs = some (c :: rest)) :
    ∃ d' rest', scanStatement d (c :: rest) = some (d', rest') ∧ Completes d' (afterLine rest') final := by
  obtain ⟨n, h⟩ := completes_iff.mp h
  rw [hstop, Option.bind_some] at h
  obtain ⟨⟨d', rest'⟩, hscan, h⟩ := Option.bind_eq_some_iff.mp h
  obtain ⟨tail, htail, h⟩ := Option.bind_eq_some_iff.mp h
  refine ⟨d', rest', hscan, ?_⟩
  have hafter : afterLine rest' = afterLine tail := by
    rw [afterLine_dropComment htail, afterLine_dropWhile rfl]
  rw [hafter]
  split at h
  · exact nil_iff.mpr (Option.some.inj h).symm
  · exact ⟨n, h⟩
  · exact ⟨n, h⟩
  · contradiction

end Completes

/-! ## Keys and values between blanks -/

/-- Blanks that are spaces and tabs are dropped up to the character behind them; any other blank stops that. -/
theorem dropWhile_blanks {b : List Char} (hb : Blanks b) {c : Char} (hc : isBlank c = false) (more : List Char) :
    (b ++ c :: more).dropWhile isSpace = c :: more ∨
      ∃ x xs, isBlank x ∧ isSpace x = false ∧ (b ++ c :: more).dropWhile isSpace = x :: xs := by
  rcases blanks_cases hb with hs | ⟨s, x, b', hs, rfl, hx, hspace⟩
  · left
    have hspace : isSpace c = false := by
      by_contra h
      simp only [isSpace, Bool.not_eq_false, Bool.or_eq_true, decide_eq_true_eq] at h
      rcases h with rfl | rfl <;> contradiction
    rw [dropWhile_spaces_append hs, List.dropWhile_cons_of_neg (by simp [hspace])]
  · right
    refine ⟨x, b' ++ c :: more, hx, hspace, ?_⟩
    rw [List.append_assoc, dropWhile_spaces_append hs, List.cons_append,
      List.dropWhile_cons_of_neg (by simp [hspace])]

theorem eq_of_dropWhile_blanks {b : List Char} (hb : Blanks b) {c : Char} (hc : isBlank c = false)
    {more rest : List Char} (h : (b ++ c :: more).dropWhile isSpace = c :: rest) : rest = more := by
  rcases dropWhile_blanks hb hc more with heq | ⟨x, xs, hx, -, heq⟩
  · rw [heq] at h
    exact (List.cons.inj h).2.symm
  · rw [heq] at h
    obtain ⟨rfl, -⟩ := List.cons.inj h
    rw [hx] at hc
    contradiction

/-- A key is a bare word unless it opens with a quote. -/
theorem scanKeyPart_word {c : Char} (hquote : c ≠ '"') (hquote' : c ≠ '\'') (rest : List Char) :
    scanKeyPart (c :: rest) =
      if (c :: rest).takeWhile isBareKeyChar = [] then none
      else some (String.ofList ((c :: rest).takeWhile isBareKeyChar),
        (c :: rest).drop ((c :: rest).takeWhile isBareKeyChar).length) := by
  unfold scanKeyPart
  split
  · next heq => exact absurd (List.cons.inj heq).1 hquote
  · next heq => exact absurd (List.cons.inj heq).1 hquote'
  · rfl

theorem scanKey_blank {x : Char} (hx : isBlank x) (rest : List Char) : scanKey (x :: rest) = none := by
  have hbare : isBareKeyChar x = false := by
    by_contra h
    rw [isBlank_of_isBareKeyChar (by simpa using h)] at hx
    contradiction
  have hpart : scanKeyPart (x :: rest) = none := by
    rw [scanKeyPart_word (ne_of_test hx rfl) (ne_of_test hx rfl), if_pos (List.takeWhile_cons_of_neg (by simp [hbare]))]
  rw [scanKey, maxDepth, scanKeyParts, hpart]
  rfl

theorem scanKey_bareWord {w : List Char} (hw : BareWord w) {b : List Char} (hb : Blanks b) {c : Char}
    (hc : isBlank c = false) (hbare : isBareKeyChar c = false) (hdot : c ≠ '.') (more : List Char) :
    scanKey (w ++ (b ++ c :: more)) = some ([String.ofList w], (b ++ c :: more).dropWhile isSpace) := by
  have hhead : ∀ x, (b ++ c :: more).head? = some x → isBareKeyChar x = false := by
    intro x hx
    cases b with
    | nil =>
      obtain rfl : c = x := by simpa using hx
      exact hbare
    | cons y b =>
      obtain rfl : y = x := by simpa using hx
      by_contra h
      have := hb y (by simp)
      rw [isBlank_of_isBareKeyChar (by simpa using h)] at this
      contradiction
  have htake : (w ++ (b ++ c :: more)).takeWhile isBareKeyChar = w := by
    cases hrest : b ++ c :: more with
    | nil => simp at hrest
    | cons x rest => exact Settings.takeWhile_append_cons hw.2 (hhead x (by simp [hrest])) rest
  have hpart : scanKeyPart (w ++ (b ++ c :: more)) = some (String.ofList w, b ++ c :: more) := by
    obtain ⟨k, ks, rfl⟩ := List.exists_cons_of_ne_nil hw.1
    have hk : isBareKeyChar k := hw.2 k (by simp)
    rw [List.cons_append] at htake ⊢
    rw [scanKeyPart_word (ne_of_test hk rfl) (ne_of_test hk rfl), htake, if_neg hw.1, ← List.cons_append, List.drop_left]
  -- no dot follows that would add a second part to the key
  have hstop : ∀ more', (b ++ c :: more).dropWhile isSpace ≠ '.' :: more' := by
    intro more' heq
    rcases dropWhile_blanks hb hc more with h | ⟨x, xs, hx, -, h⟩
    · rw [h] at heq
      exact hdot (List.cons.inj heq).1
    · rw [h] at heq
      exact ne_of_test (x := '.') hx rfl (List.cons.inj heq).1
  rw [scanKey, maxDepth, scanKeyParts, hpart]
  simp only [Option.bind_eq_bind, Option.bind_some]

theorem scanValue_blank {x : Char} (hx : isBlank x) (depth : Nat) (rest : List Char) :
    scanValue depth (x :: rest) = none := by
  have htake : (x :: rest).takeWhile isTokenChar = [] :=
    List.takeWhile_cons_of_neg (by simp [isTokenChar_of_ends (.inl hx)])
  rw [scanValue_token hx rfl]
  simp only [scanToken, htake]
  rfl

/-! ## Lines -/

section Lines

variable {d d' : Draft} {b b' tail rest : List Char}

theorem scanStatement_header {name : List Char} (hb : Blanks b) (hname : BareWord name) (hb' : Blanks b')
    (h : scanStatement d ('[' :: (b ++ name ++ b' ++ ']' :: tail)) = some (d', rest)) :
    rest = tail ∧ ∃ root, openTable? [String.ofList name] d.root = some root ∧
      d' = ⟨root, [String.ofList name]⟩ := by
  obtain ⟨k, ks, hks⟩ := List.exists_cons_of_ne_nil hname.1
  have hk : isBareKeyChar k := hname.2 k (by simp [hks])
  have hrow : b ++ name ++ b' ++ ']' :: tail = b ++ k :: (ks ++ b' ++ ']' :: tail) := by simp [hks]
  have hsingle : ∀ more, b ++ name ++ b' ++ ']' :: tail ≠ '[' :: more := by
    intro more heq
    rw [hrow] at heq
    cases b with
    | nil => exact ne_of_test (x := '[') hk rfl (List.cons.inj heq).1
    | cons x b => exact ne_of_test (x := '[') (hb x (by simp)) rfl (List.cons.inj heq).1
  have hheader : scanHeader d ('[' :: (b ++ name ++ b' ++ ']' :: tail)) = some (d', rest) := h
  unfold scanHeader at hheader
  split at hheader
  · next heq => exact absurd (List.cons.inj heq).2 (hsingle _)
  · next heq =>
    obtain ⟨-, rfl⟩ := List.cons.inj heq
    obtain ⟨⟨key, rest'⟩, hkey, hopen⟩ := Option.bind_eq_some_iff.mp hheader
    rcases dropWhile_blanks hb (isBlank_of_isBareKeyChar hk) (ks ++ b' ++ ']' :: tail) with hdrop | ⟨x, xs, hx, -, hdrop⟩
    · have hname' : k :: (ks ++ b' ++ ']' :: tail) = name ++ (b' ++ ']' :: tail) := by simp [hks]
      rw [hrow, hdrop, hname', scanKey_bareWord hname hb' rfl rfl (by decide)] at hkey
      simp only [Option.some.injEq, Prod.mk.injEq] at hkey
      obtain ⟨rfl, hrest⟩ := hkey
      simp only at hopen
      split at hopen
      · obtain rfl := eq_of_dropWhile_blanks hb' rfl hrest
        obtain ⟨root, hroot, heq⟩ := Option.bind_eq_some_iff.mp hopen
        simp only [Option.some.injEq, Prod.mk.injEq] at heq
        exact ⟨heq.2.symm, root, hroot, heq.1.symm⟩
      · contradiction
    · rw [hrow, hdrop, scanKey_blank hx] at hkey
      contradiction
  · next hnone => exact absurd rfl (hnone _)

/-- A statement gives a key its value unless it opens with a bracket. -/
theorem scanStatement_of_ne {c : Char} (hc : c ≠ '[') (d : Draft) (rest : List Char) :
    scanStatement d (c :: rest) = (scanPair (scanValue maxDepth) (c :: rest)).bind fun r =>
      (assignUnder? d.header r.1.1 r.1.2 d.root).bind fun root => some ({ d with root := root }, r.2) := by
  unfold scanStatement
  split
  · next heq => exact absurd (List.cons.inj heq).1 hc
  · rfl

theorem scanStatement_pair {key value : List Char} (hkey : BareWord key) (hb : Blanks b) (hb' : Blanks b')
    (hvalue : OneWord value) (ht : Ends tail)
    (h : scanStatement d (key ++ b ++ '=' :: (b' ++ value ++ tail)) = some (d', rest)) :
    rest = tail ∧ ∃ v root, wordValue? value = some v ∧
      assignUnder? d.header [String.ofList key] v d.root = some root ∧ d' = { d with root := root } := by
  have hpair : ((scanPair (scanValue maxDepth) (key ++ b ++ '=' :: (b' ++ value ++ tail))).bind fun r =>
      (assignUnder? d.header r.1.1 r.1.2 d.root).bind fun root => some ({ d with root := root }, r.2)) =
        some (d', rest) := by
    obtain ⟨k, ks, hks⟩ := List.exists_cons_of_ne_nil hkey.1
    have hk : isBareKeyChar k := hkey.2 k (by simp [hks])
    rw [hks, List.cons_append, List.cons_append] at h ⊢
    rwa [scanStatement_of_ne (ne_of_test hk rfl)] at h
  obtain ⟨⟨⟨keys, v⟩, rest'⟩, hscan, hpair⟩ := Option.bind_eq_some_iff.mp hpair
  obtain ⟨root, hroot, heq⟩ := Option.bind_eq_some_iff.mp hpair
  simp only [Option.some.injEq, Prod.mk.injEq] at heq hroot
  obtain ⟨rfl, rfl⟩ := heq
  rw [scanPair, List.append_assoc, scanKey_bareWord hkey hb rfl rfl (by decide)] at hscan
  simp only [Option.bind_eq_bind, Option.bind_some] at hscan
  split at hscan
  · next hrest =>
    obtain rfl := eq_of_dropWhile_blanks hb rfl hrest
    obtain ⟨c, cs, hcs⟩ := List.exists_cons_of_ne_nil hvalue.ne_nil
    have hc : isBlank c = false := hvalue.tight.1 c (by simp [hcs])
    have hrow : b' ++ value ++ tail = b' ++ c :: (cs ++ tail) := by simp [hcs]
    have hvalue' : c :: (cs ++ tail) = value ++ tail := by simp [hcs]
    obtain ⟨⟨w, rest''⟩, hw, heq⟩ := Option.bind_eq_some_iff.mp hscan
    simp only [Option.some.injEq, Prod.mk.injEq] at heq
    obtain ⟨⟨rfl, rfl⟩, rfl⟩ := heq
    rcases dropWhile_blanks hb' hc (cs ++ tail) with hdrop | ⟨x, xs, hx, -, hdrop⟩
    · rw [hrow, hdrop, hvalue', scanValue_oneWord hvalue ht] at hw
      obtain ⟨v, hv, heq⟩ := Option.map_eq_some_iff.mp hw
      simp only [Prod.mk.injEq] at heq
      obtain ⟨rfl, rfl⟩ := heq
      exact ⟨rfl, v, root, hv, hroot, rfl⟩
    · rw [hrow, hdrop, scanValue_blank hx] at hw
      contradiction
  · contradiction

end Lines

/-! ## One line as one step -/

/-- What a line does to the document so far. -/
inductive Draft.Takes (d : Draft) : Phrase → Draft → Prop where
  | nothing : Takes d .nothing d
  | header {name root} : openTable? [String.ofList name] d.root = some root →
      Takes d (.header name) ⟨root, [String.ofList name]⟩
  | pair {key value v root} : wordValue? value = some v →
      assignUnder? d.header [String.ofList key] v d.root = some root → Takes d (.pair key value) { d with root := root }

/-- The end of a line: nothing, or a line end and more lines. -/
def LineEnd (e : List Char) : Prop := e = [] ∨ ∃ rest, e = '\n' :: rest

theorem LineEnd.afterLine_append {l e : List Char} (h : LineEnd e) (hl : '\n' ∉ l) : afterLine (l ++ e) = e.drop 1 := by
  rw [Toml.afterLine_append hl]
  rcases h with rfl | ⟨rest, rfl⟩ <;> rfl

theorem ends_of_trailer {tail e : List Char} (ht : Trailer tail) (he : LineEnd e) : Ends (tail ++ e) := by
  have hb : ∀ {b : List Char}, Blanks b → ∀ {rest}, Ends rest → Ends (b ++ rest) := by
    intro b hb rest hr c hc
    cases b with
    | nil => exact hr c hc
    | cons x b =>
      obtain rfl : x = c := by simpa using hc
      exact .inl (hb x (by simp))
  have hend : Ends e := by
    rintro c hc
    rcases he with rfl | ⟨rest, rfl⟩
    · simp at hc
    · obtain rfl : '\n' = c := by simpa using hc
      exact .inl rfl
  cases ht with
  | blanks h => exact hb h hend
  | @comment b more h =>
    rw [List.append_assoc]
    refine hb h fun c hc => ?_
    obtain rfl : '#' = c := by simpa using hc
    exact .inr rfl

namespace Completes

variable {d final : Draft} {line e : List Char}

/-- Blanks of other kinds than spaces and tabs open no statement. -/
theorem not_of_blank {s : List Char} (hs : Spaces s) {x : Char} (hx : isBlank x) (hspace : isSpace x = false)
    (hnl : x ≠ '\n') {more : List Char} (hreturn : ∀ rest, x :: more ≠ '\r' :: '\n' :: rest) :
    ¬ Completes d (s ++ x :: more) final := by
  intro h
  have hdrop : (s ++ x :: more).dropWhile isSpace = x :: more := by
    rw [dropWhile_spaces_append hs, List.dropWhile_cons_of_neg (by simp [hspace])]
  obtain ⟨d', rest, hscan, -⟩ :=
    h.exists_statement (dropBetween_stop hdrop hnl (ne_of_test hx rfl) hreturn)
  have hpair : scanPair (scanValue maxDepth) (x :: more) = none := by
    rw [scanPair, scanKey_blank hx]
    rfl
  rw [scanStatement_of_ne (ne_of_test hx rfl), hpair] at hscan
  contradiction

/-- Blanks in front of a statement are spaces and tabs. -/
theorem spaces_of_blanks {b : List Char} (hb : Blanks b) (hnl : '\n' ∉ b) {c : Char} (hc : c ≠ '\n')
    {more : List Char} (h : Completes d (b ++ c :: more) final) : Spaces b := by
  rcases blanks_cases hb with hs | ⟨s, x, b', hs, rfl, hx, hspace⟩
  · exact hs
  · refine absurd (by simpa using h) (not_of_blank hs hx hspace (fun heq => hnl (by simp [heq])) fun rest heq => ?_)
    cases b' with
    | nil => exact hc (List.cons.inj (List.cons.inj heq).2).1
    | cons y b' => exact hnl (by simp [(List.cons.inj (List.cons.inj heq).2).1])

/-- A blank line is skipped. -/
theorem of_blanks {b : List Char} (hb : Blanks b) (hnl : '\n' ∉ b) (he : LineEnd e) (h : Completes d (b ++ e) final) :
    Completes d (e.drop 1) final := by
  rcases blanks_cases hb with hs | ⟨s, x, b', hs, rfl, hx, hspace⟩
  · refine h.of_dropBetween ?_
    rcases he with rfl | ⟨rest, rfl⟩
    · rw [List.append_nil, dropBetween_nil (List.dropWhile_eq_nil_iff.mpr hs)]
      rfl
    · refine dropBetween_newline ?_
      rw [dropWhile_spaces_append hs]
      rfl
  · rw [List.append_assoc] at h
    by_cases hreturn : x = '\r' ∧ b' = [] ∧ ∃ rest, e = '\n' :: rest
    · obtain ⟨rfl, rfl, rest, rfl⟩ := hreturn
      refine h.of_dropBetween (dropBetween_return ?_)
      rw [dropWhile_spaces_append hs]
      rfl
    · -- a blank of another kind, or a return that no line end follows
      refine absurd h (not_of_blank hs hx hspace (fun heq => hnl (by simp [heq])) fun rest heq => hreturn ?_)
      obtain ⟨rfl, heq'⟩ := List.cons.inj heq
      cases b' with
      | nil => exact ⟨rfl, rfl, rest, heq'⟩
      | cons y b' =>
        obtain ⟨rfl, -⟩ := List.cons.inj heq'
        exact absurd (by simp) hnl

/-- A comment is skipped up to the end of its line. -/
theorem of_comment {b more : List Char} (hb : Blanks b) (hnl : '\n' ∉ b ++ '#' :: more) (he : LineEnd e)
    (h : Completes d (b ++ '#' :: more ++ e) final) : Completes d (e.drop 1) final := by
  rw [List.append_assoc] at h
  have hs : Spaces b := spaces_of_blanks hb (fun hmem => hnl (by simp [hmem])) (by decide) h
  have hdrop : (b ++ ('#' :: more ++ e)).dropWhile isSpace = '#' :: (more ++ e) := by
    rw [dropWhile_spaces_append hs]
    rfl
  have heq := dropBetween_comment hdrop
  obtain ⟨rest, hrest⟩ := h.exists_dropBetween
  rw [heq] at hrest
  obtain ⟨tail, htail, -⟩ := Option.bind_eq_some_iff.mp hrest
  rw [htail, Option.bind_some] at heq
  -- the comment goes on to the end of the line and no further
  have hafter : afterLine tail = e.drop 1 := by
    rw [afterLine_dropComment htail, ← List.cons_append]
    exact he.afterLine_append fun hmem => hnl (List.mem_append_right b hmem)
  rw [← hafter]
  refine h.of_dropBetween (heq.trans ?_)
  rcases dropComment_cases htail with ⟨-, rfl⟩ | ⟨more', -, rfl⟩
  · rfl
  · exact dropBetween_newline rfl

/-- A line of one of the forms of settings text is one step. -/
theorem exists_takes {p : Phrase} (hw : Written line p) (hnl : '\n' ∉ line) (he : LineEnd e)
    (h : Completes d (line ++ e) final) : ∃ d', d.Takes p d' ∧ Completes d' (e.drop 1) final := by
  cases hw with
  | nothing ht =>
    cases ht with
    | blanks hb => exact ⟨d, .nothing, h.of_blanks hb hnl he⟩
    | comment more hb => exact ⟨d, .nothing, h.of_comment hb hnl he⟩
  | @header b b' name b'' tail hb hb' hname hb'' ht =>
    have hrow : b ++ '[' :: (b' ++ name ++ b'' ++ ']' :: tail) ++ e =
        b ++ '[' :: (b' ++ name ++ b'' ++ ']' :: (tail ++ e)) := by simp
    rw [hrow] at h
    have hs : Spaces b := spaces_of_blanks hb (fun hmem => hnl (by simp [hmem])) (by decide) h
    have hdrop : (b ++ '[' :: (b' ++ name ++ b'' ++ ']' :: (tail ++ e))).dropWhile isSpace =
        '[' :: (b' ++ name ++ b'' ++ ']' :: (tail ++ e)) := by
      rw [dropWhile_spaces_append hs]
      rfl
    obtain ⟨d', rest, hscan, hrest⟩ :=
      h.exists_statement (dropBetween_stop hdrop (by decide) (by decide) (by simp))
    obtain ⟨rfl, root, hroot, rfl⟩ := scanStatement_header hb' hname hb'' hscan
    rw [he.afterLine_append fun hmem => hnl (by simp [hmem])] at hrest
    exact ⟨_, .header hroot, hrest⟩
  | @pair b key b' b'' value tail hb hkey hb' hb'' hvalue ht =>
    have hrow : b ++ key ++ b' ++ '=' :: (b'' ++ value ++ tail) ++ e =
        b ++ (key ++ b' ++ '=' :: (b'' ++ value ++ (tail ++ e))) := by simp
    rw [hrow] at h
    obtain ⟨k, ks, hks⟩ := List.exists_cons_of_ne_nil hkey.1
    have hk : isBareKeyChar k := hkey.2 k (by simp [hks])
    obtain ⟨more, hmore⟩ : ∃ more, key ++ b' ++ '=' :: (b'' ++ value ++ (tail ++ e)) = k :: more :=
      ⟨_, by rw [hks]; rfl⟩
    rw [hmore] at h
    have hs : Spaces b := spaces_of_blanks hb (fun hmem => hnl (by simp [hmem])) (ne_of_test hk rfl) h
    have hdrop : (b ++ k :: more).dropWhile isSpace = k :: more := by
      rw [dropWhile_spaces_append hs, List.dropWhile_cons_of_neg]
      intro hspace
      simp only [isSpace, Bool.or_eq_true, decide_eq_true_eq] at hspace
      rcases hspace with rfl | rfl <;> contradiction
    obtain ⟨d', rest, hscan, hrest⟩ := h.exists_statement
      (dropBetween_stop hdrop (ne_of_test hk rfl) (ne_of_test hk rfl) fun rest heq =>
        ne_of_test (x := '\r') hk rfl (List.cons.inj heq).1)
    rw [← hmore] at hscan
    obtain ⟨rfl, v, root, hv, hroot, rfl⟩ := scanStatement_pair hkey hb' hb'' hvalue (ends_of_trailer ht he) hscan
    rw [he.afterLine_append fun hmem => hnl (by simp [hmem])] at hrest
    exact ⟨_, .pair hv hroot, hrest⟩

end Completes

/-! ## Lines in a row -/

/-- A draft of tables side by side, its header one of them. -/
structure Draft.Tidy (d : Draft) : Prop where
  flat : d.root.Flat
  place : d.header = [] ∨ ∃ name entries, d.header = [name] ∧ d.root.lookup name = some (.table .header entries)

theorem Draft.tidy_empty : Draft.Tidy {} := ⟨Entries.flat_nil, .inl rfl⟩

/-- A line keeps what the document holds. -/
theorem Draft.Takes.tidy {d d' : Draft} {p : Phrase} (h : d.Takes p d') (ht : d.Tidy) :
    d'.Tidy ∧ d.root.Grows d'.root := by
  cases h with
  | nothing => exact ⟨ht, .refl _⟩
  | header hroot =>
    obtain ⟨hnone, hup⟩ := openTable?_spec ht.flat hroot
    exact ⟨⟨hup.flat_table ht.flat Entries.sorted_nil, .inr ⟨_, _, rfl, hup.here⟩⟩, hup.grows_of_none hnone⟩
  | @pair key value v root hv hroot =>
    rcases ht.place with hplace | ⟨name, entries, hplace, hname⟩
    · rw [hplace] at hroot
      obtain ⟨hnone, hup⟩ := assignUnder?_root ht.flat hroot
      exact ⟨⟨hup.flat_scalar ht.flat (wordValue?_scalar hv), .inl hplace⟩, hup.grows_of_none hnone⟩
    · rw [hplace] at hroot
      obtain ⟨hnone, entries', hin, hup⟩ := assignUnder?_table ht.flat hname hroot
      exact ⟨⟨hup.flat_table ht.flat hin.sorted, .inr ⟨name, entries', hplace, hup.here⟩⟩,
        hup.grows_table hname hin hnone⟩

/-- Lines with line ends between them. -/
def joinLines : List (List Char) → List Char
  | [] => []
  | [line] => line
  | line :: lines => line ++ '\n' :: joinLines lines

theorem exists_joinLines_cons (line : List Char) (lines : List (List Char)) :
    ∃ e, LineEnd e ∧ joinLines (line :: lines) = line ++ e ∧ e.drop 1 = joinLines lines := by
  cases lines with
  | nil => exact ⟨[], .inl rfl, (List.append_nil _).symm, rfl⟩
  | cons line' lines => exact ⟨'\n' :: joinLines (line' :: lines), .inr ⟨_, rfl⟩, rfl, rfl⟩

theorem exists_splitAtChar (sep : Char) (cs : List Char) : ∃ line lines, splitAtChar sep cs = line :: lines := by
  cases cs with
  | nil => exact ⟨[], [], rfl⟩
  | cons c cs =>
    rw [splitAtChar]
    split
    · exact ⟨_, _, rfl⟩
    · split <;> exact ⟨_, _, rfl⟩

theorem joinLines_splitAtChar (cs : List Char) : joinLines (splitAtChar '\n' cs) = cs := by
  induction cs with
  | nil => rfl
  | cons c cs ih =>
    obtain ⟨line, lines, hsplit⟩ := exists_splitAtChar '\n' cs
    rw [splitAtChar, hsplit]
    rw [hsplit] at ih
    split
    · next hc =>
      show '\n' :: joinLines (line :: lines) = c :: cs
      rw [ih, hc]
    · cases lines with
      | nil => exact congrArg (c :: ·) ih
      | cons line' lines => exact congrArg (c :: ·) ih

theorem not_mem_of_mem_splitAtChar {sep : Char} {cs line : List Char} (h : line ∈ splitAtChar sep cs) : sep ∉ line := by
  induction cs generalizing line with
  | nil =>
    obtain rfl : line = [] := by simpa [splitAtChar] using h
    simp
  | cons c cs ih =>
    obtain ⟨first, lines, hsplit⟩ := exists_splitAtChar sep cs
    rw [hsplit] at ih
    rw [splitAtChar, hsplit] at h
    split at h
    · rcases List.mem_cons.mp h with rfl | h
      · simp
      · exact ih h
    · next hc =>
      rcases List.mem_cons.mp h with rfl | h
      · simp only [List.mem_cons, not_or]
        exact ⟨fun heq => hc heq.symm, ih (by simp)⟩
      · exact ih (by simp [h])

/-- Whatever lines follow, what a document holds stays. -/
theorem Completes.grows {lines : List (List Char)} (hlines : ∀ line ∈ lines, '\n' ∉ line ∧ ∃ p, Written line p)
    {d final : Draft} (ht : d.Tidy) (h : Completes d (joinLines lines) final) : d.root.Grows final.root := by
  induction lines generalizing d with
  | nil =>
    obtain rfl := nil_iff.mp h
    exact .refl _
  | cons line lines ih =>
    obtain ⟨hnl, p, hw⟩ := hlines line (by simp)
    obtain ⟨e, he, hjoin, hrest⟩ := exists_joinLines_cons line lines
    rw [hjoin] at h
    obtain ⟨d', htakes, h'⟩ := h.exists_takes hw hnl he
    obtain ⟨ht', hgrows⟩ := htakes.tidy ht
    rw [hrest] at h'
    exact hgrows.trans (ih (fun l hl => hlines l (by simp [hl])) ht' h')

end DoorBridge.Toml
