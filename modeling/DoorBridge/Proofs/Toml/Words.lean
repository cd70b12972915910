import DoorBridge.Proofs.Settings.Lines
import DoorBridge.Proofs.Toml.Entries

/-!
# Proofs.Toml.Words — values in one word

A value in one word is read by itself, whatever stands behind it on its line (`scanValue_oneWord`).  Digits spell the number
that they are, unless a zero stands in front of others (`wordValue?_unsigned`).
-/

namespace DoorBridge.Toml

/-- The value that one word stands for. -/
def wordValue? : List Char → Option Value
  | '"' :: rest => some (.string (String.ofList rest.dropLast))
  | cs => token? cs

/-- A row that does not go on with the word in front of it. -/
def Ends (rest : List Char) : Prop := ∀ c, rest.head? = some c → isBlank c ∨ c = '#'

theorem isTokenChar_of_ends {c : Char} (h : isBlank c ∨ c = '#') : isTokenChar c = false := by
  rcases h with h | rfl
  · by_contra hc
    simp only [isTokenChar, Bool.not_eq_false, Bool.or_eq_true, decide_eq_true_eq] at hc
    rcases hc with ((((hc | rfl) | rfl) | rfl) | rfl) | rfl
    · rw [isBlank_of_isAlphanum hc] at h
      contradiction
    all_goals contradiction
  · rfl

theorem takeWhile_of_ends {cs rest : List Char} {p : Char → Bool} (h : ∀ c ∈ cs, p c) (hr : Ends rest)
    (hp : ∀ c, isBlank c ∨ c = '#' → p c = false) : (cs ++ rest).takeWhile p = cs := by
  cases rest with
  | nil => rw [List.append_nil, List.takeWhile_eq_self_iff.mpr h]
  | cons c rest => exact Settings.takeWhile_append_cons h (hp c (hr c rfl)) rest

/-! ## Words in quotes -/

theorem basicString_word {w : List Char} (h : ∀ c ∈ w, c.isAlphanum) (rest : List Char) :
    basicString (w ++ '"' :: rest) = some (w, rest) := by
  induction w with
  | nil => simp [basicString]
  | cons c w ih =>
    have hc : c.isAlphanum := h c (by simp)
    have hslash : c ≠ '\\' := ne_of_test hc rfl
    have hplain : isPlain c := by
      rw [isAlphanum_iff] at hc
      simp only [isPlain, Bool.or_eq_true, Bool.and_eq_true, decide_eq_true_eq]
      omega
    have hih := ih fun x hx => h x (by simp [hx])
    rw [List.cons_append, basicString, hih]
    · simp [hplain, hslash, prepend]
    · exact fun heq => absurd heq (ne_of_test hc rfl)
    all_goals simp [hslash]

theorem scanValue_quoted {w : List Char} (hne : w ≠ []) (h : ∀ c ∈ w, c.isAlphanum) (depth : Nat) (rest : List Char) :
    scanValue depth ('"' :: (w ++ '"' :: rest)) = some (.string (String.ofList w), rest) := by
  obtain ⟨c, cs, rfl⟩ := List.exists_cons_of_ne_nil hne
  have hquote : c ≠ '"' := ne_of_test (h c (by simp)) rfl
  have hscan : scanString ('"' :: (c :: cs ++ '"' :: rest)) = some (String.ofList (c :: cs), rest) := by
    have := basicString_word h rest
    simp only [List.cons_append] at this
    simp [scanString, hquote, this]
  unfold scanValue
  simp only [hscan, Option.map_some]

/-! ## Tokens -/

/-- A value is a token unless it opens with a quote, a bracket or a brace. -/
theorem scanValue_token {p : Char → Bool} {c : Char} (h : p c) (hp : ['"', '\'', '[', '\x7b'].any p = false) (depth : Nat)
    (rest : List Char) : scanValue depth (c :: rest) = scanToken (c :: rest) := by
  simp only [List.any_cons, List.any_nil, Bool.or_false, Bool.or_eq_false_iff] at hp
  obtain ⟨hquote, hquote', hbracket, hbrace⟩ := hp
  have hquote : c ≠ '"' := ne_of_test h hquote
  have hquote' : c ≠ '\'' := ne_of_test h hquote'
  have hbracket : c ≠ '[' := ne_of_test h hbracket
  have hbrace : c ≠ '\x7b' := ne_of_test h hbrace
  unfold scanValue
  split <;> simp_all

theorem scanDate_eq_none {cs : List Char} (h : '-' ∉ cs) : scanDate cs = none := by
  unfold scanDate
  split
  · simp at h
  · rfl

theorem scanTime_eq_none {cs : List Char} (h : ':' ∉ cs) : scanTime cs = none := by
  unfold scanTime
  split
  · simp at h
  · rfl

theorem datetime?_eq_none {cs : List Char} (h : '-' ∉ cs) (h' : ':' ∉ cs) : datetime? cs = none := by
  simp [datetime?, scanDate_eq_none h, scanTime_eq_none h']

theorem scanToken_bare {cs : List Char} (h : ∀ c ∈ cs, c.isAlphanum ∨ c = '+') {rest : List Char} (hr : Ends rest) :
    scanToken (cs ++ rest) = (token? cs).map fun v => (v, rest) := by
  have hchars : ∀ c ∈ cs, isTokenChar c := by
    intro c hc
    rcases h c hc with hc | rfl
    · simp [isTokenChar, hc]
    · rfl
  have hdate : scanDate cs = none := by
    refine scanDate_eq_none fun hmem => ?_
    rcases h _ hmem with hc | hc <;> contradiction
  have htake := takeWhile_of_ends hchars hr fun _ => isTokenChar_of_ends
  simp only [scanToken, htake, List.drop_left, hdate]

theorem scanValue_bare {cs : List Char} (hne : cs ≠ []) (h : ∀ c ∈ cs, c.isAlphanum ∨ c = '+') {rest : List Char}
    (hr : Ends rest) (depth : Nat) : scanValue depth (cs ++ rest) = (token? cs).map fun v => (v, rest) := by
  rw [← scanToken_bare h hr]
  obtain ⟨c, cs, rfl⟩ := List.exists_cons_of_ne_nil hne
  have hc : (c.isAlphanum || c = '+') := by simpa using h c (by simp)
  exact scanValue_token (p := fun c => c.isAlphanum || c = '+') hc rfl depth _

/-- A value in one word is read by itself. -/
theorem scanValue_oneWord {value rest : List Char} (h : OneWord value) (hr : Ends rest) (depth : Nat) :
    scanValue depth (value ++ rest) = (wordValue? value).map fun v => (v, rest) := by
  cases h with
  | bare hne h =>
    rw [scanValue_bare hne h hr]
    obtain ⟨c, cs, rfl⟩ := List.exists_cons_of_ne_nil hne
    have hc : (c.isAlphanum || c = '+') := by simpa using h c (by simp)
    simp [wordValue?, ne_of_test (p := fun c => c.isAlphanum || c = '+') (x := '"') hc rfl]
  | @quoted w hne h =>
    have : '"' :: (w ++ ['"']) ++ rest = '"' :: (w ++ '"' :: rest) := by simp
    rw [this, scanValue_quoted hne h]
    simp [wordValue?]

/-! ## Numbers -/

section Digits

variable {digits : List Char} (hne : digits ≠ []) (h : ∀ c ∈ digits, c.isDigit)

include hne h in
theorem ungroup_digits : ungroup Char.isDigit digits = some digits := by
  induction digits with
  | nil => contradiction
  | cons c digits ih =>
    have hc : c.isDigit := h c (by simp)
    cases digits with
    | nil => simp [ungroup, hc]
    | cons d digits =>
      have hd : d ≠ '_' := ne_of_test (h d (by simp)) rfl
      have := ih (by simp) fun x hx => h x (by simp [hx])
      simp [ungroup, hc, hd, this]

include hne h in
theorem decimal?_digits : decimal? digits = some digits ∨ decimal? digits = none := by
  rw [decimal?, ungroup_digits hne h]
  split
  · exact .inr rfl
  · exact .inl rfl

include h in
theorem takeWhile_digits {p : Char → Bool} (hp : ∀ c, c.isDigit → p c) : digits.takeWhile p = digits :=
  List.takeWhile_eq_self_iff.mpr fun c hc => hp c (h c hc)

include h in
theorem dropSign_digits : dropSign digits = (false, digits) := by
  cases digits with
  | nil => rfl
  | cons c digits =>
    have hplus : c ≠ '+' := ne_of_test (h c (by simp)) rfl
    have hminus : c ≠ '-' := ne_of_test (h c (by simp)) rfl
    unfold dropSign
    split <;> simp_all

/-- A row of digits with or without a plus sign. -/
def Unsigned (cs digits : List Char) : Prop := cs = digits ∨ cs = '+' :: digits

include h in
theorem Unsigned.dropSign {cs : List Char} (hcs : Unsigned cs digits) : dropSign cs = (false, digits) := by
  rcases hcs with rfl | rfl
  · exact dropSign_digits h
  · rfl

include hne h in
/-- Digits alone are no float: they have neither a fraction nor an exponent. -/
theorem float?_unsigned {cs : List Char} (hcs : Unsigned cs digits) : float? cs = none := by
  have hmantissa : digits.takeWhile (fun c => c ≠ 'e' && c ≠ 'E') = digits :=
    takeWhile_digits h fun c hc => by simpa using ⟨ne_of_test hc rfl, ne_of_test hc rfl⟩
  have hwhole : digits.takeWhile (· ≠ '.') = digits :=
    takeWhile_digits h fun c hc => by simpa using ne_of_test (x := '.') hc rfl
  have hword : ¬ (digits = ['i', 'n', 'f'] ∨ digits = ['n', 'a', 'n']) := by
    rintro (rfl | rfl)
    · exact absurd (h 'i' (by simp)) (by decide)
    · exact absurd (h 'n' (by simp)) (by decide)
  simp only [float?, hcs.dropSign h, if_neg hword, hmantissa, hwhole, List.drop_length]
  rcases decimal?_digits hne h with hd | hd <;> simp [hd]

include hne h in
theorem signed?_unsigned {cs : List Char} (hcs : Unsigned cs digits) {v : Value} (hv : signed? cs = some v) :
    decimal? digits = some digits ∧ v = .integer (numberOf 10 digits) := by
  rw [signed?, hcs.dropSign h] at hv
  rcases decimal?_digits hne h with hd | hd
  · refine ⟨hd, ?_⟩
    simp only [hd, Option.bind_eq_bind, Option.bind_some] at hv
    split at hv
    · contradiction
    · split at hv
      · exact (Option.some.inj hv).symm
      · contradiction
  · simp [hd] at hv

include hne h in
/-- A number has no zero in front of other digits, and stands for what its digits spell. -/
theorem wordValue?_unsigned {cs : List Char} (hcs : Unsigned cs digits) {v : Value} (hv : wordValue? cs = some v) :
    decimal? digits = some digits ∧ v = .integer (numberOf 10 digits) := by
  have hall : ∀ c ∈ cs, c.isDigit || c = '+' := by
    intro c hc
    rcases hcs with rfl | rfl
    · simp [h c hc]
    · rcases List.mem_cons.mp hc with rfl | hc
      · rfl
      · simp [h c hc]
  have hclean : ∀ x, (x.isDigit || x = '+') = false → x ∉ cs := by
    intro x hx hmem
    rw [hall x hmem] at hx
    contradiction
  have htoken : token? cs = signed? cs := by
    have htrue : cs ≠ "true".toList := fun heq => absurd (hall 't' (by simp [heq])) (by decide)
    have hfalse : cs ≠ "false".toList := fun heq => absurd (hall 'f' (by simp [heq])) (by decide)
    have hinteger : integer? cs = signed? cs := by
      unfold integer?
      split
      · exact absurd (hall 'x' (by simp)) (by decide)
      · exact absurd (hall 'o' (by simp)) (by decide)
      · exact absurd (hall 'b' (by simp)) (by decide)
      · rfl
    rw [token?, if_neg htrue, if_neg hfalse, datetime?_eq_none (hclean '-' rfl) (hclean ':' rfl),
      float?_unsigned hne h hcs, hinteger]
    rfl
  have hword : wordValue? cs = token? cs := by
    unfold wordValue?
    split
    · exact absurd (hall '"' (by simp)) (by decide)
    · rfl
  rw [hword, htoken] at hv
  exact signed?_unsigned hne h hcs hv

end Digits

/-! ## Words that are no numbers -/

theorem wordValue?_flag (on : Bool) : wordValue? (toString on).toList = some (.boolean on) := by
  cases on <;> rfl

theorem wordValue?_quoted (w : List Char) : wordValue? ('"' :: (w ++ ['"'])) = some (.string (String.ofList w)) := by
  simp [wordValue?]

theorem based?_scalar {base : Nat} {p : Char → Bool} {cs : List Char} {v : Value} (h : based? base p cs = some v) :
    v.Scalar := by
  rintro origin entries rfl
  obtain ⟨digits, -, h⟩ := Option.bind_eq_some_iff.mp h
  simp only at h
  split at h <;> simp at h

theorem signed?_scalar {cs : List Char} {v : Value} (h : signed? cs = some v) : v.Scalar := by
  rintro origin entries rfl
  obtain ⟨digits, -, h⟩ := Option.bind_eq_some_iff.mp h
  simp only at h
  split at h <;> split at h <;> simp at h

theorem integer?_scalar {cs : List Char} {v : Value} (h : integer? cs = some v) : v.Scalar := by
  unfold integer? at h
  split at h
  · exact based?_scalar h
  · exact based?_scalar h
  · exact based?_scalar h
  · exact signed?_scalar h

theorem float?_scalar {cs : List Char} {v : Value} (h : float? cs = some v) : v.Scalar := by
  rintro origin entries rfl
  unfold float? at h
  simp only at h
  split at h
  · simp at h
  · -- whatever the fraction and the exponent are, the value is a float
    have hend : ∀ (p q : Prop) [Decidable p] [Decidable q] (spelling : String),
        (if p then none else if q then none else some (Value.float spelling)) ≠ some (.table origin entries) := by
      intro p q _ _ spelling
      split
      · simp
      · split <;> simp
    obtain ⟨whole, -, h⟩ := Option.bind_eq_some_iff.mp h
    split at h <;> obtain ⟨fraction, -, h⟩ := Option.bind_eq_some_iff.mp h <;> split at h
    · exact hend _ _ _ h
    · obtain ⟨n, -, h⟩ := Option.bind_eq_some_iff.mp h
      exact hend _ _ _ h
    · exact hend _ _ _ h
    · obtain ⟨n, -, h⟩ := Option.bind_eq_some_iff.mp h
      exact hend _ _ _ h

theorem datetime?_scalar {cs : List Char} {v : Value} (h : datetime? cs = some v) : v.Scalar := by
  rintro origin entries rfl
  unfold datetime? at h
  simp only at h
  split at h
  · simp at h
  · split at h <;> simp at h
  · split at h <;> simp at h

/-- A word stands for no table. -/
theorem wordValue?_scalar {cs : List Char} {v : Value} (h : wordValue? cs = some v) : v.Scalar := by
  unfold wordValue? at h
  split at h
  · rintro origin entries rfl
    simp at h
  · unfold token? at h
    split at h
    · rintro origin entries rfl
      simp at h
    · split at h
      · rintro origin entries rfl
        simp at h
      · rcases Option.or_eq_some_iff.mp h with h | ⟨-, h⟩
        · rcases Option.or_eq_some_iff.mp h with h | ⟨-, h⟩
          · exact datetime?_scalar h
          · exact float?_scalar h
        · exact integer?_scalar h

end DoorBridge.Toml
