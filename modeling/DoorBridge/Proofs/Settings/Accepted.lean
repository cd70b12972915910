import DoorBridge.Proofs.Settings.Lines

/-!
# Proofs.Settings.Accepted — the lines that settings text accepts

Every line that is read without an error has one of the three forms (`exists_written`), and if it gives a key its value, the
key is one of its section and the value is one that some key takes (`accepted_of_assign`).
-/

namespace DoorBridge.Settings

/-! ## Values that are accepted -/

/-- The words that are values somewhere. -/
def valueWords : List String := ["1", "2", "sec1", "sec2", "secplus1", "secplus2", "off", "on", "disabled"]

/-- The values that some key accepts. -/
inductive Accepted : List Char → Prop where
  | number {digits} : digits ≠ [] → (∀ c ∈ digits, c.isDigit) → Accepted digits
  | signed {digits} : digits ≠ [] → (∀ c ∈ digits, c.isDigit) → Accepted ('+' :: digits)
  | flag (on : Bool) : Accepted (toString on).toList
  | word {w} : w ∈ valueWords → Accepted w.toList
  | quoted {w} : w ∈ valueWords → Accepted ('"' :: (w.toList ++ ['"']))

theorem alphanum_of_mem_valueWords {w : String} (hw : w ∈ valueWords) :
    w.toList ≠ [] ∧ ∀ c ∈ w.toList, c.isAlphanum := by
  have hall : ∀ w ∈ valueWords, w.toList ≠ [] ∧ w.toList.all (·.isAlphanum) := by decide
  exact ⟨(hall w hw).1, List.all_eq_true.mp (hall w hw).2⟩

theorem Accepted.oneWord {value : List Char} (h : Accepted value) : OneWord value := by
  cases h with
  | number hne h => exact .bare hne fun c hc => .inl (by simp [Char.isAlphanum, h c hc])
  | signed _ h =>
    refine .bare (List.cons_ne_nil _ _) fun c hc => ?_
    rcases List.mem_cons.mp hc with rfl | hc
    · exact .inr rfl
    · exact .inl (by simp [Char.isAlphanum, h c hc])
  | flag on =>
    refine .bare (by cases on <;> decide) fun c hc => .inl (List.all_eq_true.mp ?_ c hc)
    cases on <;> decide
  | word hw =>
    obtain ⟨hne, hw⟩ := alphanum_of_mem_valueWords hw
    exact .bare hne fun c hc => .inl (hw c hc)
  | quoted hw =>
    obtain ⟨hne, hw⟩ := alphanum_of_mem_valueWords hw
    exact .quoted hne hw

@[simp] theorem checked_eq_ok {α : Type} {value : Option α} {a : α} : checked value = .ok a ↔ value = some a := by
  cases value <;> simp [checked]

/-- What is read as a number is a row of digits, with or without a plus sign. -/
theorem exists_digits_of_readNumber? {bound : Nat} {value : List Char} {n : Nat} (h : readNumber? bound value = some n) :
    ∃ digits ≠ [], (∀ c ∈ digits, c.isDigit) ∧ (value = digits ∨ value = '+' :: digits) := by
  unfold readNumber? at h
  split at h
  · simp only at h
    split at h
    · next hdigits => exact ⟨_, hdigits.1, by simpa using hdigits.2, .inr rfl⟩
    · contradiction
  · simp only at h
    split at h
    · next hdigits => exact ⟨_, hdigits.1, by simpa using hdigits.2, .inl rfl⟩
    · contradiction

theorem accepted_of_readNumber? {bound : Nat} {value : List Char} {n : Nat} (h : readNumber? bound value = some n) :
    Accepted value := by
  obtain ⟨digits, hne, hdigits, rfl | rfl⟩ := exists_digits_of_readNumber? h
  · exact .number hne hdigits
  · exact .signed hne hdigits

theorem accepted_of_readFlag? {value : List Char} {on : Bool} (h : readFlag? value = some on) : Accepted value := by
  rw [readFlag?] at h
  split at h
  · next heq => exact heq ▸ .flag true
  · split at h
    · next heq => exact heq ▸ .flag false
    · contradiction

/-- A value that is a word without its quotes is that word, in quotes or not. -/
theorem eq_or_of_unquote {value : List Char} {w : String} (h : String.ofList (unquote value) = w) :
    value = w.toList ∨ value = '"' :: (w.toList ++ ['"']) := by
  obtain rfl := h
  rw [String.toList_ofList]
  unfold unquote
  split
  · next rest =>
    split
    · next hlast =>
      obtain ⟨inside, rfl⟩ := List.getLast?_eq_some_iff.mp hlast
      simp
    · exact .inl rfl
  · exact .inl rfl

theorem accepted_of_unquote {value : List Char} (h : String.ofList (unquote value) ∈ valueWords) : Accepted value := by
  rcases eq_or_of_unquote (Eq.refl (String.ofList (unquote value))) with heq | heq
  · rw [heq]
    exact .word h
  · rw [heq]
    exact .quoted h

theorem mem_valueWords_of_readSecurity? {value : List Char} {g : Security} (h : readSecurity? value = some g) :
    String.ofList (unquote value) ∈ valueWords := by
  unfold readSecurity? at h
  simp only [List.mem_cons, List.not_mem_nil, or_false] at h
  split at h
  · next hmem => rcases hmem with hmem | hmem | hmem <;> simp [hmem, valueWords]
  · split at h
    · next hmem => rcases hmem with hmem | hmem | hmem <;> simp [hmem, valueWords]
    · contradiction

theorem accepted_of_readLedIdle? {value : List Char} {idle : LedIdle} (h : readLedIdle? value = some idle) :
    Accepted value := by
  refine accepted_of_unquote ?_
  unfold readLedIdle? at h
  simp only at h
  split at h
  · next heq => simp [heq, valueWords]
  · split at h
    · next heq => simp [heq, valueWords]
    · split at h
      · next heq => simp [heq, valueWords]
      · contradiction

/-! ## No other line is read -/

/-- The keys of a section. -/
def sectionKeys : Section → List String
  | .bridge => ["security_type", "ttc_seconds", "sec1_door_debounce", "force_recover_delay_ms", "led_idle"]
  | .motionTriggers => MotionTrigger.all.map (·.key)

theorem bareWord_of_mem_sectionKeys {sec : Section} {key : List Char} (h : String.ofList key ∈ sectionKeys sec) :
    BareWord key := by
  have hall : ∀ k ∈ sectionKeys sec, BareWord k.toList := by cases sec <;> decide
  simpa using hall _ h

theorem map_eq_ok {α β ε : Type} {f : α → β} {r : Except ε α} {b : β} :
    r.map f = .ok b ↔ ∃ a, r = .ok a ∧ f a = b := by
  cases r <;> simp [Except.map]

/-- Only the keys of a section are assigned to, and only values that some key accepts. -/
theorem accepted_of_assign {s s' : Settings} {sec : Section} {key : String} {value : List Char}
    (h : s.assign sec key value = .ok s') : key ∈ sectionKeys sec ∧ Accepted value := by
  cases sec with
  | bridge =>
    unfold assign assignBridge at h
    simp only at h
    split at h
    · obtain ⟨g, hg, -⟩ := map_eq_ok.mp h
      exact ⟨by simp [sectionKeys], accepted_of_unquote (mem_valueWords_of_readSecurity? (checked_eq_ok.mp hg))⟩
    · obtain ⟨n, hn, -⟩ := map_eq_ok.mp h
      exact ⟨by simp [sectionKeys], accepted_of_readNumber? (checked_eq_ok.mp hn)⟩
    · obtain ⟨on, hon, -⟩ := map_eq_ok.mp h
      exact ⟨by simp [sectionKeys], accepted_of_readFlag? (checked_eq_ok.mp hon)⟩
    · obtain ⟨n, hn, -⟩ := map_eq_ok.mp h
      exact ⟨by simp [sectionKeys], accepted_of_readNumber? (checked_eq_ok.mp hn)⟩
    · obtain ⟨idle, hidle, -⟩ := map_eq_ok.mp h
      exact ⟨by simp [sectionKeys], accepted_of_readLedIdle? (checked_eq_ok.mp hidle)⟩
    · contradiction
  | motionTriggers =>
    unfold assign assignTrigger at h
    simp only at h
    split at h
    · next t ht =>
      obtain ⟨on, hon, -⟩ := map_eq_ok.mp h
      obtain rfl : t.key = key := by simpa using List.find?_some ht
      exact ⟨List.mem_map_of_mem (List.mem_of_find?_eq_some ht), accepted_of_readFlag? (checked_eq_ok.mp hon)⟩
    · contradiction

theorem bareWord_of_sectionNamed? {name : List Char} {sec : Section} (h : sectionNamed? name = .ok sec) :
    BareWord name := by
  rw [sectionNamed?] at h
  have hword : name = (String.ofList name).toList := String.toList_ofList.symm
  rw [hword]
  split at h
  · next heq => exact heq ▸ by decide
  · split at h
    · next heq => exact heq ▸ by decide
    · contradiction

/-- A row up to the first occurrence of a character is all of it, or the character comes next. -/
theorem takeWhile_ne_cases (x : Char) (cs : List Char) :
    cs.takeWhile (· ≠ x) = cs ∨ ∃ rest, cs = cs.takeWhile (· ≠ x) ++ x :: rest := by
  induction cs with
  | nil => exact .inl rfl
  | cons c cs ih =>
    by_cases hc : c = x
    · exact .inr ⟨cs, by simp [hc]⟩
    · rw [List.takeWhile_cons_of_pos (by simpa using hc)]
      rcases ih with heq | ⟨rest, heq⟩
      · exact .inl (by rw [heq])
      · refine .inr ⟨rest, ?_⟩
        rw [List.cons_append, ← heq]

theorem exists_hash (cs : List Char) :
    ∃ tail, cs = cs.takeWhile (· ≠ '#') ++ tail ∧ (tail = [] ∨ ∃ more, tail = '#' :: more) := by
  rcases takeWhile_ne_cases '#' cs with heq | ⟨more, heq⟩
  · exact ⟨[], by rw [heq, List.append_nil], .inl rfl⟩
  · exact ⟨'#' :: more, heq, .inr ⟨more, rfl⟩⟩

theorem exists_of_readHeader {cs : List Char} {sec : Section} (h : readHeader ('[' :: cs) = .ok sec) :
    ∃ b name b' tail, Blanks b ∧ BareWord name ∧ Blanks b' ∧ Trailer tail ∧
      cs = b ++ name ++ b' ++ ']' :: tail := by
  rw [readHeader] at h
  simp only [List.drop_succ_cons, List.drop_zero] at h
  split at h
  · next hlast =>
    obtain ⟨inside, hinside⟩ := List.getLast?_eq_some_iff.mp hlast
    rw [hinside, List.dropLast_concat] at h
    have hname : BareWord (trimBlanks inside) := bareWord_of_sectionNamed? h
    obtain ⟨tail, hcs, htail⟩ := exists_hash cs
    obtain ⟨b, b', hb, hb', htake⟩ := exists_trimBlanks (cs.takeWhile (· ≠ '#'))
    obtain ⟨c, c', hc, hc', htrim⟩ := exists_trimBlanks inside
    have ht : Trailer (b' ++ tail) := by
      rcases htail with rfl | ⟨more, rfl⟩
      · exact .blanks (by simpa using hb')
      · exact .comment more hb'
    refine ⟨b ++ c, trimBlanks inside, c', b' ++ tail, hb.append hc, hname, hc', ht, ?_⟩
    rw [hinside] at htake
    rw [hcs, htake]
    nth_rewrite 1 [htrim]
    simp
  · contradiction

theorem exists_dropComment (value : List Char) :
    ∃ b tail, Blanks b ∧ Trailer tail ∧ value = b ++ dropComment value ++ tail := by
  unfold dropComment
  simp only
  split
  · obtain ⟨tail, hvalue, htail⟩ := exists_hash value
    obtain ⟨b, b', hb, hb', htrim⟩ := exists_trimBlanks (value.takeWhile (· ≠ '#'))
    refine ⟨b, b' ++ tail, hb, ?_, ?_⟩
    · rcases htail with rfl | ⟨more, rfl⟩
      · exact .blanks (by simpa using hb')
      · exact .comment more hb'
    · rw [← List.append_assoc, ← htrim]
      exact hvalue
  · exact ⟨[], [], by simp [Blanks], .blanks (by simp [Blanks]), by simp⟩

theorem exists_of_readAssignment {cs : List Char} {key : String} {value : List Char}
    (h : readAssignment? cs = some (key, value)) :
    ∃ b b' b'' tail, Blanks b ∧ Blanks b' ∧ Blanks b'' ∧ Trailer tail ∧
      cs = b ++ key.toList ++ b' ++ '=' :: (b'' ++ value ++ tail) := by
  unfold readAssignment? at h
  simp only at h
  split at h
  · next hgood =>
    simp only [Option.some.injEq, Prod.mk.injEq] at h
    obtain ⟨rfl, rfl⟩ := h
    obtain ⟨right, hcs⟩ : ∃ right, cs = cs.takeWhile (· ≠ '=') ++ '=' :: right := by
      rcases takeWhile_ne_cases '=' cs with heq | hcut
      · rw [heq] at hgood
        exact absurd hgood.1 (Nat.lt_irrefl _)
      · exact hcut
    have hright : cs.drop ((cs.takeWhile (· ≠ '=')).length + 1) = right := by
      nth_rewrite 2 [hcs]
      rw [List.drop_length_add_append, List.drop_succ_cons, List.drop_zero]
    obtain ⟨b, b', hb, hb', hkey⟩ := exists_trimBlanks (cs.takeWhile (· ≠ '='))
    obtain ⟨c, c', hc, hc', hvalue⟩ := exists_trimBlanks right
    obtain ⟨d, tail, hd, ht, hcomment⟩ := exists_dropComment (trimBlanks right)
    refine ⟨b, b', c ++ d, tail ++ c', hb, hb', hc.append hd, ht.append_blanks hc', ?_⟩
    rw [hright, String.toList_ofList]
    have : c ++ d ++ dropComment (trimBlanks right) ++ (tail ++ c') = right :=
      calc c ++ d ++ dropComment (trimBlanks right) ++ (tail ++ c')
        _ = c ++ (d ++ dropComment (trimBlanks right) ++ tail) ++ c' := by simp
        _ = c ++ trimBlanks right ++ c' := by rw [← hcomment]
        _ = right := hvalue.symm
    rw [this, ← hkey]
    exact hcs
  · contradiction

/-- Every line that is read has one of the three forms. -/
theorem exists_written {state state' : Settings × Section} {line : List Char} (h : readLine state line = .ok state') :
    ∃ p, Written line p := by
  obtain ⟨b, b', hb, hb', hline⟩ := exists_trimBlanks line
  unfold readLine at h
  simp only at h
  split at h
  · next htrim =>
    rw [htrim, List.append_nil] at hline
    exact ⟨.nothing, .nothing (.blanks (hline ▸ hb.append hb'))⟩
  · next more htrim =>
    rw [htrim] at hline
    refine ⟨.nothing, .nothing ?_⟩
    rw [hline]
    exact (Trailer.comment more hb).append_blanks hb'
  · next cs htrim =>
    obtain ⟨sec, hsec, -⟩ := map_eq_ok.mp h
    rw [htrim] at hsec hline
    obtain ⟨c, name, c', tail, hc, hname, hc', ht, rfl⟩ := exists_of_readHeader hsec
    refine ⟨.header name, ?_⟩
    have : line = b ++ '[' :: (c ++ name ++ c' ++ ']' :: (tail ++ b')) := by rw [hline]; simp
    rw [this]
    exact .header hb hc hname hc' (ht.append_blanks hb')
  · split at h
    · contradiction
    · next key value hpair =>
      obtain ⟨s, hs, -⟩ := map_eq_ok.mp h
      obtain ⟨hkey, hvalue⟩ := accepted_of_assign hs
      obtain ⟨c, c', c'', tail, hc, hc', hc'', ht, hcore⟩ := exists_of_readAssignment hpair
      refine ⟨.pair key.toList value, ?_⟩
      have : line = b ++ c ++ key.toList ++ c' ++ '=' :: (c'' ++ value ++ (tail ++ b')) := by
        rw [hline, hcore]
        simp
      rw [this]
      exact .pair (hb.append hc) (bareWord_of_mem_sectionKeys (by simpa using hkey)) hc' hc'' hvalue.oneWord
        (ht.append_blanks hb')

end DoorBridge.Settings
