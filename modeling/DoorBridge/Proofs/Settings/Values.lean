import DoorBridge.Proofs.Settings.Accepted
import DoorBridge.Proofs.Toml.Words
import DoorBridge.Settings.Check

/-!
# Proofs.Settings.Values — one value, read from a line and from a document

`Settings.give` sets what an entry of a document names.  A plain value (`PlainValue`) sets the same when it stands on a line
of settings text (`assign_of_stands`), and no other spelling is taken there (`plain_of_assign`).
-/

namespace DoorBridge

open Toml (Value wordValue?)

/-- The spellings of a value that settings text and documents share: a decimal number, `true` or `false`, or a word in
double quotes.  A protocol generation has no sign. -/
inductive PlainValue (key : List Char) : List Char → Prop where
  | number {digits} : digits ≠ [] → (∀ c ∈ digits, c.isDigit) → PlainValue key digits
  | signed {digits} : digits ≠ [] → (∀ c ∈ digits, c.isDigit) → key ≠ "security_type".toList →
      PlainValue key ('+' :: digits)
  | flag (on : Bool) : PlainValue key (toString on).toList
  | word {w} : w ≠ [] → (∀ c ∈ w, c.isAlphanum) → PlainValue key ('"' :: (w ++ ['"']))

theorem PlainValue.no_sign {key value : List Char} (h : PlainValue key value)
    (hkey : String.ofList key = "security_type") : value.head? ≠ some '+' := by
  cases h with
  | number hne h =>
    intro hhead
    exact absurd (h '+' (List.mem_of_head? hhead)) (by decide)
  | signed _ _ hne =>
    rw [← hkey, String.toList_ofList] at hne
    exact absurd rfl hne
  | flag on => cases on <;> decide
  | word _ _ => simp

namespace Settings

/-! ## What an entry of a document sets -/

def securityOf? : Value → Option Security
  | .integer n => if n = 1 then some .plus1 else if n = 2 then some .plus2 else none
  | .string s =>
    if s = "sec1" ∨ s = "secplus1" then some .plus1 else if s = "sec2" ∨ s = "secplus2" then some .plus2 else none
  | _ => none

def naturalOf? : Value → Option Nat
  | .integer n => n.toNat?
  | _ => none

def flagOf? : Value → Option Bool
  | .boolean on => some on
  | _ => none

def ledIdleOf? : Value → Option LedIdle
  | .string s => if s = "off" then some .off else if s = "on" then some .on
    else if s = "disabled" then some .disabled else none
  | _ => none

/-- Settings after an entry of a document. -/
def give (s : Settings) (sec : Section) (key : String) (v : Value) : Option Settings :=
  match sec with
  | .bridge =>
    match key with
    | "security_type" => (securityOf? v).map ({ s with security := · })
    | "ttc_seconds" => (naturalOf? v).map ({ s with ttcSeconds := .ofNat · })
    | "sec1_door_debounce" => (flagOf? v).map ({ s with debounce := · })
    | "force_recover_delay_ms" => (naturalOf? v).map ({ s with recoveryWindow := .ofNat · })
    | "led_idle" => (ledIdleOf? v).map ({ s with ledIdle := · })
    | _ => none
  | .motionTriggers =>
    match MotionTrigger.all.find? (·.key = key) with
    | some t => (flagOf? v).map fun on => { s with motionTriggers := s.motionTriggers.set t on }
    | none => none

/-- What is found wrong with an entry of a section. -/
def checkEntry : Section → String → Value → List String
  | .bridge => checkBridge
  | .motionTriggers => checkTrigger

/-! ## Readings of plain values -/

theorem foldl_digits {digits : List Char} (h : ∀ c ∈ digits, c.isDigit) :
    digits.foldl (fun n c => 10 * n + (c.toNat - '0'.toNat)) 0 = Toml.numberOf 10 digits := by
  rw [Toml.numberOf]
  refine List.foldl_ext _ _ _ fun n c hc => ?_
  simp [Toml.digitValue, h c hc]

theorem readNumber?_unsigned {cs digits : List Char} (hne : digits ≠ []) (h : ∀ c ∈ digits, c.isDigit)
    (hcs : Toml.Unsigned cs digits) (bound : Nat) : readNumber? bound cs =
      if Toml.numberOf 10 digits < bound then some (Toml.numberOf 10 digits) else none := by
  have hdigits : digits ≠ [] ∧ digits.all Char.isDigit := ⟨hne, by simpa using h⟩
  obtain ⟨c, rest, hcons⟩ := List.exists_cons_of_ne_nil hne
  rcases hcs with rfl | rfl
  · have hplus : c ≠ '+' := ne_of_test (h c (by simp [hcons])) rfl
    unfold readNumber?
    split
    · exact absurd (List.cons.inj hcons).1.symm hplus
    · simp only [if_pos hdigits, foldl_digits h]
  · rw [← foldl_digits h]
    subst hcons
    exact if_pos hdigits

theorem unquote_quoted (w : List Char) : unquote ('"' :: (w ++ ['"'])) = w := by
  simp [unquote]

theorem readFlag?_flag (on : Bool) : readFlag? (toString on).toList = some on := by
  cases on <;> rfl

theorem isDigit_iff {c : Char} : c.isDigit ↔ 48 ≤ c.toNat ∧ c.toNat ≤ 57 := by
  simp only [Char.isDigit, Bool.and_eq_true, decide_eq_true_eq, UInt32.le_iff_toNat_le, ge_iff_le]
  rfl

theorem digitValue_of_isDigit {c : Char} (h : c.isDigit) : Toml.digitValue c = c.toNat - 48 := by
  rw [Toml.digitValue, if_pos h]
  rfl

theorem one_le_digitValue {c : Char} (h : c.isDigit) (hne : c ≠ '0') : 1 ≤ Toml.digitValue c := by
  have hne' : c.toNat ≠ 48 := fun heq => hne (Char.toNat_inj.mp heq)
  have := isDigit_iff.mp h
  rw [digitValue_of_isDigit h]
  omega

theorem le_foldl_digitValue (cs : List Char) (n : Nat) : n ≤ cs.foldl (fun n c => 10 * n + Toml.digitValue c) n := by
  induction cs generalizing n with
  | nil => exact Nat.le_refl n
  | cons c cs ih => exact Nat.le_trans (by omega) (ih (10 * n + Toml.digitValue c))

/-- Digits that spell less than ten, with no zero in front, are one digit. -/
theorem eq_singleton_of_lt {digits : List Char} (hne : digits ≠ []) (h : ∀ c ∈ digits, c.isDigit)
    (hd : Toml.decimal? digits = some digits) (hlt : Toml.numberOf 10 digits < 10) : ∃ c, digits = [c] := by
  obtain ⟨c, rest, rfl⟩ := List.exists_cons_of_ne_nil hne
  cases rest with
  | nil => exact ⟨c, rfl⟩
  | cons d rest =>
    have hc : c ≠ '0' := by
      rintro rfl
      rw [Toml.decimal?, Toml.ungroup_digits hne h] at hd
      simp at hd
    have hpos := one_le_digitValue (h c (by simp)) hc
    have hgrow : 10 * (10 * 0 + Toml.digitValue c) + Toml.digitValue d ≤ Toml.numberOf 10 (c :: d :: rest) :=
      le_foldl_digitValue rest _
    omega

/-- The digit of a number below ten. -/
theorem eq_singleton_of_eq {digits : List Char} (hne : digits ≠ []) (h : ∀ c ∈ digits, c.isDigit)
    (hd : Toml.decimal? digits = some digits) {c : Char} (hc : c.isDigit)
    (heq : Toml.numberOf 10 digits = Toml.digitValue c) : digits = [c] := by
  have hc' := isDigit_iff.mp hc
  rw [digitValue_of_isDigit hc] at heq
  obtain ⟨d, rfl⟩ := eq_singleton_of_lt hne h hd (by omega)
  have hd' := isDigit_iff.mp (h d (by simp))
  have hval : Toml.numberOf 10 [d] = Toml.digitValue d := Nat.zero_add _
  rw [hval, digitValue_of_isDigit (h d (by simp))] at heq
  have : d.toNat = c.toNat := by omega
  rw [Char.toNat_inj.mp this]

/-! ## Plain values on a line -/

section Plain

variable {key value : List Char} {v : Value}

/-- What a plain value stands for in a document. -/
inductive Stands (value : List Char) : Value → Prop where
  | number {digits} : digits ≠ [] → (∀ c ∈ digits, c.isDigit) → Toml.Unsigned value digits →
      Toml.decimal? digits = some digits → Stands value (.integer (Toml.numberOf 10 digits))
  | flag (on : Bool) : value = (toString on).toList → Stands value (.boolean on)
  | word {w} : value = '"' :: (w ++ ['"']) → Stands value (.string (String.ofList w))

theorem PlainValue.stands (h : PlainValue key value) (hv : wordValue? value = some v) : Stands value v := by
  cases h with
  | number hne h =>
    obtain ⟨hd, rfl⟩ := Toml.wordValue?_unsigned hne h (.inl rfl) hv
    exact .number hne h (.inl rfl) hd
  | signed hne h _ =>
    obtain ⟨hd, rfl⟩ := Toml.wordValue?_unsigned hne h (.inr rfl) hv
    exact .number hne h (.inr rfl) hd
  | flag on =>
    rw [Toml.wordValue?_flag] at hv
    obtain rfl := Option.some.inj hv
    exact .flag on rfl
  | word _ _ =>
    rw [Toml.wordValue?_quoted] at hv
    obtain rfl := Option.some.inj hv
    exact .word rfl

theorem readFlag?_of_stands (h : Stands value v) {on : Bool} (hv : flagOf? v = some on) : readFlag? value = some on := by
  cases h with
  | number => contradiction
  | flag on' heq =>
    obtain rfl := Option.some.inj hv
    rw [heq, readFlag?_flag]
  | word => contradiction

theorem readNumber?_of_stands (h : Stands value v) {n bound : Nat} (hv : naturalOf? v = some n) (hn : n < bound) :
    readNumber? bound value = some n := by
  cases h with
  | @number digits hne h hcs _ =>
    obtain rfl : Toml.numberOf 10 digits = n := Option.some.inj hv
    rw [readNumber?_unsigned hne h hcs, if_pos hn]
  | flag => contradiction
  | word => contradiction

theorem readLedIdle?_of_stands (h : Stands value v) {idle : LedIdle} (hv : ledIdleOf? v = some idle) :
    readLedIdle? value = some idle := by
  cases h with
  | number => contradiction
  | flag => contradiction
  | word heq =>
    rw [readLedIdle?, heq, unquote_quoted]
    exact hv

theorem readSecurity?_of_stands (h : Stands value v) (hsign : value.head? ≠ some '+') {g : Security}
    (hv : securityOf? v = some g) : readSecurity? value = some g := by
  cases h with
  | @number digits hne h hcs hd =>
    rcases hcs with rfl | rfl
    · simp only [securityOf?] at hv
      split at hv
      · next hone =>
        obtain rfl := Option.some.inj hv
        rw [eq_singleton_of_eq (c := '1') hne h hd rfl (by exact_mod_cast hone)]
        decide
      · split at hv
        · next htwo =>
          obtain rfl := Option.some.inj hv
          rw [eq_singleton_of_eq (c := '2') hne h hd rfl (by exact_mod_cast htwo)]
          decide
        · contradiction
    · exact absurd rfl hsign
  | flag => contradiction
  | word heq =>
    simp only [securityOf?] at hv
    rw [readSecurity?, heq, unquote_quoted]
    split at hv
    · next hword =>
      obtain rfl := Option.some.inj hv
      rcases hword with hword | hword <;> simp [hword]
    · split at hv
      · next hword =>
        obtain rfl := Option.some.inj hv
        rcases hword with hword | hword <;> simp [hword]
      · contradiction

end Plain

/-! ## Entries that pass the check -/

section Check

variable {v : Value}

theorem of_complaint {ok : Bool} {complaint : String} (h : (if ok then [] else [complaint]) = []) : ok := by
  cases ok with
  | true => rfl
  | false => contradiction

theorem securityOf?_of_check (h : checkBridge "security_type" v = []) : ∃ g, securityOf? v = some g := by
  have hok := of_complaint h
  cases v with
  | integer n =>
    simp only [Bool.or_eq_true, decide_eq_true_eq] at hok
    rcases hok with rfl | rfl
    · exact ⟨.plus1, rfl⟩
    · exact ⟨.plus2, rfl⟩
  | string s =>
    simp only [List.contains_iff_mem, List.mem_cons, List.not_mem_nil, or_false] at hok
    rcases hok with rfl | rfl | rfl | rfl
    · exact ⟨.plus1, by decide⟩
    · exact ⟨.plus2, by decide⟩
    · exact ⟨.plus1, by decide⟩
    · exact ⟨.plus2, by decide⟩
  | _ => contradiction

theorem ledIdleOf?_of_check (h : checkBridge "led_idle" v = []) : ∃ idle, ledIdleOf? v = some idle := by
  have hok := of_complaint h
  cases v with
  | string s =>
    simp only [List.contains_iff_mem, List.mem_cons, List.not_mem_nil, or_false] at hok
    rcases hok with rfl | rfl | rfl
    · exact ⟨.off, by decide⟩
    · exact ⟨.on, by decide⟩
    · exact ⟨.disabled, by decide⟩
  | _ => contradiction

theorem flagOf?_of_check (h : checkBridge "sec1_door_debounce" v = []) : ∃ on, flagOf? v = some on := by
  have hok := of_complaint h
  cases v with
  | boolean on => exact ⟨on, rfl⟩
  | _ => contradiction

/-- A number in a range, as the check of both number keys asks for it. -/
theorem naturalOf?_of_range {n : Int} {bound : Nat} (h : 0 ≤ n) (hn : n < bound) :
    ∃ m, naturalOf? (.integer n) = some m ∧ m < bound := by
  obtain ⟨m, rfl⟩ := Int.eq_ofNat_of_zero_le h
  exact ⟨m, rfl, by omega⟩

theorem naturalOf?_of_check_ttc (h : checkBridge "ttc_seconds" v = []) : ∃ m, naturalOf? v = some m ∧ m < 0x100 := by
  have hok := of_complaint h
  cases v with
  | integer n =>
    simp only [Bool.and_eq_true, decide_eq_true_eq] at hok
    exact naturalOf?_of_range hok.1 hok.2
  | _ => contradiction

theorem naturalOf?_of_check_window (h : checkBridge "force_recover_delay_ms" v = []) :
    ∃ m, naturalOf? v = some m ∧ m < 0x100000000 := by
  have hok := of_complaint h
  cases v with
  | integer n =>
    simp only [Bool.and_eq_true, decide_eq_true_eq] at hok
    exact naturalOf?_of_range hok.1 hok.2
  | _ => contradiction

theorem trigger_of_check {key : String} (h : checkTrigger key v = []) :
    ∃ t on, MotionTrigger.all.find? (·.key = key) = some t ∧ flagOf? v = some on := by
  unfold checkTrigger at h
  split at h
  · contradiction
  · next hknown =>
    have hfind : (MotionTrigger.all.find? (·.key = key)).isSome := by
      rw [List.find?_isSome]
      simpa using hknown
    obtain ⟨t, ht⟩ := Option.isSome_iff_exists.mp hfind
    split at h
    · next on => exact ⟨t, on, ht, rfl⟩
    · contradiction

theorem key_of_check {sec : Section} {key : String} (h : checkEntry sec key v = []) : key ∈ sectionKeys sec := by
  cases sec with
  | bridge =>
    simp only [checkEntry] at h
    unfold checkBridge at h
    split at h
    any_goals simp [sectionKeys]
    contradiction
  | motionTriggers =>
    obtain ⟨t, on, ht, -⟩ := trigger_of_check h
    obtain rfl : t.key = key := by simpa using List.find?_some ht
    exact List.mem_map_of_mem (List.mem_of_find?_eq_some ht)

/-- An entry that passes the check sets a setting, and a line with that value sets the same. -/
theorem assign_of_stands {sec : Section} {key : String} {value : List Char} (h : Stands value v)
    (hsign : key = "security_type" → value.head? ≠ some '+') (hc : checkEntry sec key v = []) (s : Settings) :
    ∃ s', s.give sec key v = some s' ∧ s.assign sec key value = .ok s' := by
  cases sec with
  | bridge =>
    have hkey := key_of_check hc
    simp only [sectionKeys, List.mem_cons, List.not_mem_nil, or_false] at hkey
    rcases hkey with rfl | rfl | rfl | rfl | rfl
    · obtain ⟨g, hg⟩ := securityOf?_of_check hc
      have := readSecurity?_of_stands h (hsign rfl) hg
      exact ⟨_, by simp only [give, hg]; rfl, by simp only [assign, assignBridge, this]; rfl⟩
    · obtain ⟨n, hn, hlt⟩ := naturalOf?_of_check_ttc hc
      have := readNumber?_of_stands h hn hlt
      exact ⟨_, by simp only [give, hn]; rfl, by simp only [assign, assignBridge, this]; rfl⟩
    · obtain ⟨on, hon⟩ := flagOf?_of_check hc
      have := readFlag?_of_stands h hon
      exact ⟨_, by simp only [give, hon]; rfl, by simp only [assign, assignBridge, this]; rfl⟩
    · obtain ⟨n, hn, hlt⟩ := naturalOf?_of_check_window hc
      have := readNumber?_of_stands h hn hlt
      exact ⟨_, by simp only [give, hn]; rfl, by simp only [assign, assignBridge, this]; rfl⟩
    · obtain ⟨idle, hidle⟩ := ledIdleOf?_of_check hc
      have := readLedIdle?_of_stands h hidle
      exact ⟨_, by simp only [give, hidle]; rfl, by simp only [assign, assignBridge, this]; rfl⟩
  | motionTriggers =>
    obtain ⟨t, on, ht, hon⟩ := trigger_of_check hc
    have := readFlag?_of_stands h hon
    exact ⟨_, by simp only [give, ht, hon]; rfl, by simp only [assign, assignTrigger, ht, this]; rfl⟩

end Check

/-- What settings text takes as a value and a document too, is spelled plainly. -/
theorem plain_of_assign {s s' : Settings} {sec : Section} {key value : List Char} {v : Value}
    (h : s.assign sec (String.ofList key) value = .ok s') (hv : wordValue? value = some v) : PlainValue key value := by
  cases (accepted_of_assign h).2 with
  | number hne hdigits => exact .number hne hdigits
  | @signed digits hne hdigits =>
    refine .signed hne hdigits ?_
    -- a protocol generation with a sign is refused, since its text is compared as it stands
    rintro rfl
    have hread : readSecurity? ('+' :: digits) = none := by
      have hword : ∀ w ∈ valueWords, w.toList.head? ≠ some '+' := by decide
      by_contra hsome
      obtain ⟨g, hg⟩ := Option.ne_none_iff_exists'.mp hsome
      have hmem := mem_valueWords_of_readSecurity? hg
      exact hword _ hmem (by simp [unquote])
    cases sec with
    | bridge => simp [assign, assignBridge, hread, checked, Except.map] at h
    | motionTriggers => exact absurd (accepted_of_assign h).1 (by decide)
  | flag on => exact .flag on
  | @word w hw =>
    -- without quotes only the words of digits are values of a document
    have hbare : ∀ w ∈ valueWords, wordValue? w.toList = none ∨ w.toList ≠ [] ∧ w.toList.all (·.isDigit) := by
      decide
    rcases hbare w hw with hnone | hdigits
    · rw [hnone] at hv
      contradiction
    · exact .number hdigits.1 (List.all_eq_true.mp hdigits.2)
  | @quoted w hw =>
    obtain ⟨hne, hw⟩ := alphanum_of_mem_valueWords hw
    exact .word hne hw

end Settings

end DoorBridge
