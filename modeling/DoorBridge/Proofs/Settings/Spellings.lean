import DoorBridge.Proofs.Settings.Agreement
import DoorBridge.Proofs.Settings.Triggers

/-!
# Proofs.Settings.Spellings — what a key and a value assign

`Spells` lists, for every key of a section, the spellings of each value that it takes.  A line assigns exactly that
(`assign_eq_ok_iff`); a key of another section is unknown, and any other value is invalid.  Assignments one after another
leave every setting with the last value it was given: `foldl_apply`.
-/

namespace DoorBridge

/-- The spellings of a generation. -/
def Security.words : Security → List String
  | plus1 => ["1", "sec1", "secplus1"]
  | plus2 => ["2", "sec2", "secplus2"]

def LedIdle.word : LedIdle → String
  | off => "off" | on => "on" | disabled => "disabled"

/-- What a line of settings text can assign. -/
inductive Assignment where
  | security (generation : Security)
  | ttcSeconds (seconds : UInt8)
  | debounce (on : Bool)
  | recoveryWindow (milliseconds : UInt32)
  | ledIdle (idle : LedIdle)
  | trigger (t : MotionTrigger) (on : Bool)
  deriving DecidableEq

/-- A word, bare or in double quotes. -/
inductive Quotable (w : String) : List Char → Prop where
  | bare : Quotable w w.toList
  | quoted : Quotable w ('"' :: (w.toList ++ ['"']))

/-- A number in decimal digits, with or without a plus sign. -/
def Decimal (n : Nat) (value : List Char) : Prop :=
  ∃ digits ≠ [], (∀ c ∈ digits, c.isDigit) ∧ Toml.Unsigned value digits ∧ Toml.numberOf 10 digits = n

/-- The values that the keys of a section take, and what they assign. -/
inductive Spells : Section → String → List Char → Assignment → Prop where
  | security {g w value} : w ∈ g.words → Quotable w value → Spells .bridge "security_type" value (.security g)
  | ttcSeconds {n value} : Decimal n value → n < 0x100 → Spells .bridge "ttc_seconds" value (.ttcSeconds (.ofNat n))
  | debounce (on : Bool) : Spells .bridge "sec1_door_debounce" (toString on).toList (.debounce on)
  | recoveryWindow {n value} : Decimal n value → n < 0x100000000 →
      Spells .bridge "force_recover_delay_ms" value (.recoveryWindow (.ofNat n))
  | ledIdle {idle value} : Quotable idle.word value → Spells .bridge "led_idle" value (.ledIdle idle)
  | trigger (t : MotionTrigger) (on : Bool) :
      Spells .motionTriggers t.key (toString on).toList (.trigger t on)

namespace Settings

/-! ## Values as they are read -/

theorem unquote_of_head {cs : List Char} (h : cs.head? ≠ some '"') : unquote cs = cs := by
  unfold unquote
  split
  · exact absurd rfl h
  · rfl

theorem quotable_iff {w : String} (hw : w.toList.head? ≠ some '"') {value : List Char} :
    Quotable w value ↔ String.ofList (unquote value) = w := by
  constructor
  · intro h
    cases h with
    | bare => rw [unquote_of_head hw, String.ofList_toList]
    | quoted => rw [unquote_quoted, String.ofList_toList]
  · intro h
    rcases eq_or_of_unquote h with rfl | rfl
    · exact .bare
    · exact .quoted

theorem readSecurity?_eq_some {value : List Char} {g : Security} :
    readSecurity? value = some g ↔ ∃ w ∈ g.words, Quotable w value := by
  have hhead : ∀ w ∈ g.words, w.toList.head? ≠ some '"' := by
    cases g <;> decide
  have hmem : (∃ w ∈ g.words, Quotable w value) ↔ String.ofList (unquote value) ∈ g.words := by
    constructor
    · rintro ⟨w, hw, hvalue⟩
      rwa [(quotable_iff (hhead w hw)).mp hvalue]
    · intro h
      exact ⟨_, h, (quotable_iff (hhead _ h)).mpr rfl⟩
  have hapart : ∀ w ∈ Security.words .plus1, w ∉ Security.words .plus2 := by decide
  rw [hmem, readSecurity?]
  generalize String.ofList (unquote value) = word
  change (if word ∈ Security.words .plus1 then some Security.plus1
    else if word ∈ Security.words .plus2 then some Security.plus2 else none) = some g ↔ _
  cases g with
  | plus1 => grind
  | plus2 => grind

theorem readLedIdle?_eq_some {value : List Char} {idle : LedIdle} :
    readLedIdle? value = some idle ↔ Quotable idle.word value := by
  have hhead : idle.word.toList.head? ≠ some '"' := by
    cases idle <;> decide
  rw [quotable_iff hhead, readLedIdle?]
  generalize String.ofList (unquote value) = word
  cases idle with
  | off => grind [LedIdle.word]
  | on => grind [LedIdle.word]
  | disabled => grind [LedIdle.word]

theorem readFlag?_eq_some {value : List Char} {on : Bool} : readFlag? value = some on ↔ value = (toString on).toList := by
  constructor
  · intro h
    unfold readFlag? at h
    split at h
    · next heq =>
      obtain rfl := Option.some.inj h
      exact heq
    · split at h
      · next heq =>
        obtain rfl := Option.some.inj h
        exact heq
      · contradiction
  · rintro rfl
    exact readFlag?_flag on

theorem readNumber?_eq_some {value : List Char} {bound n : Nat} :
    readNumber? bound value = some n ↔ Decimal n value ∧ n < bound := by
  constructor
  · intro h
    obtain ⟨digits, hne, hdigits, hvalue⟩ := exists_digits_of_readNumber? h
    rw [readNumber?_unsigned hne hdigits hvalue] at h
    split at h
    · next hlt =>
      obtain rfl := Option.some.inj h
      exact ⟨⟨digits, hne, hdigits, hvalue, rfl⟩, hlt⟩
    · contradiction
  · rintro ⟨⟨digits, hne, hdigits, hvalue, rfl⟩, hlt⟩
    rw [readNumber?_unsigned hne hdigits hvalue, if_pos hlt]

/-! ## Assignments as they are made -/

def apply (s : Settings) : Assignment → Settings
  | .security g => { s with security := g }
  | .ttcSeconds n => { s with ttcSeconds := n }
  | .debounce on => { s with debounce := on }
  | .recoveryWindow ms => { s with recoveryWindow := ms }
  | .ledIdle idle => { s with ledIdle := idle }
  | .trigger t on => { s with motionTriggers := s.motionTriggers.set t on }

section Assign

variable {s s' : Settings} {sec : Section} {key : String} {value : List Char}

theorem find?_trigger_key (t : MotionTrigger) : MotionTrigger.all.find? (·.key = t.key) = some t := by
  cases t <;> decide

theorem assign_of_spells {a : Assignment} (h : Spells sec key value a) : s.assign sec key value = .ok (s.apply a) := by
  cases h with
  | security hw hvalue =>
    have hread := readSecurity?_eq_some.mpr ⟨_, hw, hvalue⟩
    simp only [assign, assignBridge, hread, checked, Except.map, apply]
  | ttcSeconds hvalue hlt =>
    have hread := readNumber?_eq_some.mpr ⟨hvalue, hlt⟩
    simp only [assign, assignBridge, hread, checked, Except.map, apply]
  | debounce on => simp only [assign, assignBridge, readFlag?_flag, checked, Except.map, apply]
  | recoveryWindow hvalue hlt =>
    have hread := readNumber?_eq_some.mpr ⟨hvalue, hlt⟩
    simp only [assign, assignBridge, hread, checked, Except.map, apply]
  | ledIdle hvalue =>
    have hread := readLedIdle?_eq_some.mpr hvalue
    simp only [assign, assignBridge, hread, checked, Except.map, apply]
  | trigger t on => simp only [assign, assignTrigger, find?_trigger_key, readFlag?_flag, checked, Except.map, apply]

theorem exists_spells_of_assign (h : s.assign sec key value = .ok s') : ∃ a, Spells sec key value a ∧ s' = s.apply a := by
  cases sec with
  | bridge =>
    unfold assign assignBridge at h
    simp only at h
    split at h
    · obtain ⟨g, hg, rfl⟩ := map_eq_ok.mp h
      obtain ⟨w, hw, hvalue⟩ := readSecurity?_eq_some.mp (checked_eq_ok.mp hg)
      exact ⟨_, .security hw hvalue, rfl⟩
    · obtain ⟨n, hn, rfl⟩ := map_eq_ok.mp h
      obtain ⟨hvalue, hlt⟩ := readNumber?_eq_some.mp (checked_eq_ok.mp hn)
      exact ⟨_, .ttcSeconds hvalue hlt, rfl⟩
    · obtain ⟨on, hon, rfl⟩ := map_eq_ok.mp h
      obtain rfl := readFlag?_eq_some.mp (checked_eq_ok.mp hon)
      exact ⟨_, .debounce on, rfl⟩
    · obtain ⟨n, hn, rfl⟩ := map_eq_ok.mp h
      obtain ⟨hvalue, hlt⟩ := readNumber?_eq_some.mp (checked_eq_ok.mp hn)
      exact ⟨_, .recoveryWindow hvalue hlt, rfl⟩
    · obtain ⟨idle, hidle, rfl⟩ := map_eq_ok.mp h
      exact ⟨_, .ledIdle (readLedIdle?_eq_some.mp (checked_eq_ok.mp hidle)), rfl⟩
    · contradiction
  | motionTriggers =>
    unfold assign assignTrigger at h
    simp only at h
    split at h
    · next t ht =>
      obtain ⟨on, hon, rfl⟩ := map_eq_ok.mp h
      obtain rfl := readFlag?_eq_some.mp (checked_eq_ok.mp hon)
      obtain rfl : t.key = key := by simpa using List.find?_some ht
      exact ⟨_, .trigger t on, rfl⟩
    · contradiction

/-- **A line assigns what its key and value spell**, and fails if they spell nothing. -/
theorem assign_eq_ok_iff : s.assign sec key value = .ok s' ↔ ∃ a, Spells sec key value a ∧ s' = s.apply a := by
  refine ⟨exists_spells_of_assign, ?_⟩
  rintro ⟨a, ha, rfl⟩
  exact assign_of_spells ha

theorem assign_of_not_mem (h : key ∉ sectionKeys sec) : s.assign sec key value = .error .unknownKey := by
  cases sec with
  | bridge =>
    simp only [sectionKeys, List.mem_cons, List.not_mem_nil, or_false, not_or] at h
    simp only [assign, assignBridge]
    split
    case h_6 => rfl
    all_goals simp_all
  | motionTriggers =>
    have hnone : MotionTrigger.all.find? (·.key = key) = none := by
      rw [List.find?_eq_none]
      intro t ht heq
      exact h (List.mem_map.mpr ⟨t, ht, of_decide_eq_true heq⟩)
    simp only [assign, assignTrigger, hnone]

theorem checked_map_error {α β : Type} {value : Option α} {f : α → β} {cause : ParseError}
    (h : (checked value).map f = .error cause) : cause = .invalidValue := by
  cases value with
  | none => exact (Except.error.inj h).symm
  | some a => contradiction

theorem assign_of_mem (h : key ∈ sectionKeys sec) (hvalue : ∀ a, ¬Spells sec key value a) :
    s.assign sec key value = .error .invalidValue := by
  cases hassign : s.assign sec key value with
  | ok s' =>
    obtain ⟨a, ha, -⟩ := assign_eq_ok_iff.mp hassign
    exact absurd ha (hvalue a)
  | error cause =>
    refine congrArg _ ?_
    cases sec with
    | bridge =>
      simp only [sectionKeys, List.mem_cons, List.not_mem_nil, or_false] at h
      rcases h with rfl | rfl | rfl | rfl | rfl
      all_goals exact checked_map_error hassign
    | motionTriggers =>
      obtain ⟨t, -, rfl⟩ := List.mem_map.mp h
      simp only [assign, assignTrigger, find?_trigger_key] at hassign
      exact checked_map_error hassign

end Assign

end Settings

theorem Spells.oneWord {sec : Section} {key : String} {value : List Char} {a : Assignment}
    (h : Spells sec key value a) : OneWord value :=
  (Settings.accepted_of_assign (s := {}) (Settings.assign_of_spells h)).2.oneWord

/-! ## Assignments one after another -/

namespace Settings

/-- The last value given, or the default if there is none. -/
def lastOf {α : Type} (given? : Assignment → Option α) (default : α) (as : List Assignment) : α :=
  (as.filterMap given?).getLast?.getD default

end Settings

namespace Assignment

def security? : Assignment → Option Security
  | security g => some g
  | _ => none

def ttcSeconds? : Assignment → Option UInt8
  | ttcSeconds n => some n
  | _ => none

def debounce? : Assignment → Option Bool
  | debounce on => some on
  | _ => none

def recoveryWindow? : Assignment → Option UInt32
  | recoveryWindow ms => some ms
  | _ => none

def ledIdle? : Assignment → Option LedIdle
  | ledIdle idle => some idle
  | _ => none

def trigger? (t : MotionTrigger) : Assignment → Option Bool
  | trigger t' on => if t' = t then some on else none
  | _ => none

end Assignment

namespace Settings

/-- Every setting with the last value it was given, and its default if it was given none. -/
def ofAssignments (as : List Assignment) : Settings where
  security := lastOf Assignment.security? .plus2 as
  ttcSeconds := lastOf Assignment.ttcSeconds? 0 as
  motionTriggers := triggersOf fun t => lastOf (Assignment.trigger? t) false as
  debounce := lastOf Assignment.debounce? true as
  recoveryWindow := lastOf Assignment.recoveryWindow? 3000 as
  ledIdle := lastOf Assignment.ledIdle? .off as

theorem ofAssignments_nil : ofAssignments [] = {} := by decide

theorem lastOf_concat {α : Type} (given? : Assignment → Option α) (default : α) (as : List Assignment) (a : Assignment) :
    lastOf given? default (as ++ [a]) = (given? a).getD (lastOf given? default as) := by
  rw [lastOf, List.filterMap_append, List.filterMap_cons, List.filterMap_nil]
  cases given? a with
  | none => simp [lastOf]
  | some x => simp

theorem ofAssignments_concat (as : List Assignment) (a : Assignment) :
    ofAssignments (as ++ [a]) = (ofAssignments as).apply a := by
  cases a with
  | trigger t on =>
    have htriggers : (fun t' => lastOf (Assignment.trigger? t') false (as ++ [.trigger t on])) =
        Function.update (fun t' => lastOf (Assignment.trigger? t') false as) t on := by
      funext t'
      rw [lastOf_concat, Assignment.trigger?]
      by_cases h : t = t'
      · rw [if_pos h, h, Function.update_self]
        rfl
      · rw [if_neg h, Function.update_of_ne (Ne.symm h)]
        rfl
    rw [apply, ofAssignments, htriggers, triggersOf_update]
    simp only [lastOf_concat]
    rfl
  | _ =>
    rw [ofAssignments]
    simp only [lastOf_concat]
    rfl

/-- **The last value wins.** -/
theorem foldl_apply (as : List Assignment) : as.foldl apply {} = ofAssignments as := by
  induction as using List.reverseRecOn with
  | nil => exact ofAssignments_nil.symm
  | append_singleton as a ih => rw [List.foldl_concat, ih, ofAssignments_concat]

end Settings

end DoorBridge
