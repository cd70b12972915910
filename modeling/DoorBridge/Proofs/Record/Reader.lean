import DoorBridge.Proofs.Reading

/-!
# Proofs.Record.Reader — the record reader follows its grammar

* `reading` reads a row of bytes two at a time: a key byte takes the byte after it as its value if that comes in time, and
  every other byte stands alone.
* `feedAll_eq_reading`: so does the reader, which takes one byte at a time and holds a key that waits for its value.
* `answers_expire`: calls to `expire` between the bytes, in the order of time, change no answer.
-/

namespace DoorBridge

/-! ## Bytes of the vocabulary -/

theorem Button.ofByte?_byte (b : Button) : ofByte? b.byte = some b := by cases b <;> rfl

theorem Button.byte_of_ofByte? {byte : UInt8} {b : Button} (h : ofByte? byte = some b) : b.byte = byte := by
  simpa using List.find?_some h

theorem RecordKey.ofByte?_byte (key : RecordKey) : ofByte? key.byte = some key := by cases key <;> rfl

theorem RecordKey.byte_of_ofByte? {byte : UInt8} {key : RecordKey} (h : ofByte? byte = some key) :
    key.byte = byte := by
  simpa using List.find?_some h

theorem RecordStatus.ofBytes_byte (key : RecordKey) (value : UInt8) :
    RecordStatus.ofBytes key.byte value = RecordStatus.decode key value := by
  rw [RecordStatus.ofBytes, RecordKey.ofByte?_byte]

namespace RecordReader

/-- What the reader says to a byte. -/
abbrev Answer := Except RecordError (Option Record)

/-! ## The grammar -/

/-- Whether a byte is the key of a status record. -/
def IsKey (byte : UInt8) : Prop := 0x38 ≤ byte ∧ byte ≤ 0x3a

instance (byte : UInt8) : Decidable (IsKey byte) := inferInstanceAs (Decidable (_ ∧ _))

/-- What a byte says that is no value: a record of its own, the key of a status record, or noise. -/
def opening (byte : UInt8) : Answer :=
  if 0x30 ≤ byte ∧ byte ≤ 0x37 then
    match Button.ofByte? byte with
    | some b => .ok (some (.button b))
    | none => .ok (some (.other byte))
  else if IsKey byte then .ok none
  else .error .noise

/-- What the value of a key says. -/
def closing (key value : UInt8) : Answer := (RecordStatus.ofBytes key value).map fun s => some (.status s)

/-- What each byte of a row says.  A key takes the byte after it, if that comes at most 100 ms later. -/
def reading : List (UInt8 × Nat) → List Answer
  | [] => []
  | [(byte, _)] => [opening byte]
  | (byte, time) :: (value, later) :: rest =>
    if IsKey byte ∧ later ≤ time + 100 then opening byte :: closing byte value :: reading rest
    else opening byte :: reading ((value, later) :: rest)

theorem isKey_byte (key : RecordKey) : IsKey key.byte := by cases key <;> decide

theorem exists_key {byte : UInt8} (h : IsKey byte) : ∃ key : RecordKey, key.byte = byte := by
  obtain ⟨hlow, hhigh⟩ := h
  have hbyte : byte = 0x38 ∨ byte = 0x39 ∨ byte = 0x3a := by grind
  rcases hbyte with rfl | rfl | rfl
  · exact ⟨.door, rfl⟩
  · exact ⟨.obstruction, rfl⟩
  · exact ⟨.lightLock, rfl⟩

theorem opening_key (key : RecordKey) : opening key.byte = .ok none := by cases key <;> rfl

theorem opening_button (b : Button) : opening b.byte = .ok (some (.button b)) := by cases b <;> rfl

/-- A byte that is no key stands alone. -/
theorem reading_cons_of_not_key {byte : UInt8} (h : ¬ IsKey byte) (time : Nat) (rest : List (UInt8 × Nat)) :
    reading ((byte, time) :: rest) = opening byte :: reading rest := by
  cases rest with
  | nil => rfl
  | cons x rest => rw [reading, if_neg fun hkey => h hkey.1]

section Keys

variable (key : RecordKey) {time later : Nat} (value : UInt8) (rest : List (UInt8 × Nat))

theorem reading_key_in_time (h : later ≤ time + 100) : reading ((key.byte, time) :: (value, later) :: rest) =
    .ok none :: closing key.byte value :: reading rest := by
  rw [reading, if_pos ⟨isKey_byte key, h⟩, opening_key]

theorem reading_key_too_late (h : time + 100 < later) : reading ((key.byte, time) :: (value, later) :: rest) =
    .ok none :: reading ((value, later) :: rest) := by
  rw [reading, if_neg (by omega), opening_key]

end Keys

/-- A row of button edges says these buttons, one a byte. -/
theorem reading_buttons {bytes : List (UInt8 × Nat)} {buttons : List Button}
    (h : bytes.map Prod.fst = buttons.map Button.byte) :
    reading bytes = buttons.map fun b => .ok (some (.button b)) := by
  induction bytes generalizing buttons with
  | nil =>
    obtain rfl : buttons = [] := by simpa using h.symm
    rfl
  | cons x bytes ih =>
    obtain ⟨byte, time⟩ := x
    cases buttons with
    | nil => simp at h
    | cons b buttons =>
      obtain ⟨rfl, hrest⟩ : byte = b.byte ∧ bytes.map Prod.fst = buttons.map Button.byte := by simpa using h
      have hkey : ¬ IsKey b.byte := by cases b <;> decide
      rw [reading_cons_of_not_key hkey, opening_button, ih hrest]
      rfl

/-! ## The reader -/

/-- What a byte does that comes while no key waits. -/
theorem start_key (key : RecordKey) (now : Nat) : start key.byte now = (.ok none, ⟨some key, now⟩) := by
  cases key <;> rfl

theorem start_of_not_key {byte : UInt8} (h : ¬ IsKey byte) (now : Nat) : start byte now = (opening byte, ⟨none, now⟩) := by
  have hnone : RecordKey.ofByte? byte = none := by
    cases hkey : RecordKey.ofByte? byte with
    | none => rfl
    | some key => exact absurd (RecordKey.byte_of_ofByte? hkey ▸ isKey_byte key) h
  cases hb : Button.ofByte? byte with
  | some b =>
    obtain rfl := Button.byte_of_ofByte? hb
    rw [start, hb, opening_button]
  | none =>
    -- what is left of the range of single bytes are the two without a name
    have hbutton : ∀ b : Button, b.byte ≠ byte := by
      intro b hbyte
      rw [← hbyte, Button.ofByte?_byte] at hb
      contradiction
    have h0 := hbutton .doorPress
    have h1 := hbutton .doorRelease
    have h2 := hbutton .lightPress
    have h3 := hbutton .lightRelease
    have h4 := hbutton .lockPress
    have h5 := hbutton .lockRelease
    have hrange : 0x30 ≤ byte ∧ byte ≤ 0x37 ↔ byte = 0x36 ∨ byte = 0x37 := by
      simp only [Button.byte] at h0 h1 h2 h3 h4 h5
      grind
    rw [start, hb, hnone, opening, hb, if_neg h]
    by_cases hother : byte = 0x36 ∨ byte = 0x37
    · simp only [hrange.mpr hother, hother, and_self, if_true]
    · simp only [hrange, hother, if_false]

variable {r : RecordReader}

theorem feed_of_no_key (h : r.key? = none) (byte : UInt8) (now : Nat) : r.feed byte now = start byte now := by
  have hkey : (r.expire now).key? = none := by
    rw [expire]
    split
    · rfl
    · exact h
  rw [feed, hkey]

theorem isOverdue_of_key {key : RecordKey} (h : r.key? = some key) (now : Nat) :
    r.isOverdue now = decide (r.lastByte + 100 < now) := by
  rw [isOverdue, deadline?, h]
  rfl

theorem feed_value {key : RecordKey} (h : r.key? = some key) {now : Nat} (htime : now ≤ r.lastByte + 100) (value : UInt8) :
    r.feed value now = (closing key.byte value, ⟨none, now⟩) := by
  have hin : r.isOverdue now = false := by
    rw [isOverdue_of_key h]
    exact decide_eq_false (by omega)
  rw [feed, expire_of_not_overdue hin, h, closing, RecordStatus.ofBytes_byte]

theorem feed_overdue {key : RecordKey} (h : r.key? = some key) {now : Nat} (htime : r.lastByte + 100 < now)
    (byte : UInt8) : r.feed byte now = start byte now := by
  have hover : r.isOverdue now = true := by
    rw [isOverdue_of_key h]
    exact decide_eq_true htime
  rw [feed, expire, if_pos hover]

/-- A reader without a key reads by the grammar, and one with a key reads as if the key came first. -/
theorem feedAll_eq_reading (bytes : List (UInt8 × Nat)) :
    (∀ r : RecordReader, r.key? = none → (r.feedAll bytes).1 = reading bytes) ∧
    ∀ (r : RecordReader) (key : RecordKey), r.key? = some key →
      .ok none :: (r.feedAll bytes).1 = reading ((key.byte, r.lastByte) :: bytes) := by
  induction bytes with
  | nil =>
    refine ⟨fun r _ => rfl, fun r key _ => ?_⟩
    rw [reading, opening_key]
    rfl
  | cons x bytes ih =>
    obtain ⟨byte, now⟩ := x
    obtain ⟨ihnone, ihkey⟩ := ih
    have hstart : (start byte now).1 :: ((start byte now).2.feedAll bytes).1 = reading ((byte, now) :: bytes) := by
      by_cases hkey : IsKey byte
      · obtain ⟨key, rfl⟩ := exists_key hkey
        rw [start_key]
        exact ihkey ⟨some key, now⟩ key rfl
      · rw [start_of_not_key hkey, reading_cons_of_not_key hkey]
        exact congrArg _ (ihnone ⟨none, now⟩ rfl)
    constructor
    · intro r hnone
      rw [feedAll, feed_of_no_key hnone]
      exact hstart
    · intro r key hkey
      rw [feedAll]
      by_cases htime : now ≤ r.lastByte + 100
      · rw [feed_value hkey htime, reading_key_in_time key byte bytes htime]
        exact congrArg (_ :: _ :: ·) (ihnone ⟨none, now⟩ rfl)
      · rw [feed_overdue hkey (by omega), reading_key_too_late key byte bytes (by omega)]
        exact congrArg _ hstart

/-! ## Rows of calls -/

/-- What can be asked of a reader, at a time in milliseconds. -/
inductive Call where
  | feed (byte : UInt8) (now : Nat)
  | expire (now : Nat)
  deriving DecidableEq, Repr

def Call.time : Call → Nat
  | feed _ now | expire now => now

/-- The answers to the bytes of a row of calls. -/
def answers (r : RecordReader) : List Call → List Answer
  | [] => []
  | .feed byte now :: calls => (r.feed byte now).1 :: (r.feed byte now).2.answers calls
  | .expire now :: calls => (r.expire now).answers calls

/-- The bytes of a row of calls, each with its time. -/
def fed (calls : List Call) : List (UInt8 × Nat) :=
  calls.filterMap fun
    | .feed byte now => some (byte, now)
    | .expire _ => none

/-- A reader that has met a timer answers like one that has not, if nothing comes before that timer. -/
theorem answers_expire (r : RecordReader) {t : Nat} {calls : List Call} (hlater : ∀ c ∈ calls, t ≤ c.time)
    (htimes : calls.Pairwise fun a b => a.time ≤ b.time) :
    (r.expire t).answers calls = (r.feedAll (fed calls)).1 := by
  induction calls generalizing r t with
  | nil => rfl
  | cons c calls ih =>
    obtain ⟨hfirst, hrest⟩ := List.pairwise_cons.mp htimes
    cases c with
    | feed byte now =>
      have ht : t ≤ now := hlater _ List.mem_cons_self
      have hanswers := ih (r.feed byte now).2 (fun c _ => Nat.zero_le c.time) hrest
      rw [expire_zero] at hanswers
      rw [answers, feed_expire ht, hanswers]
      rfl
    | expire now =>
      have ht : t ≤ now := hlater _ List.mem_cons_self
      rw [answers, expire_expire ht]
      exact ih r hfirst hrest

/-- **The record reader follows its grammar.**  Whatever bytes are fed to a new reader, and whenever it is asked to expire
in between, all in the order of time, the answers to the bytes are those of the grammar.  So they are the answers that the
same bytes get without any timer, and a row of button edges is read back as the same row of buttons. -/
theorem answers_eq_reading (calls : List Call) (htimes : calls.Pairwise fun a b => a.time ≤ b.time) :
    ({} : RecordReader).answers calls = reading (fed calls) ∧
    ({} : RecordReader).answers calls = (({} : RecordReader).feedAll (fed calls)).1 ∧
    ∀ buttons : List Button, (fed calls).map Prod.fst = buttons.map Button.byte →
      ({} : RecordReader).answers calls = buttons.map fun b => .ok (some (.button b)) := by
  have htimer : ({} : RecordReader).answers calls = (({} : RecordReader).feedAll (fed calls)).1 := by
    have hanswers := answers_expire {} (fun c _ => Nat.zero_le c.time) htimes
    rwa [expire_zero] at hanswers
  have hgrammar : ({} : RecordReader).answers calls = reading (fed calls) := by
    rw [htimer]
    exact (feedAll_eq_reading (fed calls)).1 {} rfl
  refine ⟨hgrammar, htimer, ?_⟩
  intro buttons hbuttons
  rw [hgrammar, reading_buttons hbuttons]

/-- A door status whose value comes at the last moment and looks like a key, a light status whose value comes too late, and
bytes that stand alone. -/
def latestCalls : List Call :=
  [.feed 0x38 0, .expire 100, .feed 0x38 100, .feed 0x3a 200, .expire 300, .expire 301, .feed 0x55 301, .feed 0x37 301,
    .feed 0x39 400, .feed 0x30 500, .feed 0x35 600]

theorem answers_eq_reading_latest :
    latestCalls.Pairwise (fun a b => a.time ≤ b.time) ∧
    ({} : RecordReader).answers latestCalls = reading (fed latestCalls) ∧
    reading (fed latestCalls) =
      [.ok none, .error .invalidStatus, .ok none, .error .noise, .ok (some (.other 0x37)), .ok none,
        .ok (some (.status (.obstruction 0x30))), .ok (some (.button .lockRelease))] := by
  have htimes : latestCalls.Pairwise fun a b => a.time ≤ b.time := by decide
  exact ⟨htimes, (answers_eq_reading latestCalls htimes).1, by rfl⟩

end RecordReader

end DoorBridge
