import DoorBridge.Settings

/-!
# Settings.Text — settings as lines of text

Each line is blank, a comment, a section header or `key = value`.  Keys before the first header belong to the
section `[bridge]`; settings without a line keep their default, and a later line wins over an earlier one.
-/

namespace DoorBridge

/-- The characters that Unicode calls white space. -/
def isBlank (c : Char) : Bool :=
  let n := c.toNat
  (0x9 ≤ n && n ≤ 0xd) || n == 0x20 || n == 0x85 || n == 0xa0 || n == 0x1680 || (0x2000 ≤ n && n ≤ 0x200a) ||
    n == 0x2028 || n == 0x2029 || n == 0x202f || n == 0x205f || n == 0x3000

/-- A row of characters without the blanks at its ends. -/
def trimBlanks (cs : List Char) : List Char := ((cs.dropWhile isBlank).reverse.dropWhile isBlank).reverse

/-- A row cut at every occurrence of a character. -/
def splitAtChar (sep : Char) : List Char → List (List Char)
  | [] => [[]]
  | c :: cs =>
    if c = sep then [] :: splitAtChar sep cs
    else match splitAtChar sep cs with
      | piece :: rest => (c :: piece) :: rest
      | [] => [[c]]

inductive Section where
  | bridge | motionTriggers
  deriving DecidableEq, Repr

namespace Settings

/-! ## Values -/

/-- A value without its pair of quotes, if it has one. -/
def unquote (value : List Char) : List Char :=
  match value with
  | '"' :: rest => if rest.getLast? = some '"' then rest.dropLast else value
  | _ => value

/-- A decimal number below a bound, with an optional plus sign. -/
def readNumber? (bound : Nat) (value : List Char) : Option Nat :=
  let digits := match value with
    | '+' :: d :: rest => d :: rest
    | _ => value
  if digits ≠ [] ∧ digits.all Char.isDigit then
    let n := digits.foldl (fun n c => 10 * n + (c.toNat - '0'.toNat)) 0
    if n < bound then some n else none
  else none

def readFlag? (value : List Char) : Option Bool :=
  if value = "true".toList then some true else if value = "false".toList then some false else none

/-- The spellings of a protocol generation. -/
def readSecurity? (value : List Char) : Option Security :=
  let word := String.ofList (unquote value)
  if word ∈ ["1", "sec1", "secplus1"] then some .plus1
  else if word ∈ ["2", "sec2", "secplus2"] then some .plus2
  else none

def readLedIdle? (value : List Char) : Option LedIdle :=
  let word := String.ofList (unquote value)
  if word = "off" then some .off else if word = "on" then some .on
  else if word = "disabled" then some .disabled else none

/-! ## Assignments -/

/-- A good value or the error for a bad one. -/
def checked {α : Type} (value : Option α) : Except ParseError α :=
  match value with
  | some a => .ok a
  | none => .error .invalidValue

/-- The settings after a line of the section `[bridge]`. -/
def assignBridge (s : Settings) (key : String) (value : List Char) : Except ParseError Settings :=
  match key with
  | "security_type" => (checked (readSecurity? value)).map ({ s with security := · })
  | "ttc_seconds" => (checked (readNumber? 0x100 value)).map ({ s with ttcSeconds := .ofNat · })
  | "sec1_door_debounce" => (checked (readFlag? value)).map ({ s with debounce := · })
  | "force_recover_delay_ms" =>
    (checked (readNumber? 0x100000000 value)).map ({ s with recoveryWindow := .ofNat · })
  | "led_idle" => (checked (readLedIdle? value)).map ({ s with ledIdle := · })
  | _ => .error .unknownKey

/-- The settings after a line of the section `[motion_triggers]`. -/
def assignTrigger (s : Settings) (key : String) (value : List Char) : Except ParseError Settings :=
  match MotionTrigger.all.find? (·.key = key) with
  | some t => (checked (readFlag? value)).map fun on => { s with motionTriggers := s.motionTriggers.set t on }
  | none => .error .unknownKey

def assign (s : Settings) : Section → String → List Char → Except ParseError Settings
  | .bridge => s.assignBridge
  | .motionTriggers => s.assignTrigger

/-! ## Lines -/

/-- The section that a header names, its line already trimmed.  A comment may follow the bracket. -/
def readHeader (line : List Char) : Except ParseError Section :=
  let inside := trimBlanks ((line.drop 1).takeWhile (· ≠ '#'))
  if inside.getLast? = some ']' then
    let word := String.ofList (trimBlanks inside.dropLast)
    if word = "bridge" then .ok .bridge
    else if word = "motion_triggers" then .ok .motionTriggers
    else .error .invalidSection
  else .error .invalidSection

/-- A value without the comment after it.  A number sign behind an odd number of quotes opens no comment. -/
def dropComment (value : List Char) : List Char :=
  let before := value.takeWhile (· ≠ '#')
  if before.length < value.length ∧ before.count '"' % 2 = 0 then trimBlanks before else value

/-- The key and the value of a line, if both are there. -/
def readAssignment? (line : List Char) : Option (String × List Char) :=
  let left := line.takeWhile (· ≠ '=')
  let key := trimBlanks left
  let value := dropComment (trimBlanks (line.drop (left.length + 1)))
  if left.length < line.length ∧ key ≠ [] ∧ value ≠ [] then some (String.ofList key, value) else none

/-- Settings and section in force after one line. -/
def readLine (state : Settings × Section) (line : List Char) : Except ParseError (Settings × Section) :=
  let line := trimBlanks line
  match line with
  | [] => .ok state
  | '#' :: _ => .ok state
  | '[' :: _ => (readHeader line).map fun sec => (state.1, sec)
  | _ =>
    match readAssignment? line with
    | none => .error .invalidValue
    | some (key, value) => (state.1.assign state.2 key value).map fun s => (s, state.2)

/-- Reads settings text; the first line at fault decides the error. -/
def parse (text : String) : Except ParseError Settings :=
  ((splitAtChar '\n' text.toList).foldlM readLine (({} : Settings), Section.bridge)).map (·.1)

/-- Reads settings text given as bytes. -/
def ofText (bytes : List UInt8) : Except SettingsError Settings :=
  match String.fromUTF8? ⟨bytes.toArray⟩ with
  | none => .error .invalidUtf8
  | some text =>
    match parse text with
    | .ok s => .ok s
    | .error cause => .error (.parse cause)

end Settings

end DoorBridge
