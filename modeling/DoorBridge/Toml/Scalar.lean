import DoorBridge.Toml

/-!
# Toml.Scalar — strings, numbers and dates of TOML

A scanner takes a row of characters and gives what it read with the rest of the row, or nothing.  Numbers, dates
and words are read as one token, which has to be spelled in full like one of them.
-/

namespace DoorBridge.Toml

/-- Reads something off the front of a row of characters. -/
abbrev Scanner (α : Type) := List Char → Option (α × List Char)

/-! ## Characters -/

def isSpace (c : Char) : Bool := c = ' ' || c = '\t'

/-- Characters that stand for themselves in strings and comments: all but control characters, tab excepted. -/
def isPlain (c : Char) : Bool := c = '\t' || (0x20 ≤ c.toNat && c.toNat ≠ 0x7f)

def isHexDigit (c : Char) : Bool := c.isDigit || ('a' ≤ c && c ≤ 'f') || ('A' ≤ c && c ≤ 'F')

def digitValue (c : Char) : Nat :=
  if c.isDigit then c.toNat - '0'.toNat else if c ≤ 'F' then c.toNat - 'A'.toNat + 10 else c.toNat - 'a'.toNat + 10

/-- The number that digits spell in a base. -/
def numberOf (base : Nat) (digits : List Char) : Nat := digits.foldl (fun n c => base * n + digitValue c) 0

/-- The character with a code spelled in base sixteen, if there is one. -/
def codedChar? (digits : List Char) : Option Char :=
  let n := numberOf 16 digits
  if digits.all isHexDigit && (n < 0xd800 || (0xe000 ≤ n && n ≤ 0x10ffff)) then some (.ofNat n) else none

/-- The character that a letter behind a backslash stands for. -/
def escapedChar? : Char → Option Char
  | 'b' => some '\x08'
  | 't' => some '\t'
  | 'n' => some '\n'
  | 'f' => some '\x0c'
  | 'r' => some '\r'
  | '"' => some '"'
  | '\\' => some '\\'
  | _ => none

/-! ## Strings -/

/-- A character put in front of what the rest of a string holds. -/
def prepend (c : Char) (r : Option (List Char × List Char)) : Option (List Char × List Char) :=
  r.map fun (text, rest) => (c :: text, rest)

/-- Reads the inside of a string in double quotes up to its end. -/
def basicString : List Char → Option (List Char × List Char)
  | [] => none
  | '"' :: rest => some ([], rest)
  | '\\' :: 'u' :: a :: b :: c :: d :: rest => do prepend (← codedChar? [a, b, c, d]) (basicString rest)
  | '\\' :: 'U' :: a :: b :: c :: d :: e :: f :: g :: h :: rest => do
    prepend (← codedChar? [a, b, c, d, e, f, g, h]) (basicString rest)
  | '\\' :: c :: rest => do prepend (← escapedChar? c) (basicString rest)
  | c :: rest => if isPlain c && c ≠ '\\' then prepend c (basicString rest) else none

/-- Reads the inside of a string in single quotes up to its end. -/
def literalString : List Char → Option (List Char × List Char)
  | [] => none
  | '\'' :: rest => some ([], rest)
  | c :: rest => if isPlain c then prepend c (literalString rest) else none

/-- Whether nothing but blanks stands before the end of the line. -/
def lineEnds (cs : List Char) : Bool :=
  match cs.dropWhile isSpace with
  | '\n' :: _ => true
  | '\r' :: '\n' :: _ => true
  | _ => false

/-- Reads the inside of a string in three double quotes up to its end.  Up to two more quotes may stand right
before the end.  A backslash at the end of a line swallows blanks and line ends that follow. -/
def basicLines (swallow : Bool) : List Char → Option (List Char × List Char)
  | [] => none
  | '\n' :: rest => if swallow then basicLines true rest else prepend '\n' (basicLines false rest)
  | '\r' :: '\n' :: rest => if swallow then basicLines true rest else prepend '\n' (basicLines false rest)
  | '"' :: '"' :: '"' :: '"' :: '"' :: rest => some (['"', '"'], rest)
  | '"' :: '"' :: '"' :: '"' :: rest => some (['"'], rest)
  | '"' :: '"' :: '"' :: rest => some ([], rest)
  | '\\' :: 'u' :: a :: b :: c :: d :: rest => do prepend (← codedChar? [a, b, c, d]) (basicLines false rest)
  | '\\' :: 'U' :: a :: b :: c :: d :: e :: f :: g :: h :: rest => do
    prepend (← codedChar? [a, b, c, d, e, f, g, h]) (basicLines false rest)
  | '\\' :: rest =>
    if lineEnds rest then basicLines true rest
    else match rest with
      | c :: rest => do prepend (← escapedChar? c) (basicLines false rest)
      | [] => none
  | c :: rest =>
    if swallow && isSpace c then basicLines true rest
    else if isPlain c then prepend c (basicLines false rest) else none

/-- Reads the inside of a string in three single quotes up to its end. -/
def literalLines : List Char → Option (List Char × List Char)
  | [] => none
  | '\n' :: rest => prepend '\n' (literalLines rest)
  | '\r' :: '\n' :: rest => prepend '\n' (literalLines rest)
  | '\'' :: '\'' :: '\'' :: '\'' :: '\'' :: rest => some (['\'', '\''], rest)
  | '\'' :: '\'' :: '\'' :: '\'' :: rest => some (['\''], rest)
  | '\'' :: '\'' :: '\'' :: rest => some ([], rest)
  | c :: rest => if isPlain c then prepend c (literalLines rest) else none

/-- The row behind a line end that directly follows opening quotes. -/
def dropLineEnd : List Char → List Char
  | '\n' :: rest => rest
  | '\r' :: '\n' :: rest => rest
  | cs => cs

/-- Reads a string of any of the four kinds. -/
def scanString : Scanner String := fun cs =>
  (match cs with
    | '"' :: '"' :: '"' :: rest => basicLines false (dropLineEnd rest)
    | '\'' :: '\'' :: '\'' :: rest => literalLines (dropLineEnd rest)
    | '"' :: rest => basicString rest
    | '\'' :: rest => literalString rest
    | _ => none).map fun (text, rest) => (String.ofList text, rest)

/-! ## Numbers -/

/-- Digits with single underscores between them, the underscores dropped. -/
def ungroup (isDigit : Char → Bool) : List Char → Option (List Char)
  | [] => none
  | [c] => if isDigit c then some [c] else none
  | c :: '_' :: rest => if isDigit c then (ungroup isDigit rest).map (c :: ·) else none
  | c :: rest => if isDigit c then (ungroup isDigit rest).map (c :: ·) else none

/-- A token without its sign, and whether the sign was a minus. -/
def dropSign : List Char → Bool × List Char
  | '+' :: rest => (false, rest)
  | '-' :: rest => (true, rest)
  | cs => (false, cs)

/-- A decimal number without superfluous zeros in front. -/
def decimal? (cs : List Char) : Option (List Char) :=
  match ungroup Char.isDigit cs with
  | some ('0' :: _ :: _) => none
  | digits => digits

/-- A number in a base of its own, at most 2^63 - 1. -/
def based? (base : Nat) (isDigit : Char → Bool) (cs : List Char) : Option Value := do
  let n := numberOf base (← ungroup isDigit cs)
  if n < 0x8000000000000000 then some (.integer n) else none

/-- A decimal integer that fits 64 bits with its sign. -/
def signed? (cs : List Char) : Option Value := do
  let (negative, rest) := dropSign cs
  let n := numberOf 10 (← decimal? rest)
  if negative then (if n ≤ 0x8000000000000000 then some (.integer (-n)) else none)
  else if n < 0x8000000000000000 then some (.integer n) else none

def integer? (cs : List Char) : Option Value :=
  match cs with
  | '0' :: 'x' :: rest => based? 16 isHexDigit rest
  | '0' :: 'o' :: rest => based? 8 (fun c => '0' ≤ c && c ≤ '7') rest
  | '0' :: 'b' :: rest => based? 2 (fun c => c = '0' || c = '1') rest
  | _ => signed? cs

/-- Numbers from here on are too large for a double. -/
def floatLimit : Nat := 1 <<< 1024 - 1 <<< 970

/-- Whether digits times a power of ten are too large for a double. -/
def overflows (digits : Nat) (exponent : Int) : Bool :=
  digits ≠ 0 && (match exponent with
    | .ofNat e => decide (floatLimit ≤ digits * Nat.pow 10 (min e 400))
    | .negSucc e => decide (floatLimit * Nat.pow 10 (min (e + 1) 100000) ≤ digits))

/-- A float: a decimal number with a fraction, an exponent or both, or a word for a value that is no number.  Only a
negative one may be too large. -/
def float? (cs : List Char) : Option Value :=
  let (negative, rest) := dropSign cs
  if rest = ['i', 'n', 'f'] ∨ rest = ['n', 'a', 'n'] then some (.float (String.ofList cs))
  else do
    let mantissa := rest.takeWhile fun c => c ≠ 'e' && c ≠ 'E'
    let power := rest.drop mantissa.length
    let whole := mantissa.takeWhile (· ≠ '.')
    let places := mantissa.drop whole.length
    let wholeDigits ← decimal? whole
    let fraction ← match places with
      | [] => some []
      | _ :: digits => ungroup Char.isDigit digits
    let exponent : Int ← match power with
      | [] => some 0
      | _ :: e => do
        let (down, e) := dropSign e
        let n := numberOf 10 (← ungroup Char.isDigit e)
        some (if down then -n else n)
    if places = [] ∧ power = [] then none
    else if !negative && overflows (numberOf 10 (wholeDigits ++ fraction)) (exponent - fraction.length) then none
    else some (.float (String.ofList cs))

/-! ## Dates -/

/-- Two digits as a number in a range. -/
def twoDigits? (low high : Nat) (a b : Char) : Option Nat :=
  let n := numberOf 10 [a, b]
  if a.isDigit && b.isDigit && low ≤ n && n ≤ high then some n else none

def isLeapYear (year : Nat) : Bool := (year % 4 = 0 && year % 100 ≠ 0) || year % 400 = 0

def daysIn (year month : Nat) : Nat :=
  if month = 2 then (if isLeapYear year then 29 else 28)
  else if month ∈ [4, 6, 9, 11] then 30 else 31

def scanDate : Scanner Unit
  | a :: b :: c :: d :: '-' :: e :: f :: '-' :: g :: h :: rest =>
    if [a, b, c, d].all Char.isDigit then do
      let month ← twoDigits? 1 12 e f
      let _ ← twoDigits? 1 (daysIn (numberOf 10 [a, b, c, d]) month) g h
      some ((), rest)
    else none
  | _ => none

/-- Reads a time of day; a minute may have a leap second. -/
def scanTime : Scanner Unit
  | a :: b :: ':' :: c :: d :: ':' :: e :: f :: rest => do
    let _ ← twoDigits? 0 23 a b
    let _ ← twoDigits? 0 59 c d
    let _ ← twoDigits? 0 60 e f
    match rest with
    | '.' :: g :: rest => if g.isDigit then some ((), rest.dropWhile Char.isDigit) else none
    | '.' :: [] => none
    | _ => some ((), rest)
  | _ => none

/-- Whether a row is nothing or an offset from universal time. -/
def isOffset : List Char → Bool
  | [] => true
  | ['Z'] => true
  | ['z'] => true
  | [sign, a, b, ':', c, d] =>
    (sign = '+' || sign = '-') && (twoDigits? 0 23 a b).isSome && (twoDigits? 0 59 c d).isSome
  | _ => false

/-- Whether a row is a time of day with or without an offset. -/
def isClock (cs : List Char) : Bool :=
  match scanTime cs with
  | some ((), rest) => isOffset rest
  | none => false

/-- A date, a time, or a date and a time joined by a letter T. -/
def datetime? (cs : List Char) : Option Value :=
  let spelled := some (Value.datetime (String.ofList cs))
  match scanDate cs with
  | some ((), []) => spelled
  | some ((), t :: rest) => if (t = 'T' || t = 't') && isClock rest then spelled else none
  | none =>
    match scanTime cs with
    | some ((), []) => spelled
    | _ => none

/-! ## Tokens -/

/-- Characters of numbers, dates and words. -/
def isTokenChar (c : Char) : Bool := c.isAlphanum || c = '_' || c = '+' || c = '-' || c = '.' || c = ':'

def token? (cs : List Char) : Option Value :=
  if cs = "true".toList then some (.boolean true)
  else if cs = "false".toList then some (.boolean false)
  else ((datetime? cs).or (float? cs)).or (integer? cs)

/-- The time that follows a date behind a space, with the rest of the row. -/
def spacedTime? : Scanner (List Char)
  | ' ' :: rest =>
    let time := rest.takeWhile isTokenChar
    if isClock time then some (time, rest.drop time.length) else none
  | _ => none

def scanToken : Scanner Value := fun cs =>
  let token := cs.takeWhile isTokenChar
  let rest := cs.drop token.length
  match scanDate token, spacedTime? rest with
  | some ((), []), some (time, rest) => some (.datetime (String.ofList (token ++ ' ' :: time)), rest)
  | _, _ => (token? token).map fun v => (v, rest)

end DoorBridge.Toml
