import DoorBridge.Toml.Scalar

/-!
# Toml.Document — whole documents

`Toml.parse?` reads a document into a table, or finds that it is none: a syntax error, or a key or table that
stands twice.
-/

namespace DoorBridge.Toml

/-- Arrays and inline tables may be nested this deep, and dotted keys have at most as many parts. -/
def maxDepth : Nat := 79

/-! ## Keys -/

def isBareKeyChar (c : Char) : Bool := c.isAlphanum || c = '_' || c = '-'

def scanKeyPart : Scanner String
  | '"' :: rest => (basicString rest).map fun (text, rest) => (String.ofList text, rest)
  | '\'' :: rest => (literalString rest).map fun (text, rest) => (String.ofList text, rest)
  | cs =>
    let word := cs.takeWhile isBareKeyChar
    if word = [] then none else some (String.ofList word, cs.drop word.length)

/-- Reads the parts of a key, at most `room` of them; dots with blanks around them join the parts. -/
def scanKeyParts : Nat → Scanner (List String)
  | 0, _ => none
  | room + 1, cs => do
    let (part, rest) ← scanKeyPart cs
    match rest.dropWhile isSpace with
    | '.' :: more => do
      let (parts, rest) ← scanKeyParts room (more.dropWhile isSpace)
      some (part :: parts, rest)
    | rest => some ([part], rest)

/-- Reads a key and the blanks behind it. -/
def scanKey : Scanner (List String) := scanKeyParts maxDepth

/-! ## Building tables -/

/-- Applies a change to the table at the end of a path, making the tables on the way.  A dotted key does not lead
into a table that has a header of its own; nothing leads into values. -/
def descend? (dotted : Bool) (change : Origin → Entries → Option (Origin × Entries)) :
    List String → Origin → Entries → Option (Origin × Entries)
  | [], origin, entries => change origin entries
  | key :: path, origin, entries => do
    let step (origin : Origin) (entries : Entries) : Option Value := do
      let (origin, entries) ← descend? dotted change path origin entries
      some (.table origin entries)
    let entries ← entries.update? key fun
      | none => step (if dotted then .dotted else .passed) []
      | some (.table origin entries) =>
        if origin = .closed ∨ (dotted ∧ origin = .header) then none else step origin entries
      | some (.array true items) =>
        match items.getLast? with
        | some (.table _ entries) => do some (.array true (items.dropLast ++ [← step .header entries]))
        | _ => none
      | some _ => none
    some (origin, entries)

/-- Adds an entry that is not there yet. -/
def add? (key : String) (v : Value) (entries : Entries) : Option Entries :=
  entries.update? key fun
    | none => some v
    | some _ => none

/-- Adds the value of a dotted key to a table.  Only tables made by dotted keys take entries by dotted keys. -/
def assign? (key : List String) (v : Value) (origin : Origin) (entries : Entries) :
    Option (Origin × Entries) :=
  match key.getLast? with
  | none => none
  | some last =>
    let path := key.dropLast
    descend? true
      (fun origin entries =>
        if decide (origin = .dotted) = !path.isEmpty then (add? last v entries).map (origin, ·) else none)
      path origin entries

/-- Opens the table of a header, which must not have been opened before. -/
def openTable? (key : List String) (root : Entries) : Option Entries :=
  match key.getLast? with
  | none => none
  | some last =>
    (descend? false
      (fun origin entries => do
        let entries ← entries.update? last fun
          | none => some (.table .header [])
          | some (.table .passed entries) => some (.table .header entries)
          | some _ => none
        some (origin, entries))
      key.dropLast .header root).map (·.2)

/-- Opens one more table of the array of a doubled header. -/
def openItem? (key : List String) (root : Entries) : Option Entries :=
  match key.getLast? with
  | none => none
  | some last =>
    (descend? false
      (fun origin entries => do
        let entries ← entries.update? last fun
          | none => some (.array true [.table .header []])
          | some (.array true items) => some (.array true (items ++ [.table .header []]))
          | some _ => none
        some (origin, entries))
      key.dropLast .header root).map (·.2)

/-- Adds a value under the header in force. -/
def assignUnder? (header key : List String) (v : Value) (root : Entries) : Option Entries :=
  (descend? false (assign? key v) header .header root).map (·.2)

/-! ## Values -/

/-- The row behind a comment. -/
def dropComment : List Char → Option (List Char)
  | '#' :: rest =>
    match rest.dropWhile isPlain with
    | [] => some []
    | '\n' :: rest => some ('\n' :: rest)
    | '\r' :: '\n' :: rest => some ('\n' :: rest)
    | _ => none
  | cs => some cs

/-- The row behind blanks, comments and line ends. -/
def dropFiller : Nat → List Char → Option (List Char)
  | 0, cs => some cs
  | fuel + 1, cs =>
    match cs.dropWhile isSpace with
    | '\n' :: rest => dropFiller fuel rest
    | '\r' :: '\n' :: rest => dropFiller fuel rest
    | '#' :: rest => (dropComment ('#' :: rest)).bind (dropFiller fuel)
    | cs => some cs

/-- Reads the items of an array up to its bracket; a comma may follow the last. -/
def scanItems (item : Scanner Value) : Nat → Scanner (List Value)
  | 0, _ => none
  | fuel + 1, cs => do
    let cs ← dropFiller cs.length cs
    match cs with
    | ']' :: rest => some ([], rest)
    | _ => do
      let (v, rest) ← item cs
      match ← dropFiller rest.length rest with
      | ',' :: rest => do
        let (items, rest) ← scanItems item fuel rest
        some (v :: items, rest)
      | ']' :: rest => some ([v], rest)
      | _ => none

def scanPair (item : Scanner Value) : Scanner (List String × Value) := fun cs => do
  let (key, rest) ← scanKey cs
  match rest with
  | '=' :: rest => do
    let (v, rest) ← item (rest.dropWhile isSpace)
    some ((key, v), rest)
  | _ => none

/-- Reads the pairs of an inline table up to its brace. -/
def scanPairs (item : Scanner Value) : Nat → Origin × Entries → Scanner Entries
  | 0, _, _ => none
  | fuel + 1, (origin, entries), cs => do
    let ((key, v), rest) ← scanPair item cs
    let (origin, entries) ← assign? key v origin entries
    match rest.dropWhile isSpace with
    | ',' :: rest => scanPairs item fuel (origin, entries) (rest.dropWhile isSpace)
    | '\x7d' :: rest => some (entries, rest)
    | _ => none

/-- Reads a value with at most `depth` arrays and inline tables inside one another. -/
def scanValue : Nat → Scanner Value
  | _, '"' :: rest => (scanString ('"' :: rest)).map fun (text, rest) => (.string text, rest)
  | _, '\'' :: rest => (scanString ('\'' :: rest)).map fun (text, rest) => (.string text, rest)
  | 0, '[' :: _ => none
  | 0, '\x7b' :: _ => none
  | depth + 1, '[' :: rest =>
    (scanItems (scanValue depth) (rest.length + 1) rest).map fun (items, rest) => (.array false items, rest)
  | depth + 1, '\x7b' :: rest =>
    match rest.dropWhile isSpace with
    | '\x7d' :: rest => some (.table .closed [], rest)
    | rest =>
      (scanPairs (scanValue depth) (rest.length + 1) (.header, []) rest).map
        fun (entries, rest) => (.table .closed entries, rest)
  | _, cs => scanToken cs

/-! ## Documents -/

/-- The document so far, and the header in force. -/
structure Draft where
  root : Entries := []
  header : List String := []

/-- Reads a header and opens its table. -/
def scanHeader (d : Draft) : Scanner Draft
  | '[' :: '[' :: cs => do
    let (key, rest) ← scanKey (cs.dropWhile isSpace)
    match rest with
    | ']' :: ']' :: rest => do some (⟨← openItem? key d.root, key⟩, rest)
    | _ => none
  | '[' :: cs => do
    let (key, rest) ← scanKey (cs.dropWhile isSpace)
    match rest with
    | ']' :: rest => do some (⟨← openTable? key d.root, key⟩, rest)
    | _ => none
  | _ => none

/-- Reads a header or a key with its value. -/
def scanStatement (d : Draft) : Scanner Draft
  | '[' :: cs => scanHeader d ('[' :: cs)
  | cs => do
    let ((key, v), rest) ← scanPair (scanValue maxDepth) cs
    some ({ d with root := ← assignUnder? d.header key v d.root }, rest)

/-- Reads statements, each of which ends its line, up to the end of the document. -/
def scanStatements : Nat → Draft → List Char → Option Draft
  | 0, _, _ => none
  | fuel + 1, d, cs => do
    match ← dropFiller cs.length cs with
    | [] => some d
    | cs => do
      let (d, rest) ← scanStatement d cs
      match ← dropComment (rest.dropWhile isSpace) with
      | [] => some d
      | '\n' :: rest => scanStatements fuel d rest
      | '\r' :: '\n' :: rest => scanStatements fuel d rest
      | _ => none

/-- Reads a document, which may open with a byte order mark. -/
def parse? (text : String) : Option Value :=
  let cs := match text.toList with
    | '\ufeff' :: cs => cs
    | cs => cs
  (scanStatements (cs.length + 1) {} cs).map fun d => .table .header d.root

end DoorBridge.Toml
