/-!
# Toml — values of TOML 1.0 documents

A document is a table.  A table remembers how it came about, since that decides which later lines may extend it.
-/

namespace DoorBridge.Toml

/-- How a table came about. -/
inductive Origin where
  /-- By a header of its own, or as the document. -/
  | header
  /-- On the way to a longer header. -/
  | passed
  /-- By a dotted key. -/
  | dotted
  /-- In braces; nothing may be added to it. -/
  | closed
  deriving DecidableEq, Repr

inductive Value where
  | string (text : String)
  | integer (value : Int)
  /-- A float, as it is spelled. -/
  | float (spelling : String)
  | boolean (value : Bool)
  /-- A date, a time or both, as spelled. -/
  | datetime (spelling : String)
  /-- An array; one made by headers can be extended by them. -/
  | array (byHeaders : Bool) (items : List Value)
  /-- A table, its keys ascending. -/
  | table (origin : Origin) (entries : List (String × Value))
  deriving Inhabited

/-- The entries of a table, its keys ascending. -/
abbrev Entries := List (String × Value)

/-- Replaces the entry of a key, or adds one in its place in the order.  `f` says what becomes of the entry that is
there, and may refuse. -/
def Entries.update? (key : String) (f : Option Value → Option Value) : Entries → Option Entries
  | [] => (f none).map fun v => [(key, v)]
  | (k, v) :: rest =>
    if k = key then (f (some v)).map fun v => (k, v) :: rest
    else if key < k then (f none).map fun w => (key, w) :: (k, v) :: rest
    else (update? key f rest).map ((k, v) :: ·)

namespace Value

def entries? : Value → Option Entries
  | table _ entries => some entries
  | _ => none

def get? (v : Value) (key : String) : Option Value := v.entries?.bind (·.lookup key)

end Value

end DoorBridge.Toml
