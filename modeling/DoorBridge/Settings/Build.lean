import DoorBridge.Settings.Check
import DoorBridge.Settings.Text
import DoorBridge.Toml.Document

/-!
# Settings.Build — the check that runs when an image is built

The build writes the memory layout beside the image, tells the build tool what to link and what to watch, and
checks the settings built into the image.  A failed check stops the build with a message in a box.
-/

namespace DoorBridge.Settings

/-! ## Boxes -/

/-- A text with blanks behind it up to a width in characters. -/
def padTo (width : Nat) (text : String) : String :=
  text ++ String.ofList (List.replicate (width - text.length) ' ')

/-- A horizontal edge between two corners. -/
def boxEdge (left right : String) : String := left ++ String.ofList (List.replicate 66 '═') ++ right

/-- A line of a box, its text padded. -/
def boxLine (text : String) : String := "║  " ++ padTo 64 text ++ "║"

/-- A box below an empty line: a title, and below a rule, if there is one, a body. -/
def box (title : List String) (body : Option String) : String :=
  let rule := match body with
    | some text => [boxEdge "╠" "╣", text]
    | none => []
  "\n" ++ "\n".intercalate ([boxEdge "╔" "╗"] ++ title ++ rule ++ [boxEdge "╚" "╝"]) ++ "\n"

/-! ## Long lines -/

/-- Bytes of a line that a box shows in full. -/
def boxBytes : Nat := 64

/-- The characters that make up the first `n` bytes, if a character ends there. -/
def takeBytes? : Nat → List Char → Option (List Char)
  | 0, _ => some []
  | _, [] => none
  | n + 1, c :: cs => if c.utf8Size ≤ n + 1 then (takeBytes? (n + 1 - c.utf8Size) cs).map (c :: ·) else none

/-- A line as a box shows it: one that is too long is cut three bytes early and ends in dots.  There is none if the
cut falls inside a character. -/
def shorten? (line : String) : Option String :=
  if line.utf8ByteSize ≤ boxBytes then some line
  else (takeBytes? (boxBytes - 3) line.toList).map fun cs => String.ofList cs ++ "..."

/-- A line without the carriage return of its line end. -/
def dropReturn (line : List Char) : List Char := if line.getLast? = some '\r' then line.dropLast else line

/-- The lines among the pieces of a text between its line feeds.  Only a line that is ended can be empty at the end of
the text, and only such a one loses a carriage return. -/
def endedLines : List (List Char) → List (List Char)
  | [] => []
  | [last] => if last = [] then [] else [last]
  | piece :: pieces => dropReturn piece :: endedLines pieces

/-- The lines of a text, without their line ends. -/
def linesOf (text : String) : List String := (endedLines (splitAtChar '\n' text.toList)).map String.ofList

/-- A line of a message between the sides of a box. -/
def boxRow (line : String) : String := "║  " ++ padTo 64 line ++ " ║"

/-- A message as lines of a box, unless a cut falls inside a character. -/
def boxMessage? (message : String) : Option String :=
  ((linesOf message).mapM shorten?).map fun lines => "\n".intercalate (lines.map boxRow)

/-! ## The build -/

/-- Where the image and its settings lie in memory. -/
def memoryLayout : String :=
  "MEMORY \x7b\n" ++
  "    BOOT2 : ORIGIN = 0x10000000, LENGTH = 0x100\n" ++
  "    /* Last 64K of the 2M flash hold the key/value store */\n" ++
  "    FLASH : ORIGIN = 0x10000100, LENGTH = 2048K - 0x100 - 64K\n" ++
  "    RAM   : ORIGIN = 0x20000000, LENGTH = 256K\n" ++
  "\x7d\n\n" ++
  "EXTERN(BOOT2_FIRMWARE)\n\n" ++
  "SECTIONS \x7b\n" ++
  "    /* ### Boot loader */\n" ++
  "    .boot2 ORIGIN(BOOT2) :\n" ++
  "    \x7b\n" ++
  "        KEEP(*(.boot2));\n" ++
  "    \x7d > BOOT2\n" ++
  "\x7d INSERT BEFORE .text;\n"

/-- What a build leaves behind. -/
structure BuildReport where
  /-- The lines told to the build tool. -/
  lines : List String
  /-- The memory layout that was written. -/
  layout : String
  /-- Why the build stopped, if it did. -/
  stopped? : Option String

/-- The lines told to the build tool before the settings are checked. -/
def buildLines : List String :=
  ["cargo:rustc-link-search=out", "cargo:rerun-if-changed=memory.x", "cargo:rerun-if-changed=build.rs",
    "cargo:rustc-link-arg-bins=--nmagic", "cargo:rustc-link-arg-bins=-Tlink.x",
    "cargo:rustc-link-arg-bins=-Tlink-rp.x", "cargo:rustc-link-arg-bins=-Tdefmt.x",
    "cargo:rerun-if-changed=bridge.toml"]

/-- Why settings stop a build. -/
inductive BuildError where
  | missing
  | unreadable
  | badSyntax
  | rejected (complaints : List String)
  deriving DecidableEq, Repr

/-- The message of a stopped build.  What a syntax error says in detail is left to the reader of the document, so
the message ends at its title. -/
def BuildError.message : BuildError → String
  | missing => box
      [boxLine "ERROR: bridge.toml not found!", boxLine "",
        boxLine "The firmware embeds bridge.toml as its default configuration.",
        boxLine "Please create one in the portcullis-firmware directory."] none
  | unreadable => box
      [boxLine "ERROR: Failed to read bridge.toml", boxLine "",
        "║  Error: " ++ padTo 56 "stream did not contain valid UTF-8" ++ " ║"] none
  | badSyntax => "\n" ++ boxEdge "╔" "╗" ++ "\n" ++ boxLine "ERROR: Invalid TOML syntax in bridge.toml" ++ "\n"
  | rejected complaints => box [boxLine "ERROR: Invalid bridge configuration"]
      (some ("\n".intercalate (complaints.map fun c => "║  • " ++ padTo 62 c ++ " ║")))

/-- Checks the settings built into an image, given as bytes if there are any. -/
def checkBuild (bytes : Option (List UInt8)) : Except BuildError Unit :=
  match bytes with
  | none => .error .missing
  | some bytes =>
    match String.fromUTF8? ⟨bytes.toArray⟩ with
    | none => .error .unreadable
    | some text =>
      match Toml.parse? text with
      | none => .error .badSyntax
      | some document =>
        match check document with
        | [] => .ok ()
        | complaints => .error (.rejected complaints)

/-- Runs the build's part for given settings. -/
def build (bytes : Option (List UInt8)) : BuildReport :=
  match checkBuild bytes with
  | .ok () => ⟨buildLines ++ ["cargo:warning=bridge.toml validated successfully"], memoryLayout, none⟩
  | .error e => ⟨buildLines, memoryLayout, some e.message⟩

end DoorBridge.Settings
