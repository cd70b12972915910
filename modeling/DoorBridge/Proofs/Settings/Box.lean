import Mathlib.Data.List.Forall2
import DoorBridge.Settings.Build
import DoorBridge.Proofs.Settings.Fold

/-!
# Proofs.Settings.Box — messages in a box

A message is shown line by line, and a line of more than `boxBytes` bytes is cut behind its sixty-first byte.  What the
lines of a text are is said by `Lined`, and what a box makes of one of them by `Boxed`; neither mentions the code that
splits and cuts.  A message is shown as they say unless it has a line whose cut falls inside a character, and then nothing
is shown at all: `displayed_iff_none_severed`.
-/

namespace DoorBridge

/-! ## Lines -/

/-- A text and its lines.  A line feed, alone or behind a carriage return, ends a line; the last line need not be ended,
but is none then if it is empty. -/
inductive Lined : String → List String → Prop where
  | nil : Lined "" []
  | last {line} : '\n' ∉ line.toList → line ≠ "" → Lined line [line]
  | feed {line text lines} : '\n' ∉ line.toList → line.toList.getLast? ≠ some '\r' → Lined text lines →
      Lined (line ++ "\n" ++ text) (line :: lines)
  | returnFeed {line text lines} : '\n' ∉ line.toList → Lined text lines →
      Lined (line ++ "\r\n" ++ text) (line :: lines)

theorem Lined.not_mem {text : String} {lines : List String} (h : Lined text lines) :
    ∀ line ∈ lines, '\n' ∉ line.toList := by
  induction h with
  | nil => nofun
  | last hline => exact List.forall_mem_singleton.mpr hline
  | feed hline _ _ ih => exact List.forall_mem_cons.mpr ⟨hline, ih⟩
  | returnFeed hline _ ih => exact List.forall_mem_cons.mpr ⟨hline, ih⟩

/-- A row that is one line, whether a line feed follows it or nothing. -/
def OneLine (row : String) : Prop := '\n' ∉ row.toList ∧ row ≠ "" ∧ row.toList.getLast? ≠ some '\r'

/-- Rows that are one line each are the lines of the text that joins them. -/
theorem lined_intercalate {rows : List String} (h : ∀ row ∈ rows, OneLine row) : Lined ("\n".intercalate rows) rows := by
  induction rows with
  | nil =>
    rw [String.intercalate_nil]
    exact .nil
  | cons row rows ih =>
    obtain ⟨⟨hfeed, hne, hreturn⟩, hrows⟩ := List.forall_mem_cons.mp h
    cases rows with
    | nil =>
      rw [String.intercalate_singleton]
      exact .last hfeed hne
    | cons row' rows =>
      rw [String.intercalate_cons_cons]
      exact .feed hfeed hreturn (ih hrows)

namespace Settings

theorem linesOf_of_not_mem {line : String} (h : '\n' ∉ line.toList) :
    linesOf line = if line = "" then [] else [line] := by
  rw [linesOf, splitAtChar_of_not_mem h]
  by_cases hempty : line = ""
  · rw [if_pos hempty, hempty]
    rfl
  · have hne : line.toList ≠ [] := fun hnil => hempty (String.toList_eq_nil_iff.mp hnil)
    rw [endedLines, if_neg hne, if_neg hempty, List.map_singleton, String.ofList_toList]

theorem linesOf_feed {line : String} (h : '\n' ∉ line.toList) (text : String) :
    linesOf (line ++ "\n" ++ text) = String.ofList (dropReturn line.toList) :: linesOf text := by
  have hrow : (line ++ "\n" ++ text).toList = line.toList ++ '\n' :: text.toList := by simp
  obtain ⟨first, later, hsplit⟩ := Toml.exists_splitAtChar '\n' text.toList
  rw [linesOf, hrow, splitAtChar_append h, linesOf, hsplit]
  rfl

theorem append_return_feed (line text : String) : line ++ "\r" ++ "\n" ++ text = line ++ "\r\n" ++ text :=
  congrArg (· ++ text) String.append_assoc

theorem dropReturn_of_last {line : List Char} (h : line.getLast? ≠ some '\r') : dropReturn line = line := if_neg h

theorem dropReturn_concat (line : List Char) : dropReturn (line ++ ['\r']) = line := by
  rw [dropReturn, List.getLast?_concat, if_pos rfl, List.dropLast_concat]

/-- The lines of the text that joins pieces with line feeds. -/
theorem lined_joinLines {pieces : List (List Char)} (h : ∀ piece ∈ pieces, '\n' ∉ piece) :
    Lined (String.ofList (Toml.joinLines pieces)) ((endedLines pieces).map String.ofList) := by
  induction pieces with
  | nil => exact .nil
  | cons piece pieces ih =>
    obtain ⟨hpiece, hpieces⟩ := List.forall_mem_cons.mp h
    cases pieces with
    | nil =>
      rw [Toml.joinLines, endedLines]
      split
      · next hnil =>
        rw [hnil]
        exact .nil
      · next hne => exact .last (by simpa using hpiece) (by simpa using hne)
    | cons piece' pieces =>
      have hjoin : String.ofList (Toml.joinLines (piece :: piece' :: pieces)) =
          String.ofList piece ++ "\n" ++ String.ofList (Toml.joinLines (piece' :: pieces)) := by
        rw [← String.toList_inj]
        simp [Toml.joinLines]
      show Lined _ (String.ofList (dropReturn piece) :: (endedLines (piece' :: pieces)).map String.ofList)
      rw [hjoin]
      -- a carriage return at the end of a piece is part of the line end, for a line feed follows
      by_cases hlast : piece.getLast? = some '\r'
      · obtain ⟨line, rfl⟩ := List.getLast?_eq_some_iff.mp hlast
        rw [dropReturn_concat, String.ofList_append]
        show Lined (String.ofList line ++ "\r" ++ "\n" ++ _) _
        rw [append_return_feed]
        exact .returnFeed (fun hmem => hpiece (by simpa using hmem)) (ih hpieces)
      · rw [dropReturn_of_last hlast]
        exact .feed (by simpa using hpiece) (by simpa using hlast) (ih hpieces)

theorem lined_linesOf (text : String) : Lined text (linesOf text) := by
  have hpieces : ∀ piece ∈ splitAtChar '\n' text.toList, '\n' ∉ piece := fun _ => Toml.not_mem_of_mem_splitAtChar
  have h := lined_joinLines hpieces
  rwa [Toml.joinLines_splitAtChar, String.ofList_toList] at h

/-- Every text has its lines, and no others. -/
theorem lined_iff {text : String} {lines : List String} : Lined text lines ↔ lines = linesOf text := by
  constructor
  · intro h
    induction h with
    | nil => rfl
    | last hline hne => rw [linesOf_of_not_mem hline, if_neg hne]
    | feed hline hreturn _ ih => rw [linesOf_feed hline, dropReturn_of_last hreturn, String.ofList_toList, ih]
    | @returnFeed line text lines hline _ ih =>
      have hreturn : '\n' ∉ (line ++ "\r").toList := by simpa using hline
      have hdrop : dropReturn (line ++ "\r").toList = line.toList := by
        rw [String.toList_append]
        exact dropReturn_concat line.toList
      rw [← append_return_feed, linesOf_feed hreturn, hdrop, String.ofList_toList, ih]
  · rintro rfl
    exact lined_linesOf text

/-! ## Cuts -/

/-- The line is too long, and no character ends with its sixty-first byte. -/
def Severed (line : String) : Prop := 64 < line.utf8ByteSize ∧ ¬(⟨61⟩ : String.Pos.Raw).IsValid line

/-- What is shown of a line: all of it, or as much of its beginning as fits in sixty-one bytes, and dots. -/
inductive Shows (line : String) : String → Prop where
  | whole : line.utf8ByteSize ≤ 64 → Shows line line
  | cut {kept rest} : 64 < line.utf8ByteSize → line = kept ++ rest → kept.utf8ByteSize ≤ 61 →
      (∀ more rest', line = more ++ rest' → more.utf8ByteSize ≤ 61 → more.utf8ByteSize ≤ kept.utf8ByteSize) →
      Shows line (kept ++ "...")

/-- A row that shows a line between the sides of a box, with blanks up to the right one. -/
def Boxed (line row : String) : Prop :=
  ∃ shown blanks, Shows line shown ∧ shown.utf8ByteSize ≤ 64 ∧ shown.length + blanks = 64 ∧
    row = "║  " ++ shown ++ String.ofList (List.replicate blanks ' ') ++ " ║"

theorem Shows.utf8ByteSize_le {line shown : String} (h : Shows line shown) : shown.utf8ByteSize ≤ 64 := by
  cases h with
  | whole hsize => exact hsize
  | cut _ _ hkept _ =>
    rw [String.utf8ByteSize_append]
    exact Nat.add_le_add_right hkept 3

theorem Shows.not_mem {line shown : String} (h : Shows line shown) (hline : '\n' ∉ line.toList) :
    '\n' ∉ shown.toList := by
  cases h with
  | whole _ => exact hline
  | cut _ hrow _ _ =>
    rw [hrow, String.toList_append, List.mem_append, not_or] at hline
    rw [String.toList_append, List.mem_append, not_or]
    exact ⟨hline.1, by decide⟩

theorem utf8ByteSize_ofList_cons (c : Char) (cs : List Char) :
    (String.ofList (c :: cs)).utf8ByteSize = c.utf8Size + (String.ofList cs).utf8ByteSize := by
  rw [String.ofList_cons, String.utf8ByteSize_append, String.utf8ByteSize_singleton]

theorem length_le_utf8ByteSize (text : String) : text.length ≤ text.utf8ByteSize := by
  rw [← String.ofList_toList (s := text), String.length_ofList]
  induction text.toList with
  | nil => exact Nat.zero_le _
  | cons c cs ih =>
    have hsize := c.utf8Size_pos
    rw [utf8ByteSize_ofList_cons, List.length_cons]
    omega

theorem takeBytes?_eq_some {n : Nat} {cs kept : List Char} :
    takeBytes? n cs = some kept ↔ ∃ rest, cs = kept ++ rest ∧ (String.ofList kept).utf8ByteSize = n := by
  have hnil {n : Nat} : (String.ofList []).utf8ByteSize ≠ n + 1 := (Nat.succ_ne_zero n).symm
  fun_induction takeBytes? n cs generalizing kept with
  | case1 cs =>
    constructor
    · rintro ⟨⟩
      exact ⟨cs, rfl, rfl⟩
    · rintro ⟨rest, -, hsize⟩
      have hempty : String.ofList kept = String.ofList [] := String.utf8ByteSize_eq_zero_iff.mp hsize
      rw [String.ofList_injective hempty]
  | case2 n hpos =>
    refine ⟨nofun, ?_⟩
    rintro ⟨rest, hrow, hsize⟩
    obtain ⟨rfl, -⟩ := List.append_eq_nil_iff.mp hrow.symm
    exact (hpos hsize.symm).elim
  | case3 n c cs hfits ih =>
    rw [Option.map_eq_some_iff]
    constructor
    · rintro ⟨tail, htail, rfl⟩
      obtain ⟨rest, rfl, hsize⟩ := ih.mp htail
      refine ⟨rest, rfl, ?_⟩
      rw [utf8ByteSize_ofList_cons, hsize, Nat.add_sub_cancel' hfits]
    · rintro ⟨rest, hrow, hsize⟩
      cases kept with
      | nil => exact absurd hsize hnil
      | cons c' tail =>
        obtain ⟨rfl, rfl⟩ := List.cons.inj hrow
        rw [utf8ByteSize_ofList_cons] at hsize
        exact ⟨tail, ih.mpr ⟨rest, rfl, (Nat.sub_eq_of_eq_add' hsize.symm).symm⟩, rfl⟩
  | case4 n c cs hlong =>
    refine ⟨nofun, ?_⟩
    rintro ⟨rest, hrow, hsize⟩
    cases kept with
    | nil => exact absurd hsize hnil
    | cons c' tail =>
      obtain ⟨rfl, -⟩ := List.cons.inj hrow
      rw [utf8ByteSize_ofList_cons] at hsize
      exact absurd (Nat.le_of_add_right_le (Nat.le_of_eq hsize)) hlong

theorem isValid_iff {n : Nat} {line : String} :
    (⟨n⟩ : String.Pos.Raw).IsValid line ↔ ∃ kept rest, line = kept ++ rest ∧ kept.utf8ByteSize = n := by
  simp only [String.Pos.Raw.isValid_iff_exists_append, String.Pos.Raw.ext_iff, String.byteIdx_rawEndPos, eq_comm]

/-- A line that is too long is cut behind its sixty-first byte. -/
theorem shorten?_of_long {line shown : String} (h : 64 < line.utf8ByteSize) :
    shorten? line = some shown ↔ ∃ kept rest, line = kept ++ rest ∧ kept.utf8ByteSize = 61 ∧ shown = kept ++ "..." := by
  have hlong : ¬line.utf8ByteSize ≤ boxBytes := Nat.not_le.mpr h
  rw [shorten?, if_neg hlong, Option.map_eq_some_iff]
  constructor
  · rintro ⟨cs, hcs, rfl⟩
    obtain ⟨rest, hrow, hsize⟩ := takeBytes?_eq_some.mp hcs
    refine ⟨String.ofList cs, String.ofList rest, ?_, hsize, rfl⟩
    rw [← String.ofList_append, ← hrow, String.ofList_toList]
  · rintro ⟨kept, rest, rfl, hsize, rfl⟩
    refine ⟨kept.toList, takeBytes?_eq_some.mpr ⟨rest.toList, String.toList_append, ?_⟩, ?_⟩
    · rw [String.ofList_toList, hsize]
      rfl
    · rw [String.ofList_toList]

/-- A cut may follow a character of two bytes. -/
example : shorten? ("x" ++ String.ofList (List.replicate 32 'é')) =
    some ("x" ++ String.ofList (List.replicate 30 'é') ++ "...") := by decide +kernel

theorem shorten?_eq_none_iff {line : String} : shorten? line = none ↔ Severed line := by
  by_cases hsize : line.utf8ByteSize ≤ 64
  · have hshown : shorten? line = some line := if_pos hsize
    rw [hshown, Severed]
    simp [hsize]
  · have hlong : 64 < line.utf8ByteSize := Nat.not_le.mp hsize
    rw [Severed, isValid_iff, Option.eq_none_iff_forall_ne_some]
    constructor
    · rintro hnone
      refine ⟨hlong, ?_⟩
      rintro ⟨kept, rest, hrow, hkept⟩
      exact hnone _ ((shorten?_of_long hlong).mpr ⟨kept, rest, hrow, hkept, rfl⟩)
    · rintro ⟨-, hcut⟩ shown hshown
      obtain ⟨kept, rest, hrow, hkept, -⟩ := (shorten?_of_long hlong).mp hshown
      exact hcut ⟨kept, rest, hrow, hkept⟩

theorem shows_of_shorten? {line shown : String} (h : shorten? line = some shown) : Shows line shown := by
  by_cases hsize : line.utf8ByteSize ≤ 64
  · have hshown : shorten? line = some line := if_pos hsize
    obtain rfl := Option.some.inj (hshown.symm.trans h)
    exact .whole hsize
  · have hlong : 64 < line.utf8ByteSize := Nat.not_le.mp hsize
    obtain ⟨kept, rest, hrow, hkept, rfl⟩ := (shorten?_of_long hlong).mp h
    -- all sixty-one bytes are kept, so no beginning that fits is longer
    refine .cut hlong hrow (Nat.le_of_eq hkept) fun more _ _ hmore => ?_
    rwa [hkept]

/-! ## Messages -/

theorem mapM_eq_some_iff {α β : Type} {f : α → Option β} {l : List α} {l' : List β} :
    l.mapM f = some l' ↔ List.Forall₂ (fun a b => f a = some b) l l' := by
  induction l generalizing l' with
  | nil => simp [eq_comm]
  | cons a l ih =>
    simp only [List.mapM_cons, Option.bind_eq_bind, Option.bind_eq_some_iff, Option.pure_def, Option.some.injEq, ih,
      List.forall₂_cons_left_iff]
    constructor
    · rintro ⟨b, hb, bs, hbs, rfl⟩
      exact ⟨b, bs, hb, hbs, rfl⟩
    · rintro ⟨b, bs, hb, hbs, rfl⟩
      exact ⟨b, hb, bs, hbs, rfl⟩

theorem mapM_eq_none_iff {α β : Type} {f : α → Option β} {l : List α} : l.mapM f = none ↔ ∃ a ∈ l, f a = none := by
  induction l with
  | nil => simp
  | cons a l ih =>
    rw [List.mapM_cons, List.exists_mem_cons_iff, ← ih]
    cases f a with
    | none => simp
    | some b => cases l.mapM f <;> simp

theorem boxed_boxRow {line shown : String} (h : Shows line shown) : Boxed line (boxRow shown) := by
  have hlength : shown.length ≤ 64 := (length_le_utf8ByteSize shown).trans h.utf8ByteSize_le
  refine ⟨shown, 64 - shown.length, h, h.utf8ByteSize_le, Nat.add_sub_cancel' hlength, ?_⟩
  rw [boxRow, padTo, ← String.append_assoc]

theorem Boxed.oneLine {line row : String} (h : Boxed line row) (hline : '\n' ∉ line.toList) : OneLine row := by
  obtain ⟨shown, blanks, hshows, -, -, rfl⟩ := h
  have hshown := hshows.not_mem hline
  refine ⟨?_, ?_, ?_⟩
  · simp [hshown]
  · simp
  · -- the right side stands last, so the line feed between two rows joins no carriage return
    have hside : " ║".toList.getLast? = some '║' := by decide
    rw [String.toList_append, List.getLast?_append, hside, Option.some_or]
    decide

theorem oneLine_of_boxed {lines rows : List String} (h : List.Forall₂ Boxed lines rows)
    (hlines : ∀ line ∈ lines, '\n' ∉ line.toList) : ∀ row ∈ rows, OneLine row := by
  induction h with
  | nil => nofun
  | cons hrow _ ih =>
    obtain ⟨hline, hrest⟩ := List.forall_mem_cons.mp hlines
    exact List.forall_mem_cons.mpr ⟨hrow.oneLine hline, ih hrest⟩

/-- What is returned for a message shows each of its lines in a line of its own. -/
theorem boxed_of_boxMessage? {message text : String} (h : boxMessage? message = some text) :
    ∃ rows, Lined text rows ∧ List.Forall₂ Boxed (linesOf message) rows := by
  obtain ⟨shown, hshown, rfl⟩ := Option.map_eq_some_iff.mp h
  have hboxed : List.Forall₂ Boxed (linesOf message) (shown.map boxRow) :=
    List.forall₂_map_right_iff.mpr ((mapM_eq_some_iff.mp hshown).imp fun _ _ h => boxed_boxRow (shows_of_shorten? h))
  exact ⟨shown.map boxRow, lined_intercalate (oneLine_of_boxed hboxed (lined_linesOf message).not_mem), hboxed⟩

theorem boxMessage?_eq_none_iff {message : String} :
    boxMessage? message = none ↔ ∃ line ∈ linesOf message, Severed line := by
  rw [boxMessage?, Option.map_eq_none_iff, mapM_eq_none_iff]
  simp only [shorten?_eq_none_iff]

/-- A message is displayed if a text is returned for it, and the lines of the text show the lines of the message one by
one. -/
def Displayed (message : String) : Prop :=
  ∃ text lines rows, boxMessage? message = some text ∧ Lined message lines ∧ Lined text rows ∧
    List.Forall₂ Boxed lines rows

/-- Whatever is returned for a message displays it. -/
theorem displayed_iff_ne_none {message : String} : Displayed message ↔ boxMessage? message ≠ none := by
  rw [Option.ne_none_iff_exists']
  constructor
  · rintro ⟨text, -, -, htext, -⟩
    exact ⟨text, htext⟩
  · rintro ⟨text, htext⟩
    obtain ⟨rows, hrows, hboxed⟩ := boxed_of_boxMessage? htext
    exact ⟨text, linesOf message, rows, htext, lined_linesOf message, hrows, hboxed⟩

/-- **A message is displayed unless it has a line that is too long and is cut inside a character.**  Every text has its
lines and no others.  If each of the message's lines has at most sixty-four bytes or a character that ends with the
sixty-first, the message is displayed: line for line, whole or cut.  Otherwise nothing is returned for it. -/
theorem displayed_iff_none_severed (message : String) :
    (∀ lines, Lined message lines ↔ lines = linesOf message) ∧
      (Displayed message ↔ ∀ line ∈ linesOf message, ¬Severed line) ∧
      (¬Displayed message → boxMessage? message = none) := by
  refine ⟨fun lines => lined_iff, ?_, fun h => ?_⟩
  · rw [displayed_iff_ne_none, Ne, boxMessage?_eq_none_iff]
    simp only [not_exists, not_and]
  · rwa [displayed_iff_ne_none, not_not] at h

/-- A message that quotes a line with a dash across its sixty-first byte. -/
def quotedDash : String :=
  "TOML parse error at line 2, column 15\n  |\n" ++
  "2 | ttc_seconds = ten # time to get out from under the door – 0 is off\n" ++
  "  |               ^\ninvalid value"

/-- Nothing is shown of a message that quotes the wrong line. -/
theorem quotedDash_not_displayed : ¬Displayed quotedDash ∧ boxMessage? quotedDash = none := by
  have hnone : boxMessage? quotedDash = none := by decide +kernel
  exact ⟨fun h => displayed_iff_ne_none.mp h hnone, hnone⟩

end Settings

end DoorBridge
