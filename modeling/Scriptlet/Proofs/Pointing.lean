import Mathlib.Data.List.Basic
import Scriptlet.Cli.SourceContext
/-!
The caret below a line. Two scans measure a line, one its indentation and one all the bytes before the
one that is pointed at. Their difference is the width of the bytes from the end of the indentation up
to that byte, so the caret stands under it in the line as it is shown.
-/
namespace Scriptlet.Cli

/-- The columns that a text takes on a terminal: eight for a tab, one for any other byte. -/
def width (text : Text) : Nat := 8 * text.count tab + text.countP (· != tab)

/-- A line is its indentation and what is shown of it, from its first byte that is neither a space nor
a tab. -/
structure Indented (line indentation shown : Text) : Prop where
  whole : line = indentation ++ shown
  blank : ∀ byte ∈ indentation, byte = Text.space ∨ byte = tab
  starts : ∀ byte ∈ shown.head?, ¬ (byte = Text.space ∨ byte = tab)

section Widths
variable {byte : UInt8} {rest shown : Text}

theorem width_cons (byte : UInt8) (rest : Text) :
    width (byte :: rest) = byteWidth byte + width rest := by
  by_cases tabbed : byte = tab
  · simp only [width, byteWidth, tabbed, List.count_cons_self, List.countP_cons, bne_self_eq_false,
      Bool.false_eq_true, if_true, if_false]
    omega
  · simp only [width, byteWidth, tabbed, List.count_cons_of_ne tabbed, List.countP_cons,
      bne_iff_ne, ne_eq, not_false_eq_true, if_true, if_false]
    omega

theorem width_append (a b : Text) : width (a ++ b) = width a + width b := by
  simp only [width, List.count_append, List.countP_append]
  omega

theorem width_replicate_space (count : Nat) : width (List.replicate count Text.space) = count := by
  simp [width, List.count_replicate, List.countP_replicate, Text.space, tab]

theorem width_take_le (text : Text) (count : Nat) : width (text.take count) ≤ width text := by
  have split := width_append (text.take count) (text.drop count)
  rw [List.take_append_drop] at split
  omega

theorem widthBefore_eq (count : Nat) (line : Text) :
    widthBefore count line = width (line.take count) := by
  induction line generalizing count with
  | nil => cases count <;> rfl
  | cons byte rest ih =>
    cases count with
    | zero => rfl
    | succ count => rw [widthBefore, ih, List.take_succ_cons, width_cons]

theorem indentationWidth_cons (blank : byte = Text.space ∨ byte = tab) :
    indentationWidth (byte :: rest) = byteWidth byte + indentationWidth rest := by
  rcases blank with rfl | rfl <;> rfl

theorem indentationWidth_of_starts
    (starts : ∀ byte ∈ shown.head?, ¬ (byte = Text.space ∨ byte = tab)) :
    indentationWidth shown = 0 := by
  cases shown with
  | nil => rfl
  | cons byte rest =>
    obtain ⟨spaced, tabbed⟩ := not_or.mp (starts byte rfl)
    rw [indentationWidth, if_neg tabbed, if_neg spaced]

theorem isIndentation_iff : isIndentation byte = true ↔ byte = Text.space ∨ byte = tab := by
  simp [isIndentation]

end Widths

namespace Indented
variable {line indentation shown : Text}

theorem cons {byte : UInt8} (blank : byte = Text.space ∨ byte = tab)
    (split : Indented line indentation shown) :
    Indented (byte :: line) (byte :: indentation) shown := by
  constructor
  · rw [split.whole, List.cons_append]
  · intro other member
    rcases List.mem_cons.mp member with rfl | member
    · exact blank
    · exact split.blank other member
  · exact split.starts

theorem exists_split (line : Text) : ∃ indentation shown, Indented line indentation shown := by
  induction line with
  | nil => exact ⟨[], [], rfl, by simp, by simp⟩
  | cons byte rest ih =>
    by_cases blank : byte = Text.space ∨ byte = tab
    · obtain ⟨indentation, shown, split⟩ := ih
      exact ⟨byte :: indentation, shown, split.cons blank⟩
    · refine ⟨[], byte :: rest, rfl, by simp, ?_⟩
      rintro _ ⟨⟩
      exact blank

/-- What is shown is what is left when spaces and tabs are dropped from the left. -/
theorem dropWhile_eq (split : Indented line indentation shown) :
    line.dropWhile isIndentation = shown := by
  have blank : ∀ byte ∈ indentation, isIndentation byte = true := fun byte member =>
    isIndentation_iff.mpr (split.blank byte member)
  rw [split.whole, List.dropWhile_append_of_pos blank]
  cases shown with
  | nil => rfl
  | cons byte rest =>
    apply List.dropWhile_cons_of_neg
    rw [isIndentation_iff]
    exact split.starts byte rfl

theorem indentationWidth_eq (split : Indented line indentation shown) :
    indentationWidth line = width indentation := by
  obtain ⟨rfl, blank, starts⟩ := split
  induction indentation with
  | nil => exact indentationWidth_of_starts starts
  | cons byte rest ih =>
    have tail := ih fun other member => blank other (List.mem_cons_of_mem byte member)
    rw [List.cons_append, indentationWidth_cons (blank byte List.mem_cons_self), tail, width_cons]

theorem extract_eq (split : Indented line indentation shown) (stop : Nat) :
    line.extract indentation.length stop = shown.take (stop - indentation.length) := by
  rw [split.whole, List.extract_eq_take_drop, List.drop_left]

theorem extract_inside (split : Indented line indentation shown) {stop : Nat}
    (inside : stop ≤ indentation.length) : line.extract indentation.length stop = [] := by
  rw [split.extract_eq, Nat.sub_eq_zero_of_le inside, List.take_zero]

theorem extract_past (split : Indented line indentation shown) {stop : Nat}
    (past : line.length ≤ stop) : line.extract indentation.length stop = shown := by
  have length := congrArg List.length split.whole
  rw [List.length_append] at length
  rw [split.extract_eq, List.take_of_length_le (by omega)]

theorem extract_before {before behind : Text}
    (split : Indented line indentation (before ++ behind)) :
    line.extract indentation.length (indentation.length + before.length) = before := by
  rw [split.extract_eq, Nat.add_sub_cancel_left, List.take_left]

/-- The clamped difference of the two scans is a width: before the end of the indentation the first
scan has measured no more than the second, and behind it the indentation is part of both. -/
theorem caretOffset_eq (split : Indented line indentation shown) (column : Nat) :
    caretOffset line column = width (line.extract indentation.length (column - 1)) := by
  rw [caretOffset, widthBefore_eq, split.indentationWidth_eq]
  by_cases inside : column - 1 ≤ indentation.length
  · have least := width_take_le indentation (column - 1)
    rw [split.extract_inside inside, split.whole, List.take_append_of_le_length inside]
    exact Nat.sub_eq_zero_of_le least
  · rw [split.extract_eq, split.whole, List.take_append, List.take_of_length_le (by omega),
      width_append, Nat.add_sub_cancel_left]

theorem unique {otherIndentation otherShown : Text} (split : Indented line indentation shown)
    (other : Indented line otherIndentation otherShown) :
    indentation = otherIndentation ∧ shown = otherShown := by
  have same : shown = otherShown := split.dropWhile_eq.symm.trans other.dropWhile_eq
  have whole := split.whole.symm.trans other.whole
  rw [same] at whole
  exact ⟨List.append_cancel_right whole, same⟩

end Indented

theorem sourceContext_of_indented {lines : List Text} {p : Position} {line indentation shown : Text}
    (above : 1 ≤ p.line) (positive : 1 ≤ p.column) (listed : lines[(p.line - 1).toNat]? = some line)
    (split : Indented line indentation shown) :
    sourceContext lines p = margin ++ shown ++ utf8 "\n" ++
      (margin ++ List.replicate (width (line.extract indentation.length (p.column - 1).toNat))
        Text.space ++ utf8 "^\n") := by
  have column : p.column.toNat - 1 = (p.column - 1).toNat := by omega
  have caret : caretLine line p.column = margin ++ List.replicate (width (line.extract
      indentation.length (p.column - 1).toNat)) Text.space ++ utf8 "^\n" := by
    rw [caretLine, if_pos (by omega), split.caretOffset_eq, column]
  rw [sourceContext, if_neg (by omega), listed, ← caret, ← split.dropWhile_eq]

/-- A line of a source is shown without its indentation, and the caret is indented by the width of the
bytes from the end of the indentation up to the byte at the column: by nothing for a column in the
indentation, by the width of all that is shown for a column behind the line. What is printed before
that byte and before the caret is equally wide. -/
theorem caret_under_column (lines : List Text) (p : Position) (above : 1 ≤ p.line)
    (within : p.line ≤ lines.length) (positive : 1 ≤ p.column) :
    ∃ line indentation shown, lines[(p.line - 1).toNat]? = some line ∧
      Indented line indentation shown ∧
      ∃ offset, sourceContext lines p = margin ++ shown ++ utf8 "\n" ++
          (margin ++ List.replicate offset Text.space ++ utf8 "^\n") ∧
        offset = width (line.extract indentation.length (p.column - 1).toNat) ∧
        (p.column ≤ indentation.length → offset = 0) ∧
        (line.length < p.column → offset = width shown) ∧
        ∀ before behind, shown = before ++ behind →
          p.column = indentation.length + before.length + 1 →
          width (margin ++ before) = width (margin ++ List.replicate offset Text.space) := by
  have inside : (p.line - 1).toNat < lines.length := by omega
  obtain ⟨line, listed⟩ : ∃ line, lines[(p.line - 1).toNat]? = some line :=
    ⟨_, List.getElem?_eq_getElem inside⟩
  obtain ⟨indentation, shown, split⟩ := Indented.exists_split line
  have printed := sourceContext_of_indented above positive listed split
  refine ⟨line, indentation, shown, listed, split, _, printed, rfl, ?_, ?_, ?_⟩
  · intro blank
    rw [split.extract_inside (by omega)]
    rfl
  · intro past
    rw [split.extract_past (by omega)]
  · rintro before behind rfl there
    have reached : (p.column - 1).toNat = indentation.length + before.length := by omega
    rw [reached, split.extract_before, width_append, width_append, width_replicate_space]

/-- Two lines of a program, the second indented by a tab and two spaces. -/
def tabbedLines : List Text := [utf8 "let a = 1;", utf8 "\t  a\t+ missing;"]

theorem indented_tabbed {line indentation shown : Text} (listed : tabbedLines[1]? = some line)
    (split : Indented line indentation shown) :
    line = utf8 "\t  a\t+ missing;" ∧ indentation = utf8 "\t  " ∧
      shown = utf8 "a\t+ missing;" := by
  cases listed
  have parts : Indented (utf8 "\t  a\t+ missing;") (utf8 "\t  ") (utf8 "a\t+ missing;") := by
    constructor <;> decide +kernel
  exact ⟨rfl, split.unique parts⟩

-- A column in the indentation, one behind the tab that is shown, and one far behind the line.
theorem caret_under_plus :
    sourceContext tabbedLines ⟨2, 2⟩ = utf8 "    a\t+ missing;\n    ^\n" ∧
      sourceContext tabbedLines ⟨2, 6⟩ = utf8 "    a\t+ missing;\n             ^\n" ∧
      sourceContext tabbedLines ⟨2, 99⟩ =
        utf8 "    a\t+ missing;\n                       ^\n" := by
  obtain ⟨_, _, _, listed, split, _, inside, -, nothing, -⟩ :=
    caret_under_column tabbedLines ⟨2, 2⟩ (by decide) (by decide) (by decide)
  obtain ⟨rfl, rfl, rfl⟩ := indented_tabbed listed split
  obtain ⟨_, _, _, listed, split, _, between, sum, -⟩ :=
    caret_under_column tabbedLines ⟨2, 6⟩ (by decide) (by decide) (by decide)
  obtain ⟨rfl, rfl, rfl⟩ := indented_tabbed listed split
  obtain ⟨_, _, _, listed, split, _, past, -, -, all, -⟩ :=
    caret_under_column tabbedLines ⟨2, 99⟩ (by decide) (by decide) (by decide)
  obtain ⟨rfl, rfl, rfl⟩ := indented_tabbed listed split
  rw [inside, nothing (by decide +kernel), between, sum, past, all (by decide +kernel)]
  decide +kernel

end Scriptlet.Cli
