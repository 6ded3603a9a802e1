import Scriptlet.Cli.SourceContext
import Scriptlet.Token.Scanner
/-!
Places of a text. The place of a byte follows from the bytes before it: its line is one more than the
line feeds among them, and its column one more than the bytes behind the last of these. Scanning puts
each token at a byte, but for the end of input, which it puts behind the last byte and a column back;
and it finds each of its faults at a byte.
-/
namespace Scriptlet

namespace Text

theorem splitOn_head (mark : UInt8) (text : Text) :
    (splitOn mark text)[0]? = some (text.takeWhile (· != mark)) := by
  induction text with
  | nil => rfl
  | cons byte rest ih =>
    by_cases same : byte = mark
    · simp [splitOn, same]
    · rcases pieces : splitOn mark rest with _ | ⟨piece, more⟩
      · simp [pieces] at ih
      · simp only [pieces, List.getElem?_cons_zero, Option.some.injEq] at ih
        simp [splitOn, same, pieces, ih]

theorem length_splitOn (mark : UInt8) (text : Text) :
    (splitOn mark text).length = text.count mark + 1 := by
  induction text with
  | nil => rfl
  | cons byte rest ih =>
    by_cases same : byte = mark
    · simp [splitOn, same, ih]
    · rcases pieces : splitOn mark rest with _ | ⟨piece, more⟩
      · simp [pieces] at ih
      · simp [splitOn, same, pieces, ← ih]

/-- A byte that is no mark goes to the first piece and leaves the others where they are. -/
theorem splitOn_succ {mark byte : UInt8} (other : byte ≠ mark) (text : Text) (k : Nat) :
    (splitOn mark (byte :: text))[k + 1]? = (splitOn mark text)[k + 1]? := by
  have some_ := length_splitOn mark text
  rcases pieces : splitOn mark text with _ | ⟨piece, more⟩
  · simp [pieces] at some_
  · simp [splitOn, other, pieces]

end Text

namespace Position

theorem line_after (p : Position) (text : Text) :
    (p.after text).line = p.line + text.count Text.lineFeed := by
  induction text generalizing p with
  | nil => simp
  | cons byte rest ih =>
    rw [after_cons, ih, next, List.count_cons]
    by_cases feed : byte = Text.lineFeed
    · simp [feed]
      omega
    · simp [feed]

/-- The line of the place behind some bytes, and how much of it these bytes take up. The first line
starts at the column that they start at. -/
theorem exists_line (p : Position) (before rest : Text) :
    ∃ part, (Text.splitOn Text.lineFeed (before ++ rest))[before.count Text.lineFeed]? =
        some (part ++ rest.takeWhile (· != Text.lineFeed)) ∧
      (p.after before).column =
        (if before.count Text.lineFeed = 0 then p.column else 1) + part.length := by
  induction before generalizing p with
  | nil => exact ⟨[], by simpa using Text.splitOn_head _ _, by simp⟩
  | cons byte before ih =>
    obtain ⟨part, line, column⟩ := ih (p.next byte)
    by_cases feed : byte = Text.lineFeed
    · refine ⟨part, ?_, ?_⟩
      · simpa [Text.splitOn, feed] using line
      · rw [after_cons, column, next, if_pos feed]
        simp [feed]
    · have count : (byte :: before).count Text.lineFeed = before.count Text.lineFeed := by
        simp [feed]
      rw [count, after_cons, column, next, if_neg feed, List.cons_append]
      rcases lines : before.count Text.lineFeed with _ | k
      · -- still the first line, which is one byte longer
        rw [lines, Text.splitOn_head] at line
        refine ⟨byte :: part, ?_, ?_⟩
        · rw [Text.splitOn_head]
          simpa [feed] using line
        · simp
          omega
      · rw [lines] at line
        exact ⟨part, by rw [Text.splitOn_succ feed, line], by simp⟩

/-- The line of the place behind some bytes of a text, and its column. -/
theorem exists_line_start (before rest : Text) :
    ∃ part, (Text.splitOn Text.lineFeed (before ++ rest))[before.count Text.lineFeed]? =
        some (part ++ rest.takeWhile (· != Text.lineFeed)) ∧
      (start.after before).column = 1 + part.length := by
  obtain ⟨part, line, column⟩ := exists_line start before rest
  exact ⟨part, line, column.trans (congrArg (· + _) (ite_self 1))⟩

/-- The place is one of the bytes of a text that starts at `p`. -/
def OfByte (p : Position) (text : Text) (place : Position) : Prop :=
  ∃ before byte rest, text = before ++ byte :: rest ∧ place = p.after before

theorem OfByte.behind {p place : Position} {text : Text} (before : Text)
    (inside : (p.after before).OfByte text place) : p.OfByte (before ++ text) place := by
  obtain ⟨more, byte, rest, rfl, rfl⟩ := inside
  exact ⟨before ++ more, byte, rest, by simp, (after_append _ _ _).symm⟩

theorem OfByte.append {p place : Position} {text : Text} (inside : p.OfByte text place)
    (more : Text) : p.OfByte (text ++ more) place := by
  obtain ⟨before, byte, rest, rfl, rfl⟩ := inside
  exact ⟨before, byte, rest ++ more, by simp, rfl⟩

theorem ofByte_cons (p : Position) (byte : UInt8) (rest : Text) : p.OfByte (byte :: rest) p :=
  ⟨[], byte, rest, rfl, rfl⟩

/-- The place lies on a line of the source or right behind it. -/
structure PointsInto (source : Text) (place : Position) : Prop where
  line_pos : 1 ≤ place.line
  line_le : place.line ≤ 1 + source.count Text.lineFeed
  column_nonneg : 0 ≤ place.column
  column_le : ∃ line, (Cli.sourceLines source)[(place.line - 1).toNat]? = some line ∧
    place.column ≤ 1 + line.length

theorem OfByte.column_pos {source : Text} {place : Position} (inside : start.OfByte source place) :
    1 ≤ place.column := by
  obtain ⟨before, byte, rest, rfl, rfl⟩ := inside
  obtain ⟨part, -, column⟩ := exists_line_start before (byte :: rest)
  omega

theorem OfByte.pointsInto {source : Text} {place : Position} (inside : start.OfByte source place) :
    place.PointsInto source := by
  obtain ⟨before, byte, rest, rfl, rfl⟩ := inside
  obtain ⟨part, line, column⟩ := exists_line_start before (byte :: rest)
  have lines : (start.after before).line = 1 + before.count Text.lineFeed := line_after start before
  refine ⟨by omega, ?_, by omega, part ++ (byte :: rest).takeWhile (· != Text.lineFeed), ?_, ?_⟩
  · rw [lines, List.count_append]
    omega
  · rw [lines, Int.add_comm, Int.add_sub_cancel]
    exact line
  · rw [column, List.length_append]
    omega

/-- The end of input is in the column of the last byte of the last line. -/
theorem column_atEnd (source : Text) :
    ∃ line, (Cli.sourceLines source).getLast? = some line ∧
      (start.after source).atEnd.column = line.length := by
  obtain ⟨line, last, column⟩ := exists_line_start source []
  have count := Text.length_splitOn Text.lineFeed source
  rw [List.append_nil, List.takeWhile_nil, List.append_nil] at last
  refine ⟨line, ?_, ?_⟩
  · rw [List.getLast?_eq_getElem?, Cli.sourceLines, count, Nat.add_sub_cancel, last]
  · rw [atEnd, column, Int.add_comm, Int.add_sub_cancel]

theorem atEnd_pointsInto (source : Text) : (start.after source).atEnd.PointsInto source := by
  obtain ⟨line, last, column⟩ := column_atEnd source
  have lines : (start.after source).atEnd.line = 1 + source.count Text.lineFeed :=
    line_after start source
  have count := Text.length_splitOn Text.lineFeed source
  refine ⟨by omega, by omega, by omega, line, ?_, by omega⟩
  rw [lines, Int.add_comm, Int.add_sub_cancel, Int.toNat_natCast, ← last, List.getLast?_eq_getElem?,
    Cli.sourceLines, count, Nat.add_sub_cancel]

end Position

namespace Lexeme

theorem ofByte_tokens (keywords : Keywords) (p : Position) {lexeme : Lexeme}
    (some_ : lexeme.raw ≠ []) :
    ∀ token ∈ lexeme.tokens keywords p, p.OfByte lexeme.raw token.position := by
  have first : p.OfByte lexeme.raw p := by
    obtain ⟨byte, rest, raw⟩ := List.exists_cons_of_ne_nil some_
    exact raw ▸ p.ofByte_cons byte rest
  intro token member
  cases lexeme with
  | symbol kind text =>
    obtain rfl := List.mem_singleton.mp member
    exact first
  | word text =>
    obtain rfl := List.mem_singleton.mp member
    exact first
  | digits text =>
    obtain rfl := List.mem_singleton.mp member
    exact first
  | quoted mark body value =>
    simp only [tokens, List.mem_cons, List.not_mem_nil, or_false] at member
    rcases member with rfl | rfl | rfl
    · exact first
    · -- behind the opening quote is the text or, if that is empty, the closing one
      obtain ⟨byte, rest, inner⟩ := List.exists_cons_of_ne_nil
        (List.append_ne_nil_of_right_ne_nil body (List.cons_ne_nil mark []))
      exact ⟨[mark], byte, rest, by simp [raw, ← inner], rfl⟩
    · exact ⟨mark :: body, mark, [], by simp [raw], rfl⟩

theorem Quotation.after_eq_escape {q : Quotation} {body value before : Text} {byte : UInt8}
    (same : q.after body value = .escape before byte) :
    ∃ inner, q = .escape inner byte ∧ before = body ++ inner := by
  cases q <;> simp_all [Quotation.after]

/-- The byte that a backslash cannot escape follows what is written before it. -/
theorem readQuotation_escape {input before : Text} {byte : UInt8}
    (read : readQuotation input = .escape before byte) : ∃ rest, input = before ++ byte :: rest := by
  fun_induction readQuotation input generalizing before with
  | case1 => cases read
  | case2 => cases read
  | case3 => cases read
  | case4 =>
    cases read
    exact ⟨_, rfl⟩
  | case5 _ _ _ _ _ _ _ ih =>
    obtain ⟨inner, found, rfl⟩ := Quotation.after_eq_escape read
    obtain ⟨rest, rfl⟩ := ih found
    exact ⟨rest, by simp⟩
  | case6 _ _ _ _ ih =>
    obtain ⟨inner, found, rfl⟩ := Quotation.after_eq_escape read
    obtain ⟨rest, rfl⟩ := ih found
    exact ⟨rest, by simp⟩

/-- The fault of a lexeme is at the byte it starts with or at one of those that follow. -/
theorem ofByte_fault {byte : UInt8} {rest : Text} {fault : LexicalFault}
    (refused : Lexeme.read byte rest = .error fault) (p : Position) :
    p.OfByte (byte :: rest) (fault.diagnose p).position := by
  have here := p.ofByte_cons byte rest
  unfold Lexeme.read at refused
  repeat' split at refused
  all_goals first | contradiction | skip
  all_goals injection refused with found
  all_goals subst found
  case h_1.isFalse body value close after quotation _ =>
    exact ⟨byte :: body, close, after, by simp [readQuotation_append quotation], rfl⟩
  case h_3 before letter quotation =>
    obtain ⟨more, rfl⟩ := readQuotation_escape quotation
    exact ⟨byte :: before, letter, more, rfl, rfl⟩
  all_goals exact here

end Lexeme

theorem LexicalFault.class_diagnose (fault : LexicalFault) (p : Position) :
    (fault.diagnose p).faultClass = .lexical := by
  cases fault <;> rfl

theorem ofByte_of_scanFrom {keywords : Keywords} {p : Position} {input : Text} {fault : Diagnostic}
    (refused : scanFrom keywords p input = .error fault) :
    fault.faultClass = .lexical ∧ p.OfByte input fault.position := by
  fun_induction scanFrom keywords p input with
  | case1 => cases refused
  | case2 p input start byte rest gap found read =>
    cases refused
    refine ⟨found.class_diagnose start, ?_⟩
    rw [← Lexeme.splitGap_append false input, gap]
    exact (Lexeme.ofByte_fault read start).behind _
  | case3 p input start byte rest gap lexeme after read found later ih =>
    cases refused
    obtain ⟨lexical, inside⟩ := ih later
    refine ⟨lexical, ?_⟩
    obtain ⟨tail, raw, rfl⟩ := Lexeme.raw_of_read read
    rw [← Lexeme.splitGap_append false input, gap, ← List.cons_append, ← raw]
    exact (inside.behind _).behind _
  | case4 => cases refused

/-- The tokens of an input: those at its bytes, and the end of input behind them. -/
theorem ofByte_of_tokens {keywords : Keywords} {p : Position} {input : Text} {tokens : List Token}
    (scanned : scanFrom keywords p input = .ok tokens) :
    ∃ front, tokens = front ++ [⟨.endOfInput, [], (p.after input).atEnd⟩] ∧
      ∀ token ∈ front, p.OfByte input token.position := by
  fun_induction scanFrom keywords p input generalizing tokens
  case case1 p input start gap =>
    cases scanned
    have whole := Lexeme.splitGap_append false input
    rw [gap, List.append_nil] at whole
    have ends : start = p.after input := congrArg p.after whole
    exact ⟨[], by rw [ends, List.nil_append], by simp⟩
  case case2 => cases scanned
  case case3 => cases scanned
  case case4 p input start byte rest gap lexeme after read later found ih =>
    cases scanned
    obtain ⟨front, rfl, inside⟩ := ih found
    obtain ⟨tail, raw, rfl⟩ := Lexeme.raw_of_read read
    have whole := Lexeme.splitGap_append false input
    rw [gap, ← List.cons_append, ← raw] at whole
    have ends : (start.after lexeme.raw).after after = p.after input := by
      rw [← whole, Position.after_append, Position.after_append]
    refine ⟨lexeme.tokens keywords start ++ front, by rw [ends, List.append_assoc], ?_⟩
    intro token member
    rw [← whole]
    apply Position.OfByte.behind
    rcases List.mem_append.mp member with own | behind
    · have some_ : lexeme.raw ≠ [] := by simp [raw]
      exact (Lexeme.ofByte_tokens keywords start some_ token own).append after
    · exact (inside token behind).behind _

end Scriptlet
