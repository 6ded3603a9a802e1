import Scriptlet.Proofs.LineEnds
import Scriptlet.Proofs.Offsets
/-!
Refusals. A source that cannot be scanned is cut into gaps and longest lexemes up to a text that starts
with none, and how that text starts decides which fault is reported, at which of its bytes and with what
details. Scanning goes on as long as it can, so no later fault is reported and none is overlooked.
-/
namespace Scriptlet

/-- The place of the byte at an offset. -/
def Position.ofOffset (source : Text) (n : Nat) : Position :=
  ⟨1 + (source.take n).count Text.lineFeed, 1 + (Text.lastLine (source.take n)).length⟩

theorem Position.start_after_take (source : Text) (n : Nat) :
    start.after (source.take n) = ofOffset source n := by
  have line : (start.after (source.take n)).line = 1 + (source.take n).count Text.lineFeed :=
    line_after start _
  rw [ofOffset, ← line, ← column_after_start]

namespace Lexeme

/-- How a text fails to start with a lexeme: with which fault, behind how many bytes, and what the fault
tells. -/
inductive Refused : Text → Fault → Nat → Details → Prop where
  /-- LEX-0001: no lexeme starts with the byte. -/
  | unrecognized {byte rest} :
      (∀ lexeme : Lexeme, lexeme.Lexical → lexeme.raw.head? ≠ some byte) →
        Refused (byte :: rest) .unrecognizedCharacter 0
          [(utf8 "Char", .text (LexicalFault.charText byte))]
  /-- LEX-0005: half of an operator that is written twice. -/
  | half {byte rest} :
      byte = 38 ∨ byte = 124 → rest.head? ≠ some byte →
        Refused (byte :: rest) .loneOperatorHalf 0
          [(utf8 "Char", .text (LexicalFault.charText byte))]
  /-- LEX-0004: behind a backslash stands a byte that it cannot escape. -/
  | escape {mark body value letter rest} :
      mark = Text.quoteMark ∨ mark = Text.apostrophe → Means body value →
        (∀ meaning, (letter, meaning) ∉ escapes) →
          Refused (mark :: (body ++ Text.backslash :: letter :: rest)) .unknownEscape
            (body.length + 2) [(utf8 "Char", .text (LexicalFault.charText letter))]
  /-- LEX-0003: the first quote that is not escaped is the other one. -/
  | mismatch {mark body value close rest} :
      mark = Text.quoteMark ∨ mark = Text.apostrophe → Means body value →
        close = Text.quoteMark ∨ close = Text.apostrophe → close ≠ mark →
          Refused (mark :: (body ++ close :: rest)) .mismatchedQuotes (body.length + 1)
            [(utf8 "Open", .text (LexicalFault.charText mark)),
              (utf8 "Close", .text (LexicalFault.charText close))]
  /-- LEX-0002: the input ends before a quote, and perhaps behind a backslash. -/
  | unterminated {mark body value last} :
      mark = Text.quoteMark ∨ mark = Text.apostrophe → Means body value →
        last = [] ∨ last = [Text.backslash] →
          Refused (mark :: (body ++ last)) .unterminatedString 0
            [(utf8 "Quote", .text (LexicalFault.charText mark))]

theorem isQuote_of_closed {input body value rest : Text} {close : UInt8}
    (read : readQuotation input = .closed body value close rest) : isQuote close = true := by
  fun_induction readQuotation input generalizing body value with
  | case1 => cases read
  | case2 _ _ quote =>
    cases read
    exact quote
  | case3 => cases read
  | case4 => cases read
  | case5 _ _ _ _ _ _ _ ih =>
    obtain ⟨_, _, inner, -, -⟩ := Quotation.after_eq_closed.mp read
    exact ih inner
  | case6 _ _ _ _ ih =>
    obtain ⟨_, _, inner, -, -⟩ := Quotation.after_eq_closed.mp read
    exact ih inner

theorem means_of_unclosed {input : Text} (read : readQuotation input = .unclosed) :
    ∃ body value last, input = body ++ last ∧ Means body value ∧
      (last = [] ∨ last = [Text.backslash]) := by
  fun_induction readQuotation input with
  | case1 => exact ⟨[], [], [], rfl, .nothing, .inl rfl⟩
  | case2 => cases read
  | case3 byte _ escape =>
    obtain rfl : byte = Text.backslash := by simpa using escape
    exact ⟨[], [], [Text.backslash], rfl, .nothing, .inr rfl⟩
  | case4 => cases read
  | case5 byte _ escape letter more meaning known ih =>
    obtain rfl : byte = Text.backslash := by simpa using escape
    have inner : readQuotation more = .unclosed := by
      cases found : readQuotation more <;> simp_all [Quotation.after]
    obtain ⟨body, value, last, rfl, means, ends⟩ := ih inner
    exact ⟨Text.backslash :: letter :: body, meaning :: value, last, rfl,
      .escape (escaped?_eq_some_iff.mp known) means, ends⟩
  | case6 byte rest plain noBackslash ih =>
    have inner : readQuotation rest = .unclosed := by
      cases found : readQuotation rest <;> simp_all [Quotation.after]
    obtain ⟨body, value, last, rfl, means, ends⟩ := ih inner
    simp only [isQuote_iff, not_or] at plain
    exact ⟨byte :: body, byte :: value, last, rfl,
      .plain plain.1 plain.2 (by simpa using noBackslash) means, ends⟩

theorem means_of_escape {input before : Text} {letter : UInt8}
    (read : readQuotation input = .escape before letter) :
    ∃ body value rest, input = body ++ Text.backslash :: letter :: rest ∧ Means body value ∧
      before = body ++ [Text.backslash] ∧ escaped? letter = none := by
  fun_induction readQuotation input generalizing before with
  | case1 => cases read
  | case2 => cases read
  | case3 => cases read
  | case4 byte _ escape letter more unknown =>
    obtain rfl : byte = Text.backslash := by simpa using escape
    cases read
    exact ⟨[], [], more, rfl, .nothing, rfl, unknown⟩
  | case5 byte _ escape known more meaning means ih =>
    obtain rfl : byte = Text.backslash := by simpa using escape
    obtain ⟨inner, found, rfl⟩ := Quotation.after_eq_escape read
    obtain ⟨body, value, rest, rfl, inside, rfl, unknown⟩ := ih found
    exact ⟨Text.backslash :: known :: body, meaning :: value, rest, rfl,
      .escape (escaped?_eq_some_iff.mp means) inside, rfl, unknown⟩
  | case6 byte rest plain noBackslash ih =>
    obtain ⟨inner, found, rfl⟩ := Quotation.after_eq_escape read
    obtain ⟨body, value, rest, rfl, inside, rfl, unknown⟩ := ih found
    simp only [isQuote_iff, not_or] at plain
    exact ⟨byte :: body, byte :: value, rest, rfl,
      .plain plain.1 plain.2 (by simpa using noBackslash) inside, rfl, unknown⟩

/-- The fault is of a kind, behind so many bytes of a text, and tells this. -/
def Reports (text : Text) (fault : LexicalFault) (kind : Fault) (n : Nat) (details : Details) : Prop :=
  ∀ p, fault.diagnose p = (kind.diagnose (some details)).placedAt (p.after (text.take n))

theorem reports_escape (mark letter : UInt8) (body rest : Text) :
    Reports (mark :: (body ++ Text.backslash :: letter :: rest))
      (.escape (mark :: (body ++ [Text.backslash])) letter) .unknownEscape (body.length + 2)
      [(utf8 "Char", .text (LexicalFault.charText letter))] := by
  intro p
  have taken : (mark :: (body ++ Text.backslash :: letter :: rest)).take (body.length + 2) =
      mark :: (body ++ [Text.backslash]) := by simp [List.take_append, List.take_of_length_le]
  rw [taken]
  rfl

theorem reports_mismatch (mark close : UInt8) (body rest : Text) :
    Reports (mark :: (body ++ close :: rest)) (.mismatch mark close (mark :: body))
      .mismatchedQuotes (body.length + 1)
      [(utf8 "Open", .text (LexicalFault.charText mark)),
        (utf8 "Close", .text (LexicalFault.charText close))] := by
  intro p
  have taken : (mark :: (body ++ close :: rest)).take (body.length + 1) = mark :: body := by simp
  rw [taken]
  rfl

/-- A lexeme that starts with a byte can be read at it, or one can that is longer. -/
theorem exists_read_of_head {lexeme : Lexeme} {byte : UInt8} (lexical : lexeme.Lexical)
    (head : lexeme.raw.head? = some byte) :
    ∃ rest read, Lexeme.read byte rest = .ok read := by
  obtain ⟨first, tail, raw⟩ := lexical.raw_cons
  obtain rfl : first = byte := by simpa [raw] using head
  have input : first :: tail = lexeme.raw ++ [] := by rw [raw, List.append_nil]
  rcases lexical.readsAtLeast input with found | ⟨_, _, found, -⟩
  · exact ⟨_, _, found⟩
  · exact ⟨_, _, found⟩

/-- Whether a byte is recognized does not depend on what follows it. -/
theorem read_unrecognized {byte other : UInt8} {rest : Text}
    (refused : Lexeme.read byte rest = .error (.unrecognized other)) (later : Text) :
    Lexeme.read byte later = .error (.unrecognized byte) := by
  unfold Lexeme.read at refused
  repeat' split at refused
  all_goals first | contradiction | cases refused
  unfold Lexeme.read
  simp only [*]
  rfl

theorem exists_refused {byte : UInt8} {rest : Text} {fault : LexicalFault}
    (read : Lexeme.read byte rest = .error fault) :
    ∃ kind n details, Refused (byte :: rest) kind n details ∧
      Reports (byte :: rest) fault kind n details := by
  have whole := read
  unfold Lexeme.read at read
  repeat' split at read
  all_goals first | contradiction | skip
  all_goals injection read with found
  all_goals subst found
  case h_1.isFalse quote _ body value close after quotation different =>
    obtain rfl := readQuotation_append quotation
    exact ⟨_, _, _, .mismatch (isQuote_iff.mp quote) (means_of_readQuotation quotation)
      (isQuote_iff.mp (isQuote_of_closed quotation)) (by simpa using different),
      reports_mismatch byte close body after⟩
  case h_2 quote _ quotation =>
    obtain ⟨body, value, last, rfl, means, ends⟩ := means_of_unclosed quotation
    exact ⟨_, _, _, .unterminated (isQuote_iff.mp quote) means ends, fun _ => rfl⟩
  case h_3 quote _ before letter quotation =>
    obtain ⟨body, value, more, rfl, means, rfl, unknown⟩ := means_of_escape quotation
    have listed : ∀ meaning, (letter, meaning) ∉ escapes := by
      intro meaning known
      rw [escaped?_eq_some_iff.mpr known] at unknown
      cases unknown
    exact ⟨_, _, _, .escape (isQuote_iff.mp quote) means listed,
      reports_escape byte letter body more⟩
  case h_1.isFalse half _ next after different =>
    have other : (next :: after).head? ≠ some byte := by simpa using different
    exact ⟨_, _, _, .half (by simpa using half) other, fun _ => rfl⟩
  case h_2 half _ =>
    exact ⟨_, _, _, .half (by simpa using half) (by simp), fun _ => rfl⟩
  case h_2.isFalse.isFalse.isFalse.isFalse.isFalse.isFalse.isFalse =>
    refine ⟨_, _, _, .unrecognized ?_, fun _ => rfl⟩
    intro lexeme lexical head
    obtain ⟨later, _, found⟩ := exists_read_of_head lexical head
    rw [read_unrecognized whole later] at found
    cases found

theorem read_quote {mark : UInt8} (quote : mark = Text.quoteMark ∨ mark = Text.apostrophe)
    (rest : Text) :
    Lexeme.read mark rest =
      match readQuotation rest with
      | .closed body value close after =>
        if close == mark then .ok (.quoted mark body value, after)
        else .error (.mismatch mark close (mark :: body))
      | .unclosed => .error (.unterminated mark)
      | .escape before letter => .error (.escape (mark :: before) letter) := by
  rcases quote with rfl | rfl <;> rfl

theorem readQuotation_unknown {letter : UInt8} (unknown : ∀ meaning, (letter, meaning) ∉ escapes)
    (rest : Text) :
    readQuotation (Text.backslash :: letter :: rest) = .escape [Text.backslash] letter := by
  have plain : isQuote Text.backslash = false := by decide
  have none : escaped? letter = none :=
    Option.eq_none_iff_forall_not_mem.mpr fun meaning known =>
      unknown meaning (escaped?_eq_some_iff.mp known)
  rw [readQuotation.eq_def]
  simp [plain, none]

/-- A refused text starts with a byte at which no lexeme is read. -/
theorem Refused.read {text : Text} {kind : Fault} {n : Nat} {details : Details}
    (refused : Refused text kind n details) :
    ∃ byte rest fault, text = byte :: rest ∧ Lexeme.read byte rest = .error fault ∧
      Reports text fault kind n details := by
  cases refused with
  | @unrecognized byte rest none =>
    rcases found : Lexeme.read byte rest with fault | ⟨lexeme, after⟩
    · obtain ⟨kind, n, details, refused, reports⟩ := exists_refused found
      cases refused with
      | unrecognized => exact ⟨byte, rest, fault, rfl, found, reports⟩
      | half which =>
        have doubled : ([byte, byte], Kind.booleanOperator) ∈ symbols := by
          rcases which with rfl | rfl <;> decide
        exact absurd rfl (none _ (.symbol doubled))
      | escape quote => exact absurd rfl (none _ (.quoted quote .nothing))
      | mismatch quote => exact absurd rfl (none _ (.quoted quote .nothing))
      | unterminated quote => exact absurd rfl (none _ (.quoted quote .nothing))
    · obtain ⟨tail, raw, -⟩ := raw_of_read found
      exact absurd (by rw [raw]; rfl) (none lexeme (lexical_of_read found))
  | @half byte rest which alone =>
    refine ⟨byte, rest, .half byte, rfl, ?_, fun _ => rfl⟩
    cases rest with
    | nil => rcases which with rfl | rfl <;> rfl
    | cons next after =>
      have different : next ≠ byte := by simpa using alone
      rcases which with rfl | rfl <;>
        simp [Lexeme.read, delimiter?, isQuote, Text.quoteMark, Text.apostrophe, different]
  | @escape mark body value letter rest quote means unknown =>
    have quotation := readQuotation_behind means (Text.backslash :: letter :: rest)
    rw [readQuotation_unknown unknown] at quotation
    refine ⟨_, _, _, rfl, ?_, reports_escape mark letter body rest⟩
    rw [read_quote quote, quotation]
    rfl
  | @mismatch mark body value close rest quote means other different =>
    have quotation : readQuotation (body ++ close :: rest) = .closed body value close rest :=
      readQuotation_of_means means (isQuote_iff.mpr other)
    refine ⟨_, _, _, rfl, ?_, reports_mismatch mark close body rest⟩
    rw [read_quote quote, quotation]
    simp [different]
  | @unterminated mark body value last quote means ends =>
    have quotation := readQuotation_behind means last
    refine ⟨_, _, .unterminated mark, rfl, ?_, fun _ => rfl⟩
    rw [read_quote quote, quotation]
    rcases ends with rfl | rfl <;> rfl

theorem Refused.none {text : Text} {kind : Fault} {n : Nat} {details : Details}
    (refused : Refused text kind n details) {lexeme : Lexeme} (lexical : lexeme.Lexical) :
    ¬ lexeme.raw <+: text := by
  rintro ⟨after, input⟩
  obtain ⟨byte, rest, fault, rfl, read, -⟩ := refused.read
  rcases lexical.readsAtLeast input.symm with found | ⟨_, _, found, -⟩
  · rw [read] at found
    cases found
  · rw [read] at found
    cases found

end Lexeme

/-- The cut is one of a text that `rest` follows: gaps, each with the longest lexeme behind it, and the
gap before `rest`. -/
inductive Cut.Precedes : Cut → Text → Text → Prop where
  | last {gap rest} : Lexeme.Gap gap rest → Precedes ⟨[], gap⟩ gap rest
  | piece {gap lexeme before rest pieces last} :
      Lexeme.Gap gap (lexeme.raw ++ (before ++ rest)) →
        lexeme.Longest (lexeme.raw ++ (before ++ rest)) → Precedes ⟨pieces, last⟩ before rest →
          Precedes ⟨(gap, lexeme) :: pieces, last⟩ (gap ++ (lexeme.raw ++ before)) rest

/-- A source that is cut up to `rest`, which is outside gaps and starts with no lexeme, and the fault
behind `n` bytes of it. -/
structure FirstFault (source : Text) (cut : Cut) (before rest : Text) (kind : Fault) (n : Nat)
    (details : Details) : Prop where
  whole : source = before ++ rest
  precedes : cut.Precedes before rest
  outside : Lexeme.Solid rest
  none : ∀ lexeme : Lexeme, lexeme.Lexical → ¬ lexeme.raw <+: rest
  refused : Lexeme.Refused rest kind n details

theorem exists_firstFault_of_scanFrom {keywords : Keywords} {p : Position} {source : Text}
    {fault : Diagnostic} (failed : scanFrom keywords p source = .error fault) :
    ∃ cut before rest kind n details, FirstFault source cut before rest kind n details ∧
      fault = (kind.diagnose (some details)).placedAt (p.after (before ++ rest.take n)) := by
  fun_induction scanFrom keywords p source with
  | case1 => cases failed
  | case2 p source start byte rest found fault read =>
    cases failed
    have whole := Lexeme.splitGap_append false source
    obtain ⟨gap, solid⟩ := (Lexeme.gap_splitGap source).1
    rw [found] at whole gap solid
    obtain ⟨kind, n, details, refused, reports⟩ := Lexeme.exists_refused read
    refine ⟨_, _, _, kind, n, details,
      ⟨whole.symm, .last gap, solid, fun _ lexical => refused.none lexical, refused⟩, ?_⟩
    rw [reports, Position.after_append]
  | case3 p source start byte rest found lexeme after read fault failedLater ih =>
    cases failed
    obtain ⟨⟨pieces, last⟩, before, behind, kind, n, details, first, rfl⟩ := ih failedLater
    obtain ⟨longest, input⟩ := Lexeme.read_eq_ok_iff.mp read
    have whole := Lexeme.splitGap_append false source
    have gap := (Lexeme.gap_splitGap source).1.1
    rw [found, input, first.whole] at whole gap
    rw [input, first.whole] at longest
    refine ⟨_, _, behind, kind, n, details,
      { first with whole := ?_, precedes := .piece gap longest first.precedes }, ?_⟩
    · simpa only [List.append_assoc] using whole.symm
    · simp [start, Position.after_append]
  | case4 => cases failed

theorem Cut.Precedes.scanFrom {cut : Cut} {before rest : Text} {kind : Fault} {n : Nat}
    {details : Details} (precedes : cut.Precedes before rest) (outside : Lexeme.Solid rest)
    (refused : Lexeme.Refused rest kind n details) (keywords : Keywords) (p : Position) :
    Scriptlet.scanFrom keywords p (before ++ rest) =
      .error ((kind.diagnose (some details)).placedAt (p.after (before ++ rest.take n))) := by
  induction precedes generalizing p with
  | @last gap rest before =>
    have split := before.splitGap outside
    obtain ⟨byte, later, fault, rfl, read, reports⟩ := refused.read
    rw [scanFrom_of_fault (by rw [split]) read, reports, split, Position.after_append]
  | @piece gap lexeme before rest pieces last gapped longest _ ih =>
    obtain ⟨byte, tail, split, read⟩ := read_of_piece gapped longest
    have whole : gap ++ (lexeme.raw ++ before) ++ rest = gap ++ (lexeme.raw ++ (before ++ rest)) := by
      simp
    rw [whole, scanFrom_of_read (by rw [split]) read, split, ih outside refused]
    simp [Except.map, Position.after_append]

/-- Scanning fails exactly where a source has been cut into gaps and longest lexemes up to a text outside
gaps that starts with no lexeme. The fault is the one of this text, at its place in the source. -/
theorem scan_fails_iff_firstFault (keywords : Keywords) (source : Text) (fault : Diagnostic) :
    scan keywords source = .error fault ↔
      ∃ cut before rest kind n details, FirstFault source cut before rest kind n details ∧
        fault = (kind.diagnose (some details)).placedAt
          (Position.ofOffset source (before.length + n)) := by
  have place (before rest : Text) (n : Nat) : Position.start.after (before ++ rest.take n) =
      Position.ofOffset (before ++ rest) (before.length + n) := by
    rw [← Position.start_after_take, List.take_length_add_append]
  constructor
  · intro failed
    obtain ⟨cut, before, rest, kind, n, details, first, rfl⟩ := exists_firstFault_of_scanFrom failed
    exact ⟨cut, before, rest, kind, n, details, first, by rw [first.whole, place]⟩
  · rintro ⟨cut, before, rest, kind, n, details, ⟨rfl, precedes, outside, -, refused⟩, rfl⟩
    rw [scan, precedes.scanFrom outside refused, place]

end Scriptlet
