import Mathlib.Data.List.DropRight
import Scriptlet.Proofs.Cutting
import Scriptlet.Proofs.Places
/-!
Offsets of tokens. Each token of a source stands at an offset, and its place is that of the offset:
one line more than there are line feeds before it, one column more than there are bytes behind the
last of these. Words, numbers, symbols and quotes are what the source holds there; the string
between two quotes stands at the byte behind the first. The end of input is a column back.
-/
namespace Scriptlet

/-- What follows the last line feed. -/
def Text.lastLine (text : Text) : Text := text.rtakeWhile (· != lineFeed)

theorem Position.column_after_start (text : Text) :
    (start.after text).column = 1 + text.lastLine.length := by
  induction text using List.reverseRecOn with
  | nil => rfl
  | append_singleton text byte ih =>
    rw [after_append, after_cons, after_nil, next, Text.lastLine]
    by_cases feed : byte = Text.lineFeed
    · rw [if_pos feed, List.rtakeWhile_concat_neg _ _ _ (by simp [feed])]
      rfl
    · rw [if_neg feed, List.rtakeWhile_concat_pos _ _ _ (by simpa using feed), ih, Text.lastLine]
      simp
      omega

namespace Text

variable {source piece rest : Text} {n : Nat}

theorem take_of_drop (holds : source.drop n = piece ++ rest) :
    source.take (n + piece.length) = source.take n ++ piece := by
  rw [List.take_add, holds, List.take_left]

theorem drop_of_drop (holds : source.drop n = piece ++ rest) :
    source.drop (n + piece.length) = rest := by
  rw [← List.drop_drop, holds, List.drop_left]

theorem le_length_of_drop (holds : source.drop n = piece ++ rest) (fits : n ≤ source.length) :
    n + piece.length ≤ source.length := by
  have length := congrArg List.length holds
  simp only [List.length_drop, List.length_append] at length
  omega

end Text

/-- A token with the offset at which it stands. -/
structure Located where
  token : Token
  offset : Nat

/-- A token at an offset of a source, with the place of that offset. -/
def Located.at_ (source : Text) (offset : Nat) (kind : Kind) (literal : Text) : Located :=
  ⟨⟨kind, literal, Position.start.after (source.take offset)⟩, offset⟩

/-- A string and the quotes around it. The source holds the first quote, what is written for the
string, and the other quote. -/
structure QuotedBy (source : Text) (mark : UInt8) (body : Text)
    (opening value closing : Located) : Prop where
  kind : value.token.kind = .string
  marks : opening.token.literal = [mark] ∧ closing.token.literal = [mark]
  marker : opening.token.kind = closing.token.kind
  quotes : (opening.token.kind, mark) ∈
    [(Kind.quote, Text.quoteMark), (.apostrophe, Text.apostrophe)]
  inside : value.offset = opening.offset + 1
  behind : closing.offset = value.offset + body.length
  written : mark :: body ++ [mark] <+: source.drop opening.offset

/-- The string of a quoted text and its closing quote, which follow the opening one. -/
def Quoted (source : Text) (located : List Located) (value closing : Located) : Prop :=
  ∃ earlier opening later mark body, located = earlier ++ opening :: value :: closing :: later ∧
    QuotedBy source mark body opening value closing

/-- A token that the source holds where it stands. Only reserved words can be called strings. -/
structure Verbatim (keywords : Keywords) (source : Text) (located : Located) : Prop where
  starts : located.token.literal <+: source.drop located.offset
  reserved : located.token.kind = .string → keywords.lookup located.token.literal = some .string

/-- Tokens that stand at bytes from an offset on, in their order. -/
structure StandFrom (keywords : Keywords) (source : Text) (n : Nat) (located : List Located) :
    Prop where
  within : ∀ l ∈ located, n ≤ l.offset ∧ l.offset < source.length
  place : ∀ l ∈ located, l.token.position = Position.start.after (source.take l.offset)
  spelled : ∀ l ∈ located, Verbatim keywords source l ∨ ∃ closing, Quoted source located l closing
  ordered : located.Pairwise fun a b =>
    a.offset < b.offset ∨ (a.offset = b.offset ∧ Quoted source located a b)

variable {keywords : Keywords} {source : Text} {front back : List Located} {n m : Nat}

theorem Quoted.append_right {value closing : Located} (quoted : Quoted source front value closing)
    (back : List Located) : Quoted source (front ++ back) value closing := by
  obtain ⟨earlier, opening, later, mark, body, rfl, enclosed⟩ := quoted
  exact ⟨earlier, opening, later ++ back, mark, body, by simp, enclosed⟩

theorem Quoted.append_left {value closing : Located} (quoted : Quoted source back value closing)
    (front : List Located) : Quoted source (front ++ back) value closing := by
  obtain ⟨earlier, opening, later, mark, body, rfl, enclosed⟩ := quoted
  exact ⟨front ++ earlier, opening, later, mark, body, by simp, enclosed⟩

namespace StandFrom

theorem weaken (stands : StandFrom keywords source m front) (fits : n ≤ m) :
    StandFrom keywords source n front :=
  { stands with within := fun l member => (stands.within l member).imp_left fits.trans }

theorem append (first : StandFrom keywords source n front)
    (second : StandFrom keywords source m back) (fits : n ≤ m)
    (before : ∀ l ∈ front, l.offset < m) : StandFrom keywords source n (front ++ back) := by
  refine ⟨List.forall_mem_append.mpr ⟨first.within, ?_⟩,
    List.forall_mem_append.mpr ⟨first.place, second.place⟩,
    List.forall_mem_append.mpr ⟨?_, ?_⟩, List.pairwise_append.mpr ⟨?_, ?_, ?_⟩⟩
  · intro l later
    exact (second.within l later).imp_left fits.trans
  · intro l own
    exact (first.spelled l own).imp_right fun ⟨closing, quoted⟩ =>
      ⟨closing, quoted.append_right back⟩
  · intro l later
    exact (second.spelled l later).imp_right fun ⟨closing, quoted⟩ =>
      ⟨closing, quoted.append_left front⟩
  · exact first.ordered.imp fun order => order.imp_right (.imp_right (·.append_right back))
  · exact second.ordered.imp fun order => order.imp_right (.imp_right (·.append_left front))
  · intro a own b later
    exact .inl ((before a own).trans_le (second.within b later).1)

end StandFrom

namespace Lexeme

variable {lexeme : Lexeme} {rest : Text}

/-- The kind of a quote. -/
def marker (mark : UInt8) : Kind := if mark = Text.apostrophe then .apostrophe else .quote

/-- The tokens of a lexeme that stands at an offset of a source. -/
def located (keywords : Keywords) (source : Text) (n : Nat) : Lexeme → List Located
  | .symbol kind text => [.at_ source n kind text]
  | .word text => [.at_ source n (keywords.kindOf text) text]
  | .digits text => [.at_ source n .number text]
  | .quoted mark body value =>
    [.at_ source n (marker mark) [mark], .at_ source (n + 1) .string value,
      .at_ source (n + (mark :: body).length) (marker mark) [mark]]

theorem map_token_located (holds : source.drop n = lexeme.raw ++ rest) :
    (lexeme.located keywords source n).map Located.token =
      lexeme.tokens keywords (Position.start.after (source.take n)) := by
  cases lexeme with
  | quoted mark body value =>
    have first : source.drop n = [mark] ++ (body ++ [mark] ++ rest) := by simpa [raw] using holds
    have front : source.drop n = mark :: body ++ mark :: rest := by simpa [raw] using holds
    have second : Position.start.after (source.take (n + 1)) =
        (Position.start.after (source.take n)).next mark :=
      (congrArg Position.start.after (Text.take_of_drop first)).trans (Position.after_append _ _ _)
    have third : Position.start.after (source.take (n + (mark :: body).length)) =
        (Position.start.after (source.take n)).after (mark :: body) := by
      rw [Text.take_of_drop front, Position.after_append]
    simp only [located, Located.at_, tokens, marker, List.map_cons, List.map_nil, second, third]
  | _ => rfl

theorem standFrom_single {kind : Kind} {text : Text} (holds : source.drop n = text ++ rest)
    (inside : n < source.length)
    (reserved : kind = .string → keywords.lookup text = some .string) :
    StandFrom keywords source n [.at_ source n kind text] := by
  refine ⟨by simpa [Located.at_] using inside, by simp [Located.at_], ?_,
    List.pairwise_singleton _ _⟩
  intro l member
  obtain rfl := List.mem_singleton.mp member
  exact .inl ⟨holds ▸ List.prefix_append _ _, reserved⟩

theorem standFrom_quoted {mark : UInt8} {body : Text} (value : Text)
    (holds : source.drop n = mark :: body ++ [mark] ++ rest) (fits : n ≤ source.length)
    (quote : mark = Text.quoteMark ∨ mark = Text.apostrophe) :
    StandFrom keywords source n ((Lexeme.quoted mark body value).located keywords source n) := by
  have first : source.drop n = [mark] ++ (body ++ [mark] ++ rest) := by simpa using holds
  have front : source.drop n = mark :: body ++ mark :: rest := by simpa using holds
  have whole := Text.le_length_of_drop holds fits
  have last := Text.drop_of_drop front
  have count : n + (mark :: body).length = n + 1 + body.length := Nat.add_right_comm n body.length 1
  have quotes : (marker mark, mark) ∈
      [(Kind.quote, Text.quoteMark), (.apostrophe, Text.apostrophe)] := by
    rcases quote with rfl | rfl <;> decide
  have plain : marker mark ≠ .string := by
    rw [marker]
    split <;> decide
  have quoted : Quoted source ((Lexeme.quoted mark body value).located keywords source n)
      (.at_ source (n + 1) .string value)
      (.at_ source (n + (mark :: body).length) (marker mark) [mark]) :=
    ⟨[], _, [], mark, body, rfl, rfl, ⟨rfl, rfl⟩, rfl, quotes, rfl, count,
      holds ▸ List.prefix_append _ _⟩
  refine ⟨?_, ?_, ?_, ?_⟩
  · simp [located, Located.at_] at whole ⊢
    omega
  · simp [located, Located.at_]
  · intro l member
    simp only [located, List.mem_cons, List.not_mem_nil, or_false] at member
    rcases member with rfl | rfl | rfl
    · exact .inl ⟨first ▸ List.prefix_append _ _, fun called => absurd called plain⟩
    · exact .inr ⟨_, quoted⟩
    · exact .inl ⟨last ▸ List.prefix_append [mark] rest, fun called => absurd called plain⟩
  · refine List.pairwise_cons.mpr ⟨?_, List.pairwise_pair.mpr ?_⟩
    · intro l member
      simp only [List.mem_cons, List.not_mem_nil, or_false] at member
      left
      rcases member with rfl | rfl
      · exact Nat.lt_succ_self n
      · exact Nat.lt_add_of_pos_right (Nat.succ_pos _)
    · -- nothing may be written between the quotes
      rcases Nat.eq_zero_or_pos body.length with empty | filled
      · exact .inr ⟨by simp [Located.at_, empty], quoted⟩
      · exact .inl (count ▸ Nat.lt_add_of_pos_right filled)

theorem Lexical.standFrom (lexical : lexeme.Lexical) (holds : source.drop n = lexeme.raw ++ rest)
    (fits : n ≤ source.length) :
    StandFrom keywords source n (lexeme.located keywords source n) := by
  have inside : n < source.length := by
    obtain ⟨byte, tail, raw⟩ := lexical.raw_cons
    have := Text.le_length_of_drop holds fits
    rw [raw, List.length_cons] at this
    omega
  cases lexical with
  | @symbol text kind listed =>
    have plain : ∀ symbol ∈ symbols, symbol.2 ≠ .string := by decide
    exact standFrom_single holds inside fun called => absurd called (plain _ listed)
  | word =>
    refine standFrom_single holds inside ?_
    intro called
    exact (Option.getD_eq_iff.mp called).resolve_right (by simp)
  | digits =>
    have plain : Kind.number ≠ .string := by decide
    exact standFrom_single holds inside fun called => absurd called plain
  | quoted quote => exact standFrom_quoted _ holds fits quote

theorem offset_lt_of_located (lexical : lexeme.Lexical) :
    ∀ l ∈ lexeme.located keywords source n, l.offset < n + lexeme.raw.length := by
  obtain ⟨byte, tail, spelled⟩ := lexical.raw_cons
  have some_ : 0 < lexeme.raw.length := spelled ▸ Nat.succ_pos _
  cases lexeme with
  | quoted mark body value =>
    simp [located, Located.at_, raw]
  | _ => simpa [located, Located.at_] using some_

end Lexeme

theorem exists_standFrom_of_scanFrom {p : Position} {input : Text} {tokens : List Token}
    (scanned : scanFrom keywords p input = .ok tokens) (holds : source.drop n = input)
    (fits : n ≤ source.length) (here : p = Position.start.after (source.take n)) :
    ∃ located, tokens = located.map Located.token ++
        [⟨.endOfInput, [], (Position.start.after source).atEnd⟩] ∧
      StandFrom keywords source n located := by
  fun_induction scanFrom keywords p input generalizing n tokens
  case case1 p input start gap =>
    cases scanned
    have whole := Lexeme.splitGap_append false input
    rw [gap, List.append_nil] at whole
    have ends : start = Position.start.after source := by
      simp only [start]
      rw [here, ← Position.after_append, whole, ← holds, List.take_append_drop]
    exact ⟨[], by rw [ends]; rfl, by simp, by simp, by simp, .nil⟩
  case case2 => cases scanned
  case case3 => cases scanned
  case case4 p input start byte rest gap lexeme after read later found ih =>
    cases scanned
    obtain ⟨longest, split⟩ := Lexeme.read_eq_ok_iff.mp read
    have whole := (Lexeme.splitGap_append false input).symm
    rw [gap, split] at whole
    have behindGap := holds.trans whole
    have solid := Text.drop_of_drop behindGap
    have inside := Text.le_length_of_drop behindGap fits
    have place : start =
        Position.start.after (source.take (n + (Lexeme.splitGap false input).1.length)) := by
      rw [Text.take_of_drop behindGap, Position.after_append, ← here]
    have later := Nat.le_add_right n (Lexeme.splitGap false input).1.length
    generalize n + (Lexeme.splitGap false input).1.length = m at solid inside place later
    have next : start.after lexeme.raw =
        Position.start.after (source.take (m + lexeme.raw.length)) := by
      rw [Text.take_of_drop solid, Position.after_append, ← place]
    obtain ⟨further, rfl, standsFurther⟩ :=
      ih found (Text.drop_of_drop solid) (Text.le_length_of_drop solid inside) next
    refine ⟨lexeme.located keywords source m ++ further, ?_, ?_⟩
    · rw [place, List.map_append, Lexeme.map_token_located solid, List.append_assoc]
    · have stands : StandFrom keywords source m (lexeme.located keywords source m) :=
        longest.lexical.standFrom solid inside
      exact (stands.append standsFurther (Nat.le_add_right _ _)
        (Lexeme.offset_lt_of_located longest.lexical)).weaken later

/-- The end of input: behind the last byte, and on the last line, in the column of its last byte. -/
def Located.ending (source : Text) : Located :=
  ⟨⟨.endOfInput, [], ⟨1 + source.count Text.lineFeed, source.lastLine.length⟩⟩, source.length⟩

/-- What is exact about the places of the tokens of a source, the last of which is the end of input.
Two tokens share an offset only if they are an empty string and its closing quote. -/
structure ExactPlaces (keywords : Keywords) (source : Text) (tokens : List Token)
    (front : List Located) : Prop where
  one_each : (front ++ [Located.ending source]).map Located.token = tokens
  ordered : (front ++ [Located.ending source]).Pairwise fun a b => a.offset ≤ b.offset
  inside : ∀ l ∈ front, l.offset < source.length
  line : ∀ l ∈ front ++ [Located.ending source],
    l.token.position.line = 1 + (source.take l.offset).count Text.lineFeed
  column : ∀ l ∈ front, l.token.position.column = 1 + (Text.lastLine (source.take l.offset)).length
  starts : ∀ l ∈ front, l.token.kind ≠ .string → l.token.literal <+: source.drop l.offset
  string : ∀ l ∈ front, l.token.kind = .string →
    (keywords.lookup l.token.literal = some .string ∧ l.token.literal <+: source.drop l.offset) ∨
      ∃ closing, Quoted source front l closing
  shared : (front ++ [Located.ending source]).Pairwise fun a b =>
    a.offset = b.offset → Quoted source front a b

/-- The places of tokens are exact. -/
theorem positions_exact {tokens : List Token} (scanned : scan keywords source = .ok tokens) :
    ∃ front, ExactPlaces keywords source tokens front := by
  obtain ⟨front, rfl, stands⟩ :=
    exists_standFrom_of_scanFrom scanned rfl (Nat.zero_le _) (by simp)
  have line := Position.line_after Position.start
  have column := Position.column_after_start
  have last : (Position.start.after source).atEnd =
      ⟨1 + source.count Text.lineFeed, source.lastLine.length⟩ := by
    rw [Position.atEnd, line, column, Int.add_sub_assoc, Int.add_comm 1, Int.sub_add_cancel]
    rfl
  rw [last]
  have order : (front ++ [Located.ending source]).Pairwise fun a b =>
      a.offset < b.offset ∨ (a.offset = b.offset ∧ Quoted source front a b) := by
    refine List.pairwise_append.mpr ⟨stands.ordered, List.pairwise_singleton _ _, ?_⟩
    intro a own b other
    obtain rfl := List.mem_singleton.mp other
    exact .inl (stands.within a own).2
  refine ⟨front, List.map_append, order.imp ?_, fun l member => (stands.within l member).2,
    ?_, ?_, ?_, ?_, order.imp ?_⟩
  · intro a b before
    exact before.elim Nat.le_of_lt fun shared => Nat.le_of_eq shared.1
  · refine List.forall_mem_append.mpr ⟨?_, List.forall_mem_singleton.mpr ?_⟩
    · intro l own
      rw [stands.place l own, line]
      rfl
    · rw [Located.ending, List.take_length]
  · intro l member
    rw [stands.place l member, column]
  · intro l member other
    rcases stands.spelled l member with written | ⟨closing, _, _, _, _, _, _, quoted⟩
    · exact written.starts
    · exact absurd quoted.kind other
  · intro l member called
    exact (stands.spelled l member).imp_left fun written =>
      ⟨written.reserved called, written.starts⟩
  · intro a b before same
    exact (before.resolve_left same.not_lt).2

/-- A name, a comment, a string of two lines and an empty string. -/
def strewn : Text := utf8 "a # b\n\"c\n\" ''"

def strewnTokens : List Token :=
  [⟨.name, utf8 "a", ⟨1, 1⟩⟩, ⟨.quote, utf8 "\"", ⟨2, 1⟩⟩, ⟨.string, utf8 "c\n", ⟨2, 2⟩⟩,
    ⟨.quote, utf8 "\"", ⟨3, 1⟩⟩, ⟨.apostrophe, utf8 "'", ⟨3, 3⟩⟩, ⟨.string, [], ⟨3, 4⟩⟩,
    ⟨.apostrophe, utf8 "'", ⟨3, 4⟩⟩, ⟨.endOfInput, [], ⟨3, 4⟩⟩]

theorem strewn_exact :
    scan Keywords.default strewn = .ok strewnTokens ∧
      ∃ front, ExactPlaces Keywords.default strewn strewnTokens front := by
  have scanned : scan Keywords.default strewn = .ok strewnTokens := by decide +kernel
  exact ⟨scanned, positions_exact scanned⟩

/-- A keyword can be called a string, and needs no quotes then. -/
theorem string_not_always_quoted :
    ¬ ∀ (keywords : Keywords) (source : Text) (tokens : List Token),
      scan keywords source = .ok tokens → ∃ located : List Located,
        located.map Located.token = tokens ∧ ∀ l ∈ located, l.token.kind = .string →
          ∃ before quote rest, Lexeme.isQuote quote = true ∧ source = before ++ quote :: rest ∧
            l.offset = before.length + 1 := by
  intro always
  have scanned : scan [(utf8 "x", .string)] (utf8 "x") =
      .ok [⟨.string, utf8 "x", ⟨1, 1⟩⟩, ⟨.endOfInput, [], ⟨1, 1⟩⟩] := by decide +kernel
  obtain ⟨located, tokens, quoted⟩ := always _ _ _ scanned
  obtain ⟨first, more, rfl⟩ : ∃ first more, located = first :: more := by
    cases located <;> simp_all
  have called : first.token.kind = .string := by simp_all
  obtain ⟨before, quote, rest, isQuote, source, -⟩ := quoted first List.mem_cons_self called
  have plain : ∀ byte ∈ utf8 "x", Lexeme.isQuote byte = false := by decide +kernel
  have different := plain quote (source ▸ by simp)
  simp [isQuote] at different

end Scriptlet
