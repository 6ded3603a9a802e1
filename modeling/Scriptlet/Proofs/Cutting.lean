import Mathlib.Data.List.Basic
import Scriptlet.Proofs.Spelling
/-!
The lexical grammar. A source is cut, from left to right, into gaps and the longest lexemes that start
where a gap ends. Scanning finds the cut if there is one, there is at most one, and the tokens are those
of its lexemes in order.
-/
namespace Scriptlet

/-- The kind and the literal of a token. -/
def Token.content (token : Token) : Kind × Text := (token.kind, token.literal)

namespace Lexeme

def symbols : List (Text × Kind) :=
  [(utf8 "(", .openParen), (utf8 ")", .closeParen), (utf8 "\x7b", .openBrace),
    (utf8 "\x7d", .closeBrace), (utf8 "[", .openBracket), (utf8 "]", .closeBracket),
    (utf8 ";", .semicolon), (utf8 ":", .colon), (utf8 ",", .comma), (utf8 ".", .dot),
    (utf8 "+", .binaryOperator), (utf8 "-", .binaryOperator), (utf8 "*", .binaryOperator),
    (utf8 "/", .binaryOperator), (utf8 "%", .binaryOperator), (utf8 "++", .unaryOperator),
    (utf8 "--", .unaryOperator), (utf8 "**", .unaryOperator), (utf8 "//", .unaryOperator),
    (utf8 "<", .booleanOperator), (utf8 ">", .booleanOperator), (utf8 "<=", .booleanOperator),
    (utf8 ">=", .booleanOperator), (utf8 "==", .booleanOperator), (utf8 "&&", .booleanOperator),
    (utf8 "||", .booleanOperator), (utf8 "=", .assign)]

/-- The letters that may stand behind a backslash, each with the byte that it means there: line feed,
carriage return, tabs, form feed, zero, the quotes and the backslash. -/
def escapes : List (UInt8 × UInt8) :=
  [(110, 10), (114, 13), (116, 9), (118, 11), (102, 12), (48, 0), (34, 34), (39, 39), (92, 92)]

/-- What may be written between quotes, and what it means. -/
inductive Means : Text → Text → Prop where
  | nothing : Means [] []
  | plain {byte body value} :
      byte ≠ Text.quoteMark → byte ≠ Text.apostrophe → byte ≠ Text.backslash →
        Means body value → Means (byte :: body) (byte :: value)
  | escape {letter meaning body value} :
      (letter, meaning) ∈ escapes → Means body value →
        Means (Text.backslash :: letter :: body) (meaning :: value)

/-- The lexemes that there are. -/
inductive Lexical : Lexeme → Prop where
  | symbol {text kind} : (text, kind) ∈ symbols → Lexical (.symbol kind text)
  | word {first rest} :
      Text.isLetter first = true →
        (∀ byte ∈ rest, (Text.isLetter byte || Text.isDigit byte) = true) →
          Lexical (.word (first :: rest))
  | digits {text} : text.IsDigits → Lexical (.digits text)
  | quoted {mark body value} :
      mark = Text.quoteMark ∨ mark = Text.apostrophe → Means body value →
        Lexical (.quoted mark body value)

/-- The longest lexeme that an input starts with. -/
structure Longest (lexeme : Lexeme) (input : Text) : Prop where
  lexical : lexeme.Lexical
  starts : lexeme.raw <+: input
  longest : ∀ other : Lexeme, other.Lexical → other.raw <+: input →
    other.raw.length ≤ lexeme.raw.length

/-- The kinds and literals of the tokens of a lexeme. -/
def contents (keywords : Keywords) : Lexeme → List (Kind × Text)
  | .symbol kind text => [(kind, text)]
  | .word text => [((keywords.lookup text).getD .name, text)]
  | .digits text => [(.number, text)]
  | .quoted mark _ value =>
    let marker := if mark = Text.apostrophe then (.apostrophe, [mark]) else (.quote, [mark])
    [marker, (.string, value), marker]

theorem content_tokens (keywords : Keywords) (p : Position) (lexeme : Lexeme) :
    (lexeme.tokens keywords p).map Token.content = lexeme.contents keywords := by
  cases lexeme with
  | quoted mark body value =>
    by_cases mark = Text.apostrophe <;> simp [*, tokens, contents, Token.content]
  | _ => rfl

/-! A gap that may stand before a text: blanks, and comments up to a line feed or the end. -/

inductive Gap : Text → Text → Prop where
  | nothing {rest} : Gap [] rest
  | blank {byte gap rest} : isBlank byte = true → Gap gap rest → Gap (byte :: gap) rest
  | comment {text gap rest} :
      (∀ byte ∈ text, byte ≠ Text.lineFeed) →
        (gap ++ rest = [] ∨ (gap ++ rest).head? = some Text.lineFeed) →
          Gap gap rest → Gap (35 :: (text ++ gap)) rest

/-- The input does not start with a blank or a comment. -/
def Solid (input : Text) : Prop := ∀ byte ∈ input.head?, isBlank byte = false ∧ byte ≠ 35

theorem splitGap_comment {text rest : Text} (inside : ∀ byte ∈ text, byte ≠ Text.lineFeed)
    (ended : rest = [] ∨ rest.head? = some Text.lineFeed) :
    splitGap true (text ++ rest) =
      (text ++ (splitGap false rest).1, (splitGap false rest).2) := by
  induction text with
  | nil =>
    cases rest with
    | nil => rfl
    | cons byte rest =>
      obtain rfl : byte = Text.lineFeed := by simpa using ended
      rfl
  | cons byte text ih =>
    have open_ : (byte != Text.lineFeed) = true := by simpa using inside byte List.mem_cons_self
    have later := ih fun other member => inside other (List.mem_cons_of_mem _ member)
    simp only [List.cons_append, splitGap, open_, later]

/-- A gap is what is split off before a text that does not start with one. -/
theorem Gap.splitGap {gap rest : Text} (before : Gap gap rest) (solid : Solid rest) :
    Lexeme.splitGap false (gap ++ rest) = (gap, rest) := by
  induction before with
  | @nothing rest =>
    cases rest with
    | nil => rfl
    | cons byte rest =>
      obtain ⟨visible, code⟩ := solid byte rfl
      simp [Lexeme.splitGap, visible, code]
  | blank blank _ ih =>
    simp only [List.cons_append, Lexeme.splitGap, blank, if_true, ih solid]
  | @comment text gap rest inside ended _ ih =>
    have hash : isBlank 35 = false := by decide
    simp [Lexeme.splitGap, hash, splitGap_comment inside ended, ih solid]

/-- What is split off is a gap, behind which no other starts; with a comment open, the end of that
comment and a gap. -/
theorem gap_splitGap (input : Text) :
    (Gap (splitGap false input).1 (splitGap false input).2 ∧ Solid (splitGap false input).2) ∧
      ∃ text gap, (∀ byte ∈ text, byte ≠ Text.lineFeed) ∧ (splitGap true input).1 = text ++ gap ∧
        (gap ++ (splitGap true input).2 = [] ∨
          (gap ++ (splitGap true input).2).head? = some Text.lineFeed) ∧
        Gap gap (splitGap true input).2 ∧ Solid (splitGap true input).2 := by
  -- both flags at once: blanks lead into comments, and these back to blanks
  induction input with
  | nil =>
    have solid : Solid [] := by simp [Solid]
    exact ⟨⟨.nothing, solid⟩, [], [], by simp, rfl, .inl rfl, .nothing, solid⟩
  | cons byte rest ih =>
    obtain ⟨⟨before, solid⟩, text, gap, inside, taken, ended, later, solidLater⟩ := ih
    constructor
    · simp only [splitGap]
      split
      · rename_i blank
        exact ⟨.blank blank before, solid⟩
      · rename_i visible
        split
        · rename_i hash
          obtain rfl : byte = 35 := by simpa using hash
          rw [taken]
          exact ⟨.comment inside ended later, solidLater⟩
        · rename_i code
          refine ⟨.nothing, ?_⟩
          rintro _ ⟨⟩
          exact ⟨by simpa using visible, by simpa using code⟩
    · by_cases line : byte = Text.lineFeed
      · subst line
        have feed : isBlank Text.lineFeed = true := by decide
        exact ⟨[], _, by simp, rfl, .inr rfl, .blank feed before, solid⟩
      · have goesOn : (byte != Text.lineFeed) = true := by simpa using line
        simp only [splitGap, goesOn]
        refine ⟨byte :: text, gap, ?_, by simp [taken], ended, later, solidLater⟩
        intro other member
        rcases List.mem_cons.mp member with rfl | further
        · exact line
        · exact inside other further

theorem escaped?_eq_some_iff {letter meaning : UInt8} :
    escaped? letter = some meaning ↔ (letter, meaning) ∈ escapes := by
  constructor
  · intro found
    unfold escaped? at found
    repeat' split at found
    all_goals simp_all [escapes]
    grind
  · intro listed
    simp only [escapes, List.mem_cons, Prod.mk.injEq, List.not_mem_nil, or_false] at listed
    rcases listed with ⟨rfl, rfl⟩ | ⟨rfl, rfl⟩ | ⟨rfl, rfl⟩ | ⟨rfl, rfl⟩ | ⟨rfl, rfl⟩ | ⟨rfl, rfl⟩ |
      ⟨rfl, rfl⟩ | ⟨rfl, rfl⟩ | ⟨rfl, rfl⟩ <;> rfl

theorem isQuote_iff {byte : UInt8} :
    isQuote byte = true ↔ byte = Text.quoteMark ∨ byte = Text.apostrophe := by
  simp [isQuote]

theorem Quotation.after_after (q : Quotation) (b v body value : Text) :
    (q.after body value).after b v = q.after (b ++ body) (v ++ value) := by
  cases q <;> simp [Quotation.after]

theorem readQuotation_behind {body value : Text} (means : Means body value) (rest : Text) :
    readQuotation (body ++ rest) = (readQuotation rest).after body value := by
  induction means with
  | nothing =>
    rw [List.nil_append]
    cases readQuotation rest <;> rfl
  | @plain byte body value noMark noApostrophe noBackslash _ ih =>
    have plain : isQuote byte = false := by simp [isQuote, noMark, noApostrophe]
    rw [List.cons_append, readQuotation.eq_def]
    simp [plain, noBackslash, ih, Quotation.after_after]
  | @escape letter meaning body value known _ ih =>
    have plain : isQuote Text.backslash = false := by decide
    rw [List.cons_append, List.cons_append, readQuotation.eq_def]
    simp [plain, escaped?_eq_some_iff.mpr known, ih, Quotation.after_after]

theorem readQuotation_of_means {body value rest : Text} {close : UInt8} (means : Means body value)
    (quote : isQuote close = true) :
    readQuotation (body ++ close :: rest) = .closed body value close rest := by
  have closed : readQuotation (close :: rest) = .closed [] [] close rest := by
    rw [readQuotation.eq_def]
    simp [quote]
  rw [readQuotation_behind means, closed, Quotation.after, List.append_nil, List.append_nil]

theorem means_of_readQuotation {input body value rest : Text} {close : UInt8}
    (read : readQuotation input = .closed body value close rest) : Means body value := by
  fun_induction readQuotation input generalizing body value with
  | case1 => simp at read
  | case2 =>
    cases read
    exact .nothing
  | case3 => simp at read
  | case4 => simp at read
  | case5 byte _ escape letter more meaning known ih =>
    obtain ⟨inner, innerValue, closed, rfl, rfl⟩ := Quotation.after_eq_closed.mp read
    obtain rfl : byte = Text.backslash := by simpa using escape
    exact .escape (escaped?_eq_some_iff.mp known) (ih closed)
  | case6 byte rest plain noBackslash ih =>
    obtain ⟨inner, innerValue, closed, rfl, rfl⟩ := Quotation.after_eq_closed.mp read
    simp only [isQuote_iff, not_or] at plain
    exact .plain plain.1 plain.2 (by simpa using noBackslash) (ih closed)

theorem symbol_of_delimiter? {byte : UInt8} {kind : Kind} (found : delimiter? byte = some kind) :
    ([byte], kind) ∈ symbols := by
  simp only [delimiter?, ite_eq_iff, beq_iff_eq, Option.some.injEq] at found
  repeat
    rcases found with ⟨rfl, rfl⟩ | ⟨-, found⟩
    · decide
  cases found

theorem lexical_of_readDoubling {byte : UInt8} {rest after : Text} {lexeme : Lexeme}
    (operator : byte = 43 ∨ byte = 45 ∨ byte = 42 ∨ byte = 47)
    (read : readDoubling byte rest = (lexeme, after)) : lexeme.Lexical := by
  have single : ([byte], Kind.binaryOperator) ∈ symbols := by
    rcases operator with rfl | rfl | rfl | rfl <;> decide
  have doubled : ([byte, byte], Kind.unaryOperator) ∈ symbols := by
    rcases operator with rfl | rfl | rfl | rfl <;> decide
  unfold readDoubling at read
  repeat' split at read
  all_goals cases read
  · exact .symbol doubled
  · exact .symbol single
  · exact .symbol single

theorem lexical_of_readEquals {alone : Kind} {byte : UInt8} {rest after : Text} {lexeme : Lexeme}
    (single : ([byte], alone) ∈ symbols) (equals : ([byte, 61], Kind.booleanOperator) ∈ symbols)
    (read : readEquals alone byte rest = (lexeme, after)) : lexeme.Lexical := by
  unfold readEquals at read
  repeat' split at read
  all_goals cases read
  · exact .symbol equals
  · exact .symbol single
  · exact .symbol single

theorem lexical_of_read {byte : UInt8} {rest after : Text} {lexeme : Lexeme}
    (read : Lexeme.read byte rest = .ok (lexeme, after)) : lexeme.Lexical := by
  unfold Lexeme.read at read
  repeat' split at read
  all_goals first | contradiction | simp only [Except.ok.injEq] at read
  case h_1 kind found =>
    cases read
    exact .symbol (symbol_of_delimiter? found)
  case h_1.isTrue quote _ _ _ _ _ quotation same =>
    cases read
    exact .quoted (isQuote_iff.mp quote) (means_of_readQuotation quotation)
  case h_2.isFalse.isTrue operator =>
    exact lexical_of_readDoubling (by simpa [or_assoc] using operator) read
  case h_2.isFalse.isFalse.isTrue order =>
    have which : byte = 62 ∨ byte = 60 := by simpa using order
    rcases which with rfl | rfl <;> exact lexical_of_readEquals (by decide) (by decide) read
  case h_2.isFalse.isFalse.isFalse.isTrue equals =>
    obtain rfl : byte = 61 := by simpa using equals
    exact lexical_of_readEquals (by decide) (by decide) read
  case h_1.isTrue half _ _ _ same =>
    have which : byte = 38 ∨ byte = 124 := by simpa using half
    cases read
    rcases which with rfl | rfl <;> exact .symbol (by decide)
  case h_2.isFalse.isFalse.isFalse.isFalse.isFalse.isTrue letter =>
    cases read
    exact .word letter fun other member => List.all_eq_true.mp List.all_takeWhile other member
  case h_2.isFalse.isFalse.isFalse.isFalse.isFalse.isFalse.isTrue digit =>
    cases read
    exact .digits (isDigits_takeWhile digit rest)

/-- The bytes that neither start a word or a number nor stand inside one. -/
def marks : Text := utf8 "()\x7b\x7d[];:,.%\"'+-*/<>=&|"

theorem read_of_unmarked {byte : UInt8} (unmarked : byte ∉ marks) (rest : Text) :
    Lexeme.read byte rest =
      if Text.isLetter byte then
        let isWordByte := fun b => Text.isLetter b || Text.isDigit b
        .ok (.word (byte :: rest.takeWhile isWordByte), rest.dropWhile isWordByte)
      else if Text.isDigit byte then
        .ok (.digits (byte :: rest.takeWhile Text.isDigit), rest.dropWhile Text.isDigit)
      else .error (.unrecognized byte) := by
  have spelled : marks = [40, 41, 123, 125, 91, 93, 59, 58, 44, 46, 37, 34, 39, 43, 45, 42, 47, 60, 62,
    61, 38, 124] := by decide
  rw [spelled] at unmarked
  simp only [List.mem_cons, List.not_mem_nil, not_or, or_false] at unmarked
  simp [Lexeme.read, delimiter?, isQuote, Text.quoteMark, Text.apostrophe, unmarked]

theorem read_of_letter {byte : UInt8} (letter : Text.isLetter byte = true) (rest : Text) :
    Lexeme.read byte rest =
      .ok (.word (byte :: rest.takeWhile fun b => Text.isLetter b || Text.isDigit b),
        rest.dropWhile fun b => Text.isLetter b || Text.isDigit b) := by
  have unmarked : byte ∉ marks := by
    intro marked
    have none : marks.any Text.isLetter = false := by decide
    have found : marks.any Text.isLetter = true := List.any_eq_true.mpr ⟨byte, marked, letter⟩
    rw [none] at found
    cases found
  simp [read_of_unmarked unmarked, letter]

theorem read_of_digit {byte : UInt8} (digit : Text.isDigit byte = true) (rest : Text) :
    Lexeme.read byte rest =
      .ok (.digits (byte :: rest.takeWhile Text.isDigit), rest.dropWhile Text.isDigit) := by
  have unmarked : byte ∉ marks := by
    intro marked
    have none : marks.any Text.isDigit = false := by decide
    have found : marks.any Text.isDigit = true := List.any_eq_true.mpr ⟨byte, marked, digit⟩
    rw [none] at found
    cases found
  have noLetter : Text.isLetter byte = false := by
    simp only [Text.isDigit, Bool.and_eq_true, decide_eq_true_eq, UInt8.le_iff_toNat_le] at digit
    simp only [Text.isLetter, Bool.or_eq_false_iff, Bool.and_eq_false_iff, decide_eq_false_iff_not,
      UInt8.le_iff_toNat_le, beq_eq_false_iff_ne, ne_eq, ← UInt8.toNat_inj]
    simp at digit ⊢
    omega
  simp [read_of_unmarked unmarked, noLetter, digit]

theorem read_of_means {mark : UInt8} {body value : Text}
    (quote : mark = Text.quoteMark ∨ mark = Text.apostrophe) (means : Means body value)
    (after : Text) :
    Lexeme.read mark (body ++ mark :: after) = .ok (.quoted mark body value, after) := by
  have closed : readQuotation (body ++ mark :: after) = .closed body value mark after :=
    readQuotation_of_means means (isQuote_iff.mpr quote)
  unfold Lexeme.read
  rw [closed]
  rcases quote with rfl | rfl <;> rfl

/-- The lexeme, with `after` behind it, or a longer one is what is read. -/
def ReadsAtLeast (lexeme : Lexeme) (byte : UInt8) (rest after : Text) : Prop :=
  Lexeme.read byte rest = .ok (lexeme, after) ∨
    ∃ longer behind, Lexeme.read byte rest = .ok (longer, behind) ∧
      lexeme.raw.length < longer.raw.length

theorem readsAtLeast_single {byte : UInt8} {after : Text}
    (operator : Lexeme.read byte after = .ok (readDoubling byte after)) :
    ReadsAtLeast (.symbol .binaryOperator [byte]) byte after after := by
  cases after with
  | nil => exact .inl operator
  | cons next more =>
    by_cases same : next = byte
    · subst same
      right
      refine ⟨.symbol .unaryOperator [next, next], more, ?_, by simp [raw]⟩
      simp [operator, readDoubling]
    · left
      simp [operator, readDoubling, same]

theorem readsAtLeast_unequal {byte : UInt8} {alone : Kind} {after : Text}
    (operator : Lexeme.read byte after = .ok (readEquals alone byte after)) :
    ReadsAtLeast (.symbol alone [byte]) byte after after := by
  cases after with
  | nil => exact .inl operator
  | cons next more =>
    by_cases equals : next = 61
    · subst equals
      right
      refine ⟨.symbol .booleanOperator [byte, 61], more, ?_, by simp [raw]⟩
      simp [operator, readEquals]
    · left
      simp [operator, readEquals, equals]

theorem readsAtLeast_symbol {text rest after : Text} {kind : Kind} {byte : UInt8}
    (listed : (text, kind) ∈ symbols) (input : byte :: rest = text ++ after) :
    ReadsAtLeast (.symbol kind text) byte rest after := by
  have spelled : symbols = [([40], .openParen), ([41], .closeParen), ([123], .openBrace),
      ([125], .closeBrace), ([91], .openBracket), ([93], .closeBracket), ([59], .semicolon),
      ([58], .colon), ([44], .comma), ([46], .dot), ([43], .binaryOperator), ([45], .binaryOperator),
      ([42], .binaryOperator), ([47], .binaryOperator), ([37], .binaryOperator),
      ([43, 43], .unaryOperator), ([45, 45], .unaryOperator), ([42, 42], .unaryOperator),
      ([47, 47], .unaryOperator), ([60], .booleanOperator), ([62], .booleanOperator),
      ([60, 61], .booleanOperator), ([62, 61], .booleanOperator), ([61, 61], .booleanOperator),
      ([38, 38], .booleanOperator), ([124, 124], .booleanOperator), ([61], .assign)] := by decide
  rw [spelled] at listed
  simp only [List.mem_cons, Prod.mk.injEq, List.not_mem_nil, or_false] at listed
  rcases listed with ⟨rfl, rfl⟩ | ⟨rfl, rfl⟩ | ⟨rfl, rfl⟩ | ⟨rfl, rfl⟩ | ⟨rfl, rfl⟩ | ⟨rfl, rfl⟩ |
    ⟨rfl, rfl⟩ | ⟨rfl, rfl⟩ | ⟨rfl, rfl⟩ | ⟨rfl, rfl⟩ | ⟨rfl, rfl⟩ | ⟨rfl, rfl⟩ | ⟨rfl, rfl⟩ |
    ⟨rfl, rfl⟩ | ⟨rfl, rfl⟩ | ⟨rfl, rfl⟩ | ⟨rfl, rfl⟩ | ⟨rfl, rfl⟩ | ⟨rfl, rfl⟩ | ⟨rfl, rfl⟩ |
    ⟨rfl, rfl⟩ | ⟨rfl, rfl⟩ | ⟨rfl, rfl⟩ | ⟨rfl, rfl⟩ | ⟨rfl, rfl⟩ | ⟨rfl, rfl⟩ | ⟨rfl, rfl⟩
  all_goals
    cases input
    first
      | exact .inl rfl
      | exact readsAtLeast_single rfl
      | exact readsAtLeast_unequal rfl

/-- Whether a run of bytes goes on decides between a lexeme and a longer one. -/
theorem run_at_least {class_ : UInt8 → Bool} {run rest after : Text}
    (inside : ∀ byte ∈ run, class_ byte = true) (input : rest = run ++ after) :
    (rest.takeWhile class_ = run ∧ rest.dropWhile class_ = after) ∨
      run.length < (rest.takeWhile class_).length := by
  subst input
  rw [List.takeWhile_append_of_pos inside, List.dropWhile_append_of_pos inside]
  cases after with
  | nil => simp
  | cons byte after => by_cases member : class_ byte = true <;> simp [member]

/-- Whatever lexeme an input starts with, it is read or a longer one is. -/
theorem Lexical.readsAtLeast {lexeme : Lexeme} (lexical : lexeme.Lexical) {byte : UInt8}
    {rest after : Text} (input : byte :: rest = lexeme.raw ++ after) :
    ReadsAtLeast lexeme byte rest after := by
  cases lexical with
  | symbol listed => exact readsAtLeast_symbol listed input
  | word letter inside =>
    injection input with head tail
    subst head
    rcases run_at_least inside tail with ⟨run, behind⟩ | longer
    · left
      rw [read_of_letter letter, run, behind]
    · exact .inr ⟨_, _, read_of_letter letter rest, by simpa [raw] using longer⟩
  | @digits text digits =>
    obtain ⟨nonempty, inside⟩ := digits
    cases text with
    | nil => exact absurd rfl nonempty
    | cons first run =>
      injection input with head tail
      subst head
      have digit := inside byte List.mem_cons_self
      rcases run_at_least (fun other member => inside other (List.mem_cons_of_mem _ member)) tail
        with ⟨run, behind⟩ | longer
      · left
        rw [read_of_digit digit, run, behind]
      · exact .inr ⟨_, _, read_of_digit digit rest, by simpa [raw] using longer⟩
  | @quoted mark body value quote means =>
    left
    simp only [raw, List.cons_append, List.append_assoc, List.nil_append, List.cons.injEq] at input
    obtain ⟨rfl, rfl⟩ := input
    exact read_of_means quote means after

theorem Lexical.raw_cons {lexeme : Lexeme} (lexical : lexeme.Lexical) :
    ∃ byte tail, lexeme.raw = byte :: tail := by
  cases lexical with
  | @symbol text kind listed =>
    cases text with
    | nil =>
      have visible : ∀ entry ∈ symbols, entry.1 ≠ [] := by decide
      exact absurd rfl (visible _ listed)
    | cons byte tail => exact ⟨byte, tail, rfl⟩
  | word => exact ⟨_, _, rfl⟩
  | @digits text digits =>
    cases text with
    | nil => exact absurd rfl digits.1
    | cons byte tail => exact ⟨byte, tail, rfl⟩
  | quoted => exact ⟨_, _, rfl⟩

theorem read_eq_ok_iff {byte : UInt8} {rest after : Text} {lexeme : Lexeme} :
    Lexeme.read byte rest = .ok (lexeme, after) ↔
      lexeme.Longest (byte :: rest) ∧ byte :: rest = lexeme.raw ++ after := by
  constructor
  · intro read
    obtain ⟨tail, start, whole⟩ := raw_of_read read
    have input : byte :: rest = lexeme.raw ++ after := by rw [start, ← whole, List.cons_append]
    refine ⟨⟨lexical_of_read read, ⟨after, input.symm⟩, ?_⟩, input⟩
    rintro other lexical ⟨behind, starts⟩
    rcases lexical.readsAtLeast starts.symm with found | ⟨longer, further, found, more⟩
    · rw [read] at found
      cases found
      exact Nat.le_refl _
    · rw [read] at found
      cases found
      exact Nat.le_of_lt more
  · rintro ⟨longest, input⟩
    rcases longest.lexical.readsAtLeast input with found | ⟨longer, further, found, more⟩
    · exact found
    · obtain ⟨tail, start, whole⟩ := raw_of_read found
      have starts : longer.raw <+: byte :: rest := ⟨further, by rw [start, ← whole, List.cons_append]⟩
      exact absurd (longest.longest longer (lexical_of_read found) starts) (Nat.not_le_of_lt more)

theorem solid_of_read {byte : UInt8} {rest : Text} {read : Lexeme × Text}
    (found : Lexeme.read byte rest = .ok read) : Solid (byte :: rest) := by
  rintro _ ⟨⟩
  constructor
  · rw [← Bool.not_eq_true]
    intro blank
    simp only [isBlank, Bool.or_eq_true, beq_iff_eq] at blank
    rcases blank with ((rfl | rfl) | rfl) | rfl <;> cases found
  · rintro rfl
    cases found

end Lexeme

/-- A source cut into pieces: gaps, each with the lexeme behind it, and the gap at the end. -/
structure Cut where
  pieces : List (Text × Lexeme)
  last : Text

namespace Cut

/-- The cut is one of the source, with the longest lexeme behind every gap. -/
inductive Of : Cut → Text → Prop where
  | last {gap} : Lexeme.Gap gap [] → Of ⟨[], gap⟩ gap
  | piece {gap lexeme rest pieces last} :
      Lexeme.Gap gap (lexeme.raw ++ rest) → lexeme.Longest (lexeme.raw ++ rest) →
        Of ⟨pieces, last⟩ rest → Of ⟨(gap, lexeme) :: pieces, last⟩ (gap ++ (lexeme.raw ++ rest))

/-- The kinds and literals of the tokens of a cut source. -/
def contents (keywords : Keywords) (cut : Cut) : List (Kind × Text) :=
  cut.pieces.flatMap (fun piece => piece.2.contents keywords) ++ [(.endOfInput, [])]

theorem split_of_last {gap : Text} (before : Lexeme.Gap gap []) :
    Lexeme.splitGap false gap = (gap, []) := by
  have split := before.splitGap (by simp [Lexeme.Solid])
  rwa [List.append_nil] at split

theorem read_of_piece {gap rest : Text} {lexeme : Lexeme}
    (before : Lexeme.Gap gap (lexeme.raw ++ rest)) (longest : lexeme.Longest (lexeme.raw ++ rest)) :
    ∃ byte tail, Lexeme.splitGap false (gap ++ (lexeme.raw ++ rest)) = (gap, byte :: tail) ∧
      Lexeme.read byte tail = .ok (lexeme, rest) := by
  obtain ⟨byte, tail, start⟩ := longest.lexical.raw_cons
  have read : Lexeme.read byte (tail ++ rest) = .ok (lexeme, rest) := by
    apply Lexeme.read_eq_ok_iff.mpr
    rw [← List.cons_append, ← start]
    exact ⟨longest, rfl⟩
  have solid : Lexeme.Solid (lexeme.raw ++ rest) := start ▸ Lexeme.solid_of_read read
  refine ⟨byte, tail ++ rest, ?_, read⟩
  rw [before.splitGap solid, start, List.cons_append]

theorem Of.scanFrom {cut : Cut} {source : Text} (of_ : cut.Of source) (keywords : Keywords)
    (p : Position) :
    ∃ tokens, Scriptlet.scanFrom keywords p source = .ok tokens ∧
      tokens.map Token.content = cut.contents keywords := by
  induction of_ generalizing p with
  | @last gap before =>
    have split := split_of_last before
    unfold Scriptlet.scanFrom
    split
    · exact ⟨_, rfl, rfl⟩
    · rename_i found
      simp [split] at found
  | @piece gap lexeme rest pieces last before longest _ ih =>
    obtain ⟨byte, tail, split, read⟩ := read_of_piece before longest
    unfold Scriptlet.scanFrom
    simp only
    split
    · rename_i found
      simp [split] at found
    · rename_i other more found
      obtain ⟨rfl, rfl⟩ : byte = other ∧ tail = more := by simpa [split] using found
      split
      · rename_i refused
        rw [read] at refused
        cases refused
      · rename_i taken
        rw [read] at taken
        cases taken
        -- the rest is scanned at whatever place the lexeme ends
        generalize (Position.after _ lexeme.raw) = place
        obtain ⟨tokens, scanned, contents⟩ := ih place
        rw [scanned]
        refine ⟨_, rfl, ?_⟩
        rw [List.map_append, Lexeme.content_tokens, contents]
        simp [Cut.contents]

theorem Of.unique {a b : Cut} {source : Text} (first : a.Of source) (second : b.Of source) :
    a = b := by
  induction first generalizing b with
  | @last gap before =>
    have split := split_of_last before
    cases second with
    | last => rfl
    | piece gapped longest =>
      obtain ⟨byte, tail, other, -⟩ := read_of_piece gapped longest
      rw [split] at other
      cases congrArg Prod.snd other
  | @piece gap lexeme rest pieces last before longest _ ih =>
    obtain ⟨byte, tail, split, read⟩ := read_of_piece before longest
    generalize whole : gap ++ (lexeme.raw ++ rest) = source at second
    cases second with
    | last before =>
      rw [whole, split_of_last before] at split
      cases split
    | piece before longest later =>
      obtain ⟨_, _, other, again⟩ := read_of_piece before longest
      rw [← whole, split] at other
      cases other
      rw [read] at again
      cases again
      cases ih later
      rfl

theorem exists_of_scanFrom {keywords : Keywords} {p : Position} {source : Text} {tokens : List Token}
    (scanned : Scriptlet.scanFrom keywords p source = .ok tokens) : ∃ cut : Cut, cut.Of source := by
  fun_induction Scriptlet.scanFrom keywords p source generalizing tokens with
  | case1 p source start =>
    rename_i found
    have whole := Lexeme.splitGap_append false source
    have gap := (Lexeme.gap_splitGap source).1.1
    rw [found] at whole gap
    rw [List.append_nil] at whole
    rw [whole] at gap
    exact ⟨⟨[], source⟩, .last gap⟩
  | case2 => cases scanned
  | case3 => cases scanned
  | case4 p source start byte rest found lexeme after read later ok =>
    rename_i ih
    obtain ⟨⟨pieces, last⟩, cut⟩ := ih ok
    obtain ⟨longest, input⟩ := Lexeme.read_eq_ok_iff.mp read
    have whole := Lexeme.splitGap_append false source
    have gap := (Lexeme.gap_splitGap source).1.1
    rw [found, input] at whole gap
    rw [input] at longest
    rw [← whole]
    exact ⟨_, .piece gap longest cut⟩

end Cut

/-- Scanning accepts the sources that can be cut into gaps and longest lexemes, and no others. There
is one way to cut a source, and the tokens are those of its lexemes, one behind another, and the end of
input. -/
theorem scan_accepts_cut (keywords : Keywords) (source : Text) :
    ((∃ tokens, scan keywords source = .ok tokens) ↔ ∃ cut : Cut, cut.Of source) ∧
      (∀ tokens, scan keywords source = .ok tokens → ∀ cut : Cut, cut.Of source →
        tokens.map Token.content = cut.contents keywords) ∧
      ∀ a b : Cut, a.Of source → b.Of source → a = b := by
  refine ⟨⟨?_, ?_⟩, ?_, ?_⟩
  · rintro ⟨tokens, scanned⟩
    exact Cut.exists_of_scanFrom scanned
  · rintro ⟨cut, of_⟩
    obtain ⟨tokens, scanned, -⟩ := of_.scanFrom keywords .start
    exact ⟨tokens, scanned⟩
  · intro tokens scanned cut of_
    obtain ⟨_, again, contents⟩ := of_.scanFrom keywords .start
    rw [← scan, scanned] at again
    cases again
    exact contents
  · intro a b first second
    exact first.unique second

end Scriptlet
