import Scriptlet.Proofs.Coverage
import Scriptlet.Proofs.Cutting
import Scriptlet.Proofs.Nesting
import Scriptlet.Proofs.Trimming
import Scriptlet.Repl.Balance
/-!
The balance of an entry. It is taken byte by byte, without scanning; yet for a source that can be scanned
it is the balance of its tokens, since bytes inside quoted texts and comments weigh nothing and only the
delimiters weigh something: more is needed exactly if brackets of some kind are opened more often than
closed. The brackets of a source that can be parsed are nested, so nothing is open at its end.
-/
namespace Scriptlet

open Lexeme

namespace Repl.Balance

/-- The balance after one more token of a kind. -/
def addKind (b : Balance) : Kind → Balance
  | .openBrace => { b with braces := b.braces + 1 }
  | .closeBrace => { b with braces := b.braces - 1 }
  | .openBracket => { b with brackets := b.brackets + 1 }
  | .closeBracket => { b with brackets := b.brackets - 1 }
  | .openParen => { b with parens := b.parens + 1 }
  | .closeParen => { b with parens := b.parens - 1 }
  | _ => b

/-- The bytes that change a balance: quotes, the mark of comments, the backslash and the brackets. -/
def weights : List UInt8 := [34, 39, 35, 92, 123, 125, 91, 93, 40, 41]

variable {b : Balance} {text : Text} {byte : UInt8}

theorem addKind_of_isPlain {kind : Kind} (plain : kind.isPlain = true) : b.addKind kind = b := by
  cases kind <;> first | rfl | cases plain

theorem surrounding_addKind (b : Balance) (kind : Kind) :
    (b.addKind kind).surrounding = b.surrounding := by
  cases kind <;> rfl

theorem surrounding_foldl_addKind (b : Balance) (kinds : List Kind) :
    (kinds.foldl addKind b).surrounding = b.surrounding := by
  induction kinds generalizing b with
  | nil => rfl
  | cons kind rest ih => rw [List.foldl_cons, ih, surrounding_addKind]

theorem add_of_light (code : b.surrounding = .code) (light : byte ∉ weights) : b.add byte = b := by
  simp only [weights, List.mem_cons, List.not_mem_nil, or_false, not_or] at light
  simp [add, code, addCode, isQuote, Text.quoteMark, Text.apostrophe, light]

theorem foldl_light (code : b.surrounding = .code) (light : ∀ byte ∈ text, byte ∉ weights) :
    text.foldl add b = b := by
  induction text with
  | nil => rfl
  | cons byte rest ih =>
    rw [List.foldl_cons, add_of_light code (light byte List.mem_cons_self)]
    exact ih fun other member => light other (List.mem_cons_of_mem _ member)

/-- Whatever surrounds it, a byte that weighs nothing can only end a comment or an escape. -/
theorem exists_add_of_light (b : Balance) (light : byte ∉ weights) :
    ∃ surrounding, b.add byte = { b with surrounding } := by
  obtain ⟨surrounding, braces, brackets, parens⟩ := b
  cases surrounding with
  | code => exact ⟨.code, add_of_light rfl light⟩
  | comment =>
    by_cases line : byte = Text.lineFeed
    · exact ⟨.code, by simp [add, line]⟩
    · exact ⟨.comment, by simp [add, line]⟩
  | quotation =>
    simp only [weights, List.mem_cons, List.not_mem_nil, or_false, not_or] at light
    refine ⟨.quotation, ?_⟩
    simp [add, isQuote, Text.quoteMark, Text.apostrophe, Text.backslash, light]
  | escape => exact ⟨.quotation, rfl⟩

theorem exists_foldl_light (b : Balance) (light : ∀ byte ∈ text, byte ∉ weights) :
    ∃ surrounding, text.foldl add b = { b with surrounding } := by
  induction text generalizing b with
  | nil => exact ⟨b.surrounding, rfl⟩
  | cons byte rest ih =>
    obtain ⟨between, first⟩ := b.exists_add_of_light (light byte List.mem_cons_self)
    rw [List.foldl_cons, first]
    exact ih { b with surrounding := between } fun other member =>
      light other (List.mem_cons_of_mem _ member)

/-! A gap in front of a lexeme leaves the balance as it is. The gap behind the last one may end in a
comment. -/

theorem foldl_comment (inside : b.surrounding = .comment)
    (unended : ∀ byte ∈ text, byte ≠ Text.lineFeed) : text.foldl add b = b := by
  induction text with
  | nil => rfl
  | cons byte rest ih =>
    have same : b.add byte = b := by simp [add, inside, unended byte List.mem_cons_self]
    rw [List.foldl_cons, same]
    exact ih fun other member => unended other (List.mem_cons_of_mem _ member)

theorem foldl_gap {gap rest : Text} (before : Gap gap rest) (solid : Solid rest)
    (code : b.surrounding = .code) :
    gap.foldl add b = b ∨ rest = [] ∧ gap.foldl add b = { b with surrounding := .comment } := by
  induction before with
  | nothing => exact .inl rfl
  | @blank byte gap rest blank _ ih =>
    have light : byte ∉ weights := by
      simp only [isBlank, Bool.or_eq_true, beq_iff_eq] at blank
      rcases blank with ((rfl | rfl) | rfl) | rfl <;> decide
    rw [List.foldl_cons, add_of_light code light]
    exact ih solid
  | @comment text gap rest inside ended _ ih =>
    have hash : b.add 35 = { b with surrounding := .comment } := by
      simp [add, code, addCode, isQuote, Text.quoteMark, Text.apostrophe]
    rw [List.foldl_cons, hash, List.foldl_append, foldl_comment rfl inside]
    cases gap with
    | nil =>
      rcases ended with atEnd | feed
      · exact .inr ⟨by simpa using atEnd, rfl⟩
      · -- a text that starts with a line feed is not solid
        exact absurd (solid _ feed).1 (by decide)
    | cons byte gap =>
      obtain rfl : byte = Text.lineFeed := by simpa using ended
      have back : Balance.add { b with surrounding := .comment } Text.lineFeed = b := by
        simp [add, ← code]
      have feed : b.add Text.lineFeed = b := add_of_light code (by decide)
      have later := ih solid
      rw [List.foldl_cons, feed] at later
      rw [List.foldl_cons, back]
      exact later

/-! A lexeme weighs what its tokens weigh. -/

theorem foldl_means {body value : Text} (means : Means body value)
    (inside : b.surrounding = .quotation) : body.foldl add b = b := by
  induction means with
  | nothing => rfl
  | @plain byte body value noMark noApostrophe noBackslash _ ih =>
    have same : b.add byte = b := by simp [add, inside, isQuote, noMark, noApostrophe, noBackslash]
    rw [List.foldl_cons, same]
    exact ih
  | @escape letter _ body _ _ _ ih =>
    have back : (b.add Text.backslash).add letter = b := by
      have escaped : b.add Text.backslash = { b with surrounding := .escape } := by simp [add, inside]
      rw [escaped]
      simp [add, ← inside]
    rw [List.foldl_cons, List.foldl_cons, back]
    exact ih

theorem light_of_letter {byte : UInt8} (member : (Text.isLetter byte || Text.isDigit byte) = true) :
    byte ∉ weights := by
  intro heavy
  have none : weights.any (fun byte => Text.isLetter byte || Text.isDigit byte) = false := by decide
  rw [List.any_eq_true.mpr ⟨byte, heavy, member⟩] at none
  cases none

theorem isPlain_kindOf (word : Text) : (Keywords.default.kindOf word).isPlain = true := by
  rw [Keywords.kindOf]
  rcases found : Keywords.default.lookup word with _ | kind
  · rfl
  · obtain ⟨before, after, whole, -⟩ := List.lookup_eq_some_iff.mp found
    have all : ∀ entry ∈ Keywords.default, entry.2.isPlain = true := by decide
    exact all (word, kind) (by simp [whole])

theorem foldl_symbol {kind : Kind} (listed : (text, kind) ∈ symbols) (code : b.surrounding = .code) :
    text.foldl add b = b.addKind kind := by
  -- the brackets, or a symbol without weight
  have which : ∀ entry ∈ symbols, entry ∈ [([40], .openParen), ([41], .closeParen),
      ([123], .openBrace), ([125], .closeBrace), ([91], .openBracket), ([93], .closeBracket)] ∨
        entry.2.isPlain = true ∧ ∀ byte ∈ entry.1, byte ∉ weights := by decide +kernel
  rcases which _ listed with bracket | ⟨plain, light⟩
  · simp only [List.mem_cons, Prod.mk.injEq, List.not_mem_nil, or_false] at bracket
    rcases bracket with ⟨rfl, rfl⟩ | ⟨rfl, rfl⟩ | ⟨rfl, rfl⟩ | ⟨rfl, rfl⟩ | ⟨rfl, rfl⟩ | ⟨rfl, rfl⟩ <;>
      simp [add, code, addCode, addKind, isQuote, Text.quoteMark, Text.apostrophe]
  · rw [foldl_light code light, addKind_of_isPlain plain]

theorem foldl_raw {lexeme : Lexeme} (lexical : lexeme.Lexical) (code : b.surrounding = .code) :
    lexeme.raw.foldl add b =
      ((lexeme.contents Keywords.default).map Prod.fst).foldl addKind b := by
  cases lexical with
  | symbol listed => exact foldl_symbol listed code
  | @word first rest letter inside =>
    have light : ∀ byte ∈ first :: rest, byte ∉ weights := by
      intro byte member
      rcases List.mem_cons.mp member with rfl | later
      · exact light_of_letter (by simp [letter])
      · exact light_of_letter (inside byte later)
    exact (foldl_light code light).trans (addKind_of_isPlain (isPlain_kindOf _)).symm
  | digits digits =>
    exact foldl_light code fun byte member => light_of_letter (by simp [digits.2 byte member])
  | @quoted mark body value quote means =>
    have opened : b.add mark = { b with surrounding := .quotation } := by
      simp [add, code, addCode, isQuote_iff.mpr quote]
    have closed : Balance.add { b with surrounding := .quotation } mark = b := by
      have noEscape : mark ≠ Text.backslash := by rcases quote with rfl | rfl <;> decide
      simp [add, noEscape, isQuote_iff.mpr quote, ← code]
    have weightless : ((Lexeme.quoted mark body value).contents Keywords.default).map Prod.fst =
        (if mark = Text.apostrophe then [.apostrophe, .string, .apostrophe]
          else [.quote, .string, .quote]) := by
      by_cases single : mark = Text.apostrophe <;> simp [contents, single]
    have whole : (raw (.quoted mark body value)).foldl add b = b := by
      rw [raw, List.cons_append, List.foldl_cons, opened, List.foldl_append, foldl_means means rfl]
      exact closed
    rw [whole, weightless]
    split <;> rfl

/-- The balance of a source that can be cut is that of its tokens. What is left behind the last of them
may be a comment. -/
theorem foldl_cut {cut : Cut} {source : Text} (of_ : cut.Of source) (code : b.surrounding = .code) :
    ∃ surrounding, source.foldl add b =
      { ((cut.contents Keywords.default).map Prod.fst).foldl addKind b with surrounding } := by
  induction of_ generalizing b with
  | @last gap before =>
    have solid : Solid [] := by simp [Solid]
    rcases foldl_gap before solid code with same | ⟨-, inside⟩
    · exact ⟨b.surrounding, same⟩
    · exact ⟨.comment, inside⟩
  | @piece gap lexeme rest pieces last before longest _ ih =>
    obtain ⟨byte, tail, split, -⟩ := Cut.read_of_piece before longest
    have joined := splitGap_append false (gap ++ (lexeme.raw ++ rest))
    have solid := (gap_splitGap (gap ++ (lexeme.raw ++ rest))).1.2
    rw [split] at joined solid
    have input : byte :: tail = lexeme.raw ++ rest := List.append_cancel_left joined
    rw [input] at solid
    -- behind this gap there is a lexeme, so it does not end in a comment
    have skipped : gap.foldl add b = b := by
      rcases foldl_gap before solid code with same | ⟨atEnd, -⟩
      · exact same
      · rw [atEnd] at input
        cases input
    have weighed := foldl_raw longest.lexical code
    obtain ⟨surrounding, later⟩ := ih ((surrounding_foldl_addKind b _).trans code)
    refine ⟨surrounding, ?_⟩
    rw [List.foldl_append, skipped, List.foldl_append, weighed, later]
    simp [Cut.contents]

/-! Trimming takes away white space, and no white space weighs anything. -/

theorem light_of_isSpace {piece : Text.Piece} (space : piece.isSpace = true) :
    ∀ byte ∈ piece.bytes, byte ∉ weights := by
  cases piece with
  | stray byte => cases space
  | scalar code =>
    have all : ∀ code ∈ Text.whiteSpaces, ∀ byte ∈ Text.encode code, byte ∉ weights := by
      decide +kernel
    exact all code (Text.mem_whiteSpaces space)

theorem light_of_spaces {before : List Text.Piece} (spaces : ∀ piece ∈ before, piece.isSpace = true) :
    ∀ byte ∈ before.flatMap Text.Piece.bytes, byte ∉ weights := by
  intro byte member
  obtain ⟨piece, inside, found⟩ := List.mem_flatMap.mp member
  exact light_of_isSpace (spaces piece inside) byte found

theorem isOpen_trim (source : Text) : (ofText source.trim).isOpen = (ofText source).isOpen := by
  obtain ⟨before, after, whole, spaces, spacesAfter⟩ := Text.exists_trim source
  have start : (before.flatMap Text.Piece.bytes).foldl add {} = {} :=
    foldl_light rfl (light_of_spaces spaces)
  obtain ⟨surrounding, rest⟩ := (ofText source.trim).exists_foldl_light (light_of_spaces spacesAfter)
  have sum : ofText source = { ofText source.trim with surrounding } := by
    rw [← rest]
    conv_lhs => rw [whole, ofText, List.foldl_append, List.foldl_append, start]
    rfl
  rw [sum]
  rfl

end Repl.Balance

open Repl (Balance)

theorem Nested.foldl_addKind {ts : List Token} (nested : Nested ts) (b : Balance) :
    (ts.map Token.kind).foldl Balance.addKind b = b := by
  induction nested generalizing b with
  | nothing => rfl
  | plain plain => exact Balance.addKind_of_isPlain plain
  | @pair opening inner closing pair _ ih =>
    have back : ((b.addKind opening.kind).addKind closing.kind) = b := by
      simp only [Kind.brackets, List.mem_cons, Prod.mk.injEq, List.not_mem_nil, or_false] at pair
      rcases pair with ⟨opens, closes⟩ | ⟨opens, closes⟩ | ⟨opens, closes⟩ <;>
        simp [opens, closes, Balance.addKind]
    rw [List.map_cons, List.foldl_cons, List.map_append, List.foldl_append, ih]
    exact back
  | append _ _ ih ihLater => rw [List.map_append, List.foldl_append, ih, ihLater]

theorem needsMore_of_scan {source : Text} {tokens : List Token}
    (scanned : scan Keywords.default source = .ok tokens) :
    Repl.needsMore source = ((tokens.map Token.kind).foldl Balance.addKind {}).isOpen := by
  obtain ⟨cut, of_⟩ := Cut.exists_of_scanFrom scanned
  obtain ⟨_, again, contents⟩ := of_.scanFrom Keywords.default .start
  have same : Except.ok tokens = Except.ok _ := scanned.symm.trans again
  injection same with same
  obtain ⟨surrounding, balance⟩ := Balance.foldl_cut of_ (b := {}) rfl
  have kinds : (cut.contents Keywords.default).map Prod.fst = tokens.map Token.kind := by
    rw [← contents, ← same, List.map_map]
    rfl
  rw [Repl.needsMore, Balance.isOpen_trim, Balance.ofText, balance, kinds]
  rfl

theorem Nested.needsMore_of_scan {source : Text} {tokens : List Token}
    (scanned : scan Keywords.default source = .ok tokens) (nested : Nested tokens) :
    Repl.needsMore source = false := by
  rw [Scriptlet.needsMore_of_scan scanned, nested.foldl_addKind]
  rfl

/-- The brackets of every source that a parser accepts are matched and nested, and as an entry it is
finished: nothing more is asked for. -/
theorem accepted_never_withheld {parser : Parser} (keywords : parser.keywords = Keywords.default)
    (faithful : parser.Faithful) {source : Text} {program : Program}
    (parsed : (parser.parse source).1 = .ok program) :
    ∃ tokens, scan Keywords.default source = .ok tokens ∧ Nested tokens ∧
      Repl.needsMore source = false := by
  rw [(faithful.parse source).1, keywords] at parsed
  obtain ⟨front, last, after, scanned, ended, inside, ran⟩ := Parser.run_of_parseFresh parsed
  have derived := Grammar.derives_front (upcoming_ofTokens front ended) ended inside ran
  have nested : Nested (front ++ [last]) := derived.nested.append (.of_kind ended)
  exact ⟨front ++ [last], scanned, nested, nested.needsMore_of_scan scanned⟩

/-- Brackets in quoted texts, one of them with an escaped quote, and an open one in a comment. -/
def bracketed : Text := utf8 "if (a['\x7d']) \x7b f('(\\'', b); \x7d # [("

theorem bracketed_never_withheld :
    ∃ program tokens, (({} : Parser).parse bracketed).1 = .ok program ∧
      scan Keywords.default bracketed = .ok tokens ∧ Nested tokens ∧
        Repl.needsMore bracketed = false := by
  have accepted : (({} : Parser).parse bracketed).1.isOk = true := by decide +kernel
  rcases parsed : (({} : Parser).parse bracketed).1 with fault | program
  · rw [parsed] at accepted
    cases accepted
  · have faithful : ({} : Parser).Faithful := by
      rintro _ _ ⟨⟩
    obtain ⟨tokens, scanned, nested, finished⟩ := accepted_never_withheld rfl faithful parsed
    exact ⟨program, tokens, rfl, scanned, nested, finished⟩

/-- What is open of each kind of bracket is what was opened less what was closed. -/
theorem Repl.Balance.foldl_addKind_eq (b : Balance) (kinds : List Kind) :
    (kinds.foldl addKind b).braces =
        b.braces + kinds.count .openBrace - kinds.count .closeBrace ∧
      (kinds.foldl addKind b).brackets =
        b.brackets + kinds.count .openBracket - kinds.count .closeBracket ∧
      (kinds.foldl addKind b).parens =
        b.parens + kinds.count .openParen - kinds.count .closeParen := by
  induction kinds generalizing b with
  | nil => simp
  | cons kind rest ih =>
    obtain ⟨braces, brackets, parens⟩ := ih (b.addKind kind)
    rw [List.foldl_cons, braces, brackets, parens]
    cases kind <;> simp [addKind] <;> omega

/-- A source that can be scanned is an unfinished entry exactly if its tokens open braces, brackets or
parentheses that they do not close: more of these than there are of those. -/
theorem unfinished_iff_count {source : Text} {tokens : List Token}
    (scanned : scan Keywords.default source = .ok tokens) :
    Repl.needsMore source = true ↔
      (tokens.map Token.kind).count .closeBrace < (tokens.map Token.kind).count .openBrace ∨
        (tokens.map Token.kind).count .closeBracket < (tokens.map Token.kind).count .openBracket ∨
          (tokens.map Token.kind).count .closeParen < (tokens.map Token.kind).count .openParen := by
  obtain ⟨braces, brackets, parens⟩ :=
    Balance.foldl_addKind_eq {} (tokens.map Token.kind)
  rw [needsMore_of_scan scanned, Balance.isOpen, braces, brackets, parens]
  simp only [Bool.or_eq_true, decide_eq_true_eq]
  omega

/-- A brace that is closed in a string only, and an open bracket in a comment. -/
def gaping : Text := utf8 "\x7b '\x7d' # ["

def gapingTokens : List Token :=
  [⟨.openBrace, utf8 "\x7b", ⟨1, 1⟩⟩, ⟨.apostrophe, utf8 "'", ⟨1, 3⟩⟩,
    ⟨.string, utf8 "\x7d", ⟨1, 4⟩⟩, ⟨.apostrophe, utf8 "'", ⟨1, 5⟩⟩, ⟨.endOfInput, [], ⟨1, 9⟩⟩]

theorem gaping_unfinished :
    scan Keywords.default gaping = .ok gapingTokens ∧ Repl.needsMore gaping = true := by
  have scanned : scan Keywords.default gaping = .ok gapingTokens := by decide +kernel
  exact ⟨scanned, (unfinished_iff_count scanned).mpr (.inl (by decide))⟩

end Scriptlet
