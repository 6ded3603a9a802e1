import Scriptlet.Proofs.Cutting
/-!
How tokens are written down. A text is a way to write tokens if, whatever follows it, it is cut into
them; what may follow is part of the statement, since the longest lexeme wins. Writings are put together
from left to right.
-/
namespace Scriptlet

/-- A token as scanning gives it, up to its place: one of those of a lexeme. -/
def Token.Proper (token : Token) : Prop :=
  ∃ lexeme : Lexeme, lexeme.Lexical ∧ token.content ∈ lexeme.contents Keywords.default

/-- A token at no known place. -/
def Token.plain (kind : Kind) (text : String) : Token := ⟨kind, utf8 text, .unknown⟩

/-- The symbols that no byte behind them makes a longer one of. -/
def Lexeme.settled : List (Text × Kind) :=
  symbols.filter fun symbol =>
    symbol.1 ∉ [utf8 "+", utf8 "-", utf8 "*", utf8 "/", utf8 "<", utf8 ">", utf8 "="]

/-- No word or number goes on here. -/
def Loose (rest : Text) : Prop :=
  ∀ byte ∈ rest.head?, (Text.isLetter byte || Text.isDigit byte) = false

theorem loose_append {text : Text} (rest : Text)
    (first : text.head?.any (fun byte => !(Text.isLetter byte || Text.isDigit byte)) = true) :
    Loose (text ++ rest) := by
  cases text with
  | nil => cases first
  | cons byte text =>
    rintro _ ⟨⟩
    simpa using first

/-- Before what may follow, the text is cut into the tokens. -/
def Written (stops : Text → Prop) (ts : List Token) (text : Text) : Prop :=
  ∀ rest, stops rest → ∀ cut : Cut, cut.Of rest → ∃ whole : Cut, whole.Of (text ++ rest) ∧
    whole.contents Keywords.default = ts.map Token.content ++ cut.contents Keywords.default

section Rules
variable {stops between : Text → Prop} {ts us : List Token} {text more : Text}

theorem written_nil : Written stops [] [] := fun _ _ cut of_ => ⟨cut, of_, rfl⟩

theorem Written.anywhere (written : Written (fun _ => True) ts text) : Written stops ts text :=
  fun rest _ => written rest trivial

theorem Written.append (first : Written between ts text)
    (met : ∀ rest, stops rest → between (more ++ rest)) (second : Written stops us more) :
    Written stops (ts ++ us) (text ++ more) := by
  intro rest stop cut of_
  obtain ⟨behind, ofBehind, contents⟩ := second rest stop cut of_
  obtain ⟨whole, ofWhole, all⟩ := first (more ++ rest) (met rest stop) behind ofBehind
  refine ⟨whole, by rwa [List.append_assoc], ?_⟩
  rw [all, contents, List.map_append, List.append_assoc]

/-- Behind a text that anything may follow. -/
theorem Written.then_ (first : Written (fun _ => True) ts text) (second : Written stops us more) :
    Written stops (ts ++ us) (text ++ more) :=
  first.append (fun _ _ => trivial) second

theorem Written.apart (first : Written Loose ts text) (second : Written stops us more)
    (visible : more.head?.any (fun byte => !(Text.isLetter byte || Text.isDigit byte)) = true) :
    Written stops (ts ++ us) (text ++ more) :=
  first.append (fun rest _ => loose_append rest visible) second

theorem written_blank {byte : UInt8} (blank : Lexeme.isBlank byte = true) :
    Written stops [] [byte] := by
  rintro rest - ⟨pieces, last⟩ of_
  cases of_ with
  | last gap => exact ⟨⟨[], _⟩, .last (.blank blank gap), rfl⟩
  | piece gap longest later =>
    exact ⟨_, .piece (.blank blank gap) longest later, rfl⟩

theorem written_space : Written (fun _ => True) [] (utf8 " ") := written_blank (by decide)

theorem Written.spaced (written : Written (·.head? = some Text.space) ts text) :
    Written (fun _ => True) ts (text ++ utf8 " ") := by
  rw [← List.append_nil ts]
  exact written.append (fun _ _ => rfl) written_space

theorem written_lexeme (lexeme : Lexeme) {byte : UInt8} {tail : Text}
    (start : lexeme.raw = byte :: tail)
    (read : ∀ rest, stops rest → Lexeme.read byte (tail ++ rest) = .ok (lexeme, rest))
    (contents : ts.map Token.content = lexeme.contents Keywords.default) :
    Written stops ts (byte :: tail) := by
  rintro rest stop ⟨pieces, last⟩ of_
  obtain ⟨longest, -⟩ := Lexeme.read_eq_ok_iff.mp (read rest stop)
  rw [← List.cons_append, ← start] at longest
  rw [← start]
  refine ⟨_, .piece .nothing longest of_, ?_⟩
  rw [contents, Cut.contents, Cut.contents, List.flatMap_cons, List.append_assoc]

end Rules

theorem run_of_stop {class_ : UInt8 → Bool} {run rest : Text}
    (inside : ∀ byte ∈ run, class_ byte = true) (stop : ∀ byte ∈ rest.head?, class_ byte = false) :
    (run ++ rest).takeWhile class_ = run ∧ (run ++ rest).dropWhile class_ = rest := by
  rw [List.takeWhile_append_of_pos inside, List.dropWhile_append_of_pos inside]
  cases rest with
  | nil => simp
  | cons byte rest => simp [stop byte rfl]

theorem written_word {token : Token} (lexical : (Lexeme.word token.literal).Lexical)
    (kind : token.kind = Keywords.default.kindOf token.literal) :
    Written Loose [token] token.literal := by
  generalize same : token.literal = text at lexical kind
  cases lexical with
  | @word first rest letter inside =>
    apply written_lexeme (.word (first :: rest)) rfl
    · intro behind stop
      obtain ⟨run, after⟩ := run_of_stop inside stop
      rw [Lexeme.read_of_letter letter, run, after]
    · simp [Token.content, Lexeme.contents, same, kind, Keywords.kindOf]

theorem written_number {token : Token} (kind : token.kind = .number)
    (digits : token.literal.IsDigits) : Written Loose [token] token.literal := by
  generalize same : token.literal = text at digits
  cases text with
  | nil => exact absurd rfl digits.1
  | cons first rest =>
    have digit := digits.2 first List.mem_cons_self
    have inside : ∀ byte ∈ rest, Text.isDigit byte = true := fun byte member =>
      digits.2 byte (List.mem_cons_of_mem _ member)
    apply written_lexeme (.digits (first :: rest)) rfl
    · intro behind stop
      have ended : ∀ byte ∈ behind.head?, Text.isDigit byte = false := fun byte member =>
        (Bool.or_eq_false_iff.mp (stop byte member)).2
      obtain ⟨run, after⟩ := run_of_stop inside ended
      rw [Lexeme.read_of_digit digit, run, after]
    · simp [Token.content, Lexeme.contents, same, kind]

theorem written_of_read {stops : Text → Prop} {token : Token}
    (listed : (token.literal, token.kind) ∈ Lexeme.symbols)
    (read : ∀ byte tail, token.literal = byte :: tail → ∀ rest, stops rest →
      Lexeme.read byte (tail ++ rest) = .ok (.symbol token.kind token.literal, rest)) :
    Written stops [token] token.literal := by
  obtain ⟨byte, tail, start⟩ := (Lexeme.Lexical.symbol listed).raw_cons
  change token.literal = byte :: tail at start
  rw [start]
  exact written_lexeme (.symbol token.kind token.literal) start (read byte tail start) rfl

theorem written_symbol {token : Token} (listed : (token.literal, token.kind) ∈ Lexeme.settled) :
    Written (fun _ => True) [token] token.literal := by
  apply written_of_read (List.mem_of_mem_filter listed)
  have spelled : Lexeme.settled = [([40], .openParen), ([41], .closeParen), ([123], .openBrace),
      ([125], .closeBrace), ([91], .openBracket), ([93], .closeBracket), ([59], .semicolon),
      ([58], .colon), ([44], .comma), ([46], .dot), ([37], .binaryOperator),
      ([43, 43], .unaryOperator), ([45, 45], .unaryOperator), ([42, 42], .unaryOperator),
      ([47, 47], .unaryOperator), ([60, 61], .booleanOperator), ([62, 61], .booleanOperator),
      ([61, 61], .booleanOperator), ([38, 38], .booleanOperator), ([124, 124], .booleanOperator)] := by
    decide
  -- of each of these, reading the first bytes gives the symbol whatever comes next
  generalize token.literal = text at listed ⊢
  generalize token.kind = kind at listed ⊢
  rw [spelled] at listed
  simp only [List.mem_cons, Prod.mk.injEq, List.not_mem_nil, or_false] at listed
  rintro byte tail rfl rest -
  rcases listed with ⟨⟨⟩, rfl⟩ | ⟨⟨⟩, rfl⟩ | ⟨⟨⟩, rfl⟩ | ⟨⟨⟩, rfl⟩ | ⟨⟨⟩, rfl⟩ | ⟨⟨⟩, rfl⟩ |
    ⟨⟨⟩, rfl⟩ | ⟨⟨⟩, rfl⟩ | ⟨⟨⟩, rfl⟩ | ⟨⟨⟩, rfl⟩ | ⟨⟨⟩, rfl⟩ | ⟨⟨⟩, rfl⟩ | ⟨⟨⟩, rfl⟩ | ⟨⟨⟩, rfl⟩ |
    ⟨⟨⟩, rfl⟩ | ⟨⟨⟩, rfl⟩ | ⟨⟨⟩, rfl⟩ | ⟨⟨⟩, rfl⟩ | ⟨⟨⟩, rfl⟩ | ⟨⟨⟩, rfl⟩
  all_goals rfl

theorem written_operator {token : Token} (listed : (token.literal, token.kind) ∈ Lexeme.symbols) :
    Written (·.head? = some Text.space) [token] token.literal := by
  by_cases settled : (token.literal, token.kind) ∈ Lexeme.settled
  · exact (written_symbol settled).anywhere
  -- the others could go on, but none does with a blank
  have unsettled : ∀ symbol ∈ Lexeme.symbols, symbol ∉ Lexeme.settled → symbol ∈
      [([43], .binaryOperator), ([45], .binaryOperator), ([42], .binaryOperator),
        ([47], .binaryOperator), ([60], .booleanOperator), ([62], .booleanOperator),
        ([61], .assign)] := by decide
  have few := unsettled _ listed settled
  apply written_of_read listed
  generalize token.literal = text at few ⊢
  generalize token.kind = kind at few ⊢
  rintro byte tail rfl rest spaced
  cases rest with
  | nil => cases spaced
  | cons next rest =>
    obtain rfl : next = Text.space := Option.some.inj spaced
    simp only [List.mem_cons, Prod.mk.injEq, List.not_mem_nil, or_false] at few
    rcases few with ⟨⟨⟩, rfl⟩ | ⟨⟨⟩, rfl⟩ | ⟨⟨⟩, rfl⟩ | ⟨⟨⟩, rfl⟩ | ⟨⟨⟩, rfl⟩ | ⟨⟨⟩, rfl⟩ | ⟨⟨⟩, rfl⟩
    all_goals rfl

theorem written_quoted {opening value closing : Token}
    (opens : opening.content = (.quote, [Text.quoteMark]))
    (closes : closing.content = (.quote, [Text.quoteMark])) (string : value.kind = .string)
    (plain : ∀ byte ∈ value.literal,
      byte ≠ Text.quoteMark ∧ byte ≠ Text.apostrophe ∧ byte ≠ Text.backslash) :
    Written (fun _ => True) [opening, value, closing]
      (Text.quoteMark :: value.literal ++ [Text.quoteMark]) := by
  have means (text : Text) (plain : ∀ byte ∈ text,
      byte ≠ Text.quoteMark ∧ byte ≠ Text.apostrophe ∧ byte ≠ Text.backslash) :
      Lexeme.Means text text := by
    induction text with
    | nil => exact .nothing
    | cons byte text ih =>
      obtain ⟨noMark, noApostrophe, noBackslash⟩ := plain byte List.mem_cons_self
      exact .plain noMark noApostrophe noBackslash
        (ih fun other member => plain other (List.mem_cons_of_mem _ member))
  apply written_lexeme (.quoted Text.quoteMark value.literal value.literal) rfl
  · intro rest _
    change Lexeme.read Text.quoteMark (value.literal ++ [Text.quoteMark] ++ rest) = _
    rw [List.append_assoc]
    exact Lexeme.read_of_means (.inl rfl) (means _ plain) rest
  · rw [List.map_cons, List.map_cons, List.map_cons, opens, closes, Token.content, string]
    rfl

theorem written_plain (kind : Kind) (text : String) (listed : (utf8 text, kind) ∈ Lexeme.settled) :
    Written (fun _ => True) [Token.plain kind text] (utf8 text) :=
  @written_symbol (.plain kind text) listed

theorem visible_of_symbol : ∀ symbol ∈ Lexeme.symbols,
    symbol.1.head?.any (fun byte => !(Text.isLetter byte || Text.isDigit byte)) = true := by
  decide

namespace Token.Proper

variable {token : Token}

theorem cases_ (proper : token.Proper) :
    (token.literal, token.kind) ∈ Lexeme.symbols ∨
      (Lexeme.word token.literal).Lexical ∧ token.kind = Keywords.default.kindOf token.literal ∨
        token.kind = .number ∧ token.literal.IsDigits ∨
          token.kind ∈ [.string, .quote, .apostrophe] := by
  obtain ⟨kind, literal, position⟩ := token
  obtain ⟨lexeme, lexical, member⟩ := proper
  cases lexical with
  | symbol listed =>
    obtain ⟨rfl, rfl⟩ : kind = _ ∧ literal = _ := by simpa [content, Lexeme.contents] using member
    exact .inl listed
  | word letter inside =>
    obtain ⟨rfl, rfl⟩ : kind = _ ∧ literal = _ := by simpa [content, Lexeme.contents] using member
    exact .inr (.inl ⟨.word letter inside, rfl⟩)
  | digits digits =>
    obtain ⟨rfl, rfl⟩ : kind = _ ∧ literal = _ := by simpa [content, Lexeme.contents] using member
    exact .inr (.inr (.inl ⟨rfl, digits⟩))
  | @quoted mark =>
    right; right; right
    by_cases apostrophe : mark = Text.apostrophe <;> simp [content, Lexeme.contents, apostrophe] at member
    all_goals rcases member with ⟨rfl, -⟩ | ⟨rfl, -⟩ | ⟨rfl, -⟩ <;> simp

theorem symbol_kind : ∀ symbol ∈ Lexeme.symbols ++ Keywords.default,
    symbol.2 ∉ [.name, .number, .string, .quote, .apostrophe] := by decide

theorem reserved_of_kindOf {text : Text} {kind : Kind} (other : kind ≠ .name)
    (same : kind = Keywords.default.kindOf text) : (text, kind) ∈ Keywords.default := by
  rw [Keywords.kindOf] at same
  rcases found : Keywords.default.lookup text with _ | reserved
  · rw [found] at same
    exact absurd same other
  · rw [found] at same
    obtain ⟨before, after, whole, -⟩ := List.lookup_eq_some_iff.mp found
    rw [whole, same]
    simp

theorem name (proper : token.Proper) (kind : token.kind = .name) :
    Written Loose [token] token.literal := by
  rcases proper.cases_ with symbol | ⟨word, same⟩ | ⟨number, -⟩ | quoted
  · exact absurd (symbol_kind _ (List.mem_append_left _ symbol)) (by simp [kind])
  · exact written_word word same
  · simp [kind] at number
  · simp [kind] at quoted

theorem digits (proper : token.Proper) (kind : token.kind = .number) : token.literal.IsDigits := by
  rcases proper.cases_ with symbol | ⟨-, same⟩ | ⟨-, digits⟩ | quoted
  · exact absurd (symbol_kind _ (List.mem_append_left _ symbol)) (by simp [kind])
  · have reserved := reserved_of_kindOf (by simp) (kind.symm.trans same)
    exact absurd (symbol_kind _ (List.mem_append_right _ reserved)) (by simp)
  · exact digits
  · simp [kind] at quoted

theorem symbol {kind : Kind} (proper : token.Proper) (same : token.kind = kind)
    (only : kind ∉ .name :: .number :: .string :: .quote :: .apostrophe ::
      Keywords.default.map Prod.snd) : (token.literal, kind) ∈ Lexeme.symbols := by
  subst same
  simp only [List.mem_cons, not_or] at only
  obtain ⟨noName, noNumber, noString, noQuote, noApostrophe, noWord⟩ := only
  rcases proper.cases_ with symbol | ⟨-, same⟩ | ⟨number, -⟩ | quoted
  · exact symbol
  · have reserved := reserved_of_kindOf noName same
    exact absurd (List.mem_map_of_mem reserved) noWord
  · exact absurd number noNumber
  · simp [noString, noQuote, noApostrophe] at quoted

theorem doubled (proper : token.Proper) (kind : token.kind = .unaryOperator) :
    Written (fun _ => True) [token] token.literal := by
  have all : ∀ symbol ∈ Lexeme.symbols, symbol.2 = .unaryOperator → symbol ∈ Lexeme.settled := by
    decide
  apply written_symbol
  rw [kind]
  exact all _ (proper.symbol kind (by decide)) rfl

theorem literal_eq {kind : Kind} (text : Text) (proper : token.Proper) (same : token.kind = kind)
    (only : (Lexeme.symbols ++ Keywords.default).filter (·.2 = kind) = [(text, kind)]) :
    token.literal = text := by
  subst same
  have spelled {entry : Text} (listed : (entry, token.kind) ∈ Lexeme.symbols ++ Keywords.default) :
      entry = text := by
    have kept : (entry, token.kind) ∈ [(text, token.kind)] := by
      rw [← only]
      exact List.mem_filter.mpr ⟨listed, by simp⟩
    simpa using kept
  have known : (text, token.kind) ∈ Lexeme.symbols ++ Keywords.default :=
    List.mem_of_mem_filter (only ▸ List.mem_singleton_self _)
  have kinds := symbol_kind _ known
  simp only [List.mem_cons, List.not_mem_nil, or_false, not_or] at kinds
  obtain ⟨noName, noNumber, noString, noQuote, noApostrophe⟩ := kinds
  rcases proper.cases_ with symbol | ⟨-, same⟩ | ⟨number, -⟩ | quoted
  · exact spelled (List.mem_append_left _ symbol)
  · exact spelled (List.mem_append_right _ (reserved_of_kindOf noName same))
  · exact absurd number noNumber
  · simp [noString, noQuote, noApostrophe] at quoted

/-- A symbol of a kind with one spelling, which no byte behind it makes longer. -/
theorem written {kind : Kind} (text : Text) (proper : token.Proper) (same : token.kind = kind)
    (only : (Lexeme.symbols ++ Keywords.default).filter (·.2 = kind) = [(text, kind)])
    (settled : (text, kind) ∈ Lexeme.settled) : Written (fun _ => True) [token] text := by
  have literal := proper.literal_eq text same only
  rw [← literal]
  apply written_symbol
  rwa [literal, same]

theorem reserved {kind : Kind} (text : Text) (proper : token.Proper) (same : token.kind = kind)
    (only : (Lexeme.symbols ++ Keywords.default).filter (·.2 = kind) = [(text, kind)])
    (noSymbol : (text, kind) ∉ Lexeme.symbols) : Written Loose [token] text := by
  have literal := proper.literal_eq text same only
  have known : (text, kind) ∈ Lexeme.symbols ++ Keywords.default :=
    List.mem_of_mem_filter (only ▸ List.mem_singleton_self _)
  have kinds := symbol_kind _ known
  simp only [List.mem_cons, List.not_mem_nil, or_false, not_or, ← same] at kinds
  obtain ⟨noName, noNumber, noString, noQuote, noApostrophe⟩ := kinds
  rw [← literal]
  rcases proper.cases_ with symbol | ⟨word, kindOf⟩ | ⟨number, -⟩ | quoted
  · rw [literal, same] at symbol
    exact absurd symbol noSymbol
  · exact written_word word kindOf
  · exact absurd number noNumber
  · simp [noString, noQuote, noApostrophe] at quoted

end Token.Proper

end Scriptlet
