import Scriptlet.Proofs.Derivation
/-!
Brackets. Every rule of the grammar that opens a bracket closes it behind phrases of its own, so in the
tokens of a phrase each bracket is closed by its like, and what is opened inside is closed inside.
-/
namespace Scriptlet

namespace Kind

/-- The brackets, each with the one that closes it. -/
def brackets : List (Kind × Kind) :=
  [(.openParen, .closeParen), (.openBrace, .closeBrace), (.openBracket, .closeBracket)]

/-- Neither opens nor closes. -/
def isPlain (kind : Kind) : Bool :=
  brackets.all fun pair => kind ≠ pair.1 && kind ≠ pair.2

end Kind

/-- Tokens in which brackets are matched and properly nested. -/
inductive Nested : List Token → Prop where
  | nothing : Nested []
  | plain {token} : token.kind.isPlain = true → Nested [token]
  | pair {opening inner closing} :
      (opening.kind, closing.kind) ∈ Kind.brackets → Nested inner →
        Nested (opening :: (inner ++ [closing]))
  | append {ts us} : Nested ts → Nested us → Nested (ts ++ us)

namespace Nested

variable {ts us : List Token} {token opening closing : Token} {kind : Kind}

theorem of_kind (same : token.kind = kind) (plain : kind.isPlain = true := by decide) :
    Nested [token] :=
  .plain (same ▸ plain)

theorem cons (first : Nested [token]) (rest : Nested ts) : Nested (token :: ts) :=
  first.append rest

theorem enclosed {first last : Kind} (opens : opening.kind = first) (inner : Nested ts)
    (closes : closing.kind = last) (pair : (first, last) ∈ Kind.brackets := by decide) :
    Nested (opening :: (ts ++ [closing])) :=
  .pair (opens ▸ closes ▸ pair) inner

theorem flatMap {α : Type} {items : List α} {tokens : α → List Token}
    (each : ∀ item ∈ items, Nested (tokens item)) : Nested (items.flatMap tokens) := by
  induction items with
  | nil => exact .nothing
  | cons item rest ih =>
    rw [List.flatMap_cons]
    exact (each item List.mem_cons_self).append
      (ih fun other member => each other (List.mem_cons_of_mem _ member))

end Nested

theorem Listed.nested {α : Type} {items : List (Phrase α)} {ts : List Token} (listed : Listed items ts)
    (each : ∀ item ∈ items, Nested item.tokens) : Nested ts := by
  induction listed with
  | none => exact .nothing
  | one item => exact each item List.mem_cons_self
  | more comma _ ih =>
    have rest := ih fun item member => each item (List.mem_cons_of_mem _ member)
    exact (each _ List.mem_cons_self).append ((Nested.of_kind comma).cons rest)

theorem Entry.Formed.nested {entry : Entry} (formed : entry.Formed)
    (value : ∀ value ∈ entry.value, Nested value.tokens) : Nested entry.tokens := by
  have key := Nested.of_kind formed.key
  rw [Entry.tokens]
  rcases given : entry.value with _ | phrase
  · exact key
  · have colon := Nested.of_kind (formed.colon (by simp [given]))
    exact key.cons (colon.cons (value phrase given))

theorem Enumerated.nested {entries : List Entry} {ts : List Token} (enumerated : Enumerated entries ts)
    (each : ∀ entry ∈ entries, ∀ value ∈ entry.value, Nested value.tokens) : Nested ts := by
  induction enumerated with
  | none => exact .nothing
  | one formed => exact formed.nested (each _ List.mem_cons_self)
  | more formed comma _ ih =>
    have rest := ih fun entry member => each entry (List.mem_cons_of_mem _ member)
    exact (formed.nested (each _ List.mem_cons_self)).append ((Nested.of_kind comma).cons rest)

theorem Tier.isPlain_of_continues {tier : Tier} {operator : Token} (binary : tier.isBinary = true)
    (continued : tier.continues operator = true) : operator.kind.isPlain = true := by
  have which : operator.kind = .booleanOperator ∨ operator.kind = .binaryOperator := by
    cases tier <;> simp_all [Tier.isBinary, Tier.continues, Grammar.isOperator]
  rcases which with kind | kind <;> rw [kind] <;> decide

theorem Expr.Derives.nested {tier : Tier} {ts : List Token} {e : Expr} (derived : e.Derives tier ts) :
    Nested ts := by
  induction derived with
  | through _ ih => exact ih
  | name kind => exact .of_kind kind
  | number kind _ => exact .of_kind kind
  | group opens _ closes ih => exact .enclosed opens ih closes
  | quoted quote value same =>
    have marks : ∀ {token : Token}, token.kind = .quote ∨ token.kind = .apostrophe →
        Nested [token] := by
      rintro token (kind | kind)
      · exact .of_kind kind
      · exact .of_kind kind
    exact (marks quote).cons ((Nested.of_kind value).cons (marks (same.symm ▸ quote)))
  | bare kind => exact .of_kind kind
  | call _ opens listed _ closes ih ihs => exact ih.append (.enclosed opens (listed.nested ihs) closes)
  | computed _ opens _ closes ih ihKey => exact ih.append (.enclosed opens ihKey closes)
  | named _ point _ ih ihName => exact ih.append ((Nested.of_kind point).cons ihName)
  | decimal _ point _ _ _ ih ihFraction => exact ih.append ((Nested.of_kind point).cons ihFraction)
  | operation binary continued _ _ ihLeft ihRight =>
    have operator := Nested.plain (Tier.isPlain_of_continues binary continued)
    exact ihLeft.append (operator.cons ihRight)
  | increment _ kind ih => exact ih.append (.of_kind kind)
  | object opens enumerated _ closes ihs => exact .enclosed opens (enumerated.nested ihs) closes
  | assign _ equals _ ihTarget ihValue => exact ihTarget.append ((Nested.of_kind equals).cons ihValue)

theorem Declaration.Derives.nested {ts : List Token} {d : Declaration} (derived : d.Derives ts) :
    Nested ts := by
  have words : ∀ {token : Token}, token.kind = .letWord ∨ token.kind = .constWord →
      Nested [token] := by
    rintro token (kind | kind)
    · exact .of_kind kind
    · exact .of_kind kind
  cases derived with
  | bare word name semicolon =>
    exact (Nested.of_kind word).cons ((Nested.of_kind name).cons (.of_kind semicolon))
  | valued word name equals value semicolon =>
    have end_ := value.nested.append (Nested.of_kind semicolon)
    exact (words word).cons ((Nested.of_kind name).cons ((Nested.of_kind equals).cons end_))
  | folded word name equals left operator right semicolon =>
    have end_ := right.nested.append (Nested.of_kind semicolon)
    have value := left.nested.append ((Nested.of_kind operator).cons end_)
    exact (words word).cons ((Nested.of_kind name).cons ((Nested.of_kind equals).cons value))

theorem Block.Braced.nested {block : Block} (braced : block.Braced)
    (parts : ∀ part ∈ block.body, Nested part.tokens) : Nested block.tokens :=
  .enclosed braced.opening (.flatMap parts) braced.closing

theorem Nested.headed {word opening closing : Token} {ts us : List Token} (first : Nested [word])
    (opens : opening.kind = .openParen) (inner : Nested ts) (closes : closing.kind = .closeParen)
    (rest : Nested us) : Nested (word :: opening :: (ts ++ closing :: us)) := by
  have whole := first.cons ((Nested.enclosed opens inner closes).append rest)
  simpa using whole

theorem Link.Formed.nested {kind : Kind} {tier : Tier} {link : Link} (formed : link.Formed kind tier)
    (plain : kind.isPlain = true) (parts : ∀ part ∈ link.block.body, Nested part.tokens) :
    Nested link.tokens :=
  (Nested.of_kind formed.word plain).headed formed.opening formed.condition.nested formed.closing
    (formed.block.nested parts)

theorem Link.nested_chain {first : Link} {others : List Link}
    (opens : first.Formed .ifWord .assignment)
    (goes : ∀ link ∈ others, link.Formed .elifWord .assignment)
    (parts : ∀ link ∈ first :: others, ∀ part ∈ link.block.body, Nested part.tokens) :
    Nested (first.tokens ++ others.flatMap Link.tokens) := by
  apply (opens.nested (by decide) (parts first List.mem_cons_self)).append
  apply Nested.flatMap
  intro link member
  exact (goes link member).nested (by decide) (parts link (List.mem_cons_of_mem _ member))

theorem Stmt.Derives.nested {ts : List Token} {statement : Stmt} (derived : Stmt.Derives ts statement) :
    Nested ts := by
  induction derived with
  | expr derived => exact derived.nested
  | closed derived semicolon => exact derived.nested.append (.of_kind semicolon)
  | declare derived => exact derived.nested
  | function word name opens listed parameters closes _ braced _ ih =>
    have inner := listed.nested fun parameter member => (parameters parameter member).nested
    exact (Nested.of_kind word).cons
      ((Nested.of_kind name).headed opens inner closes (braced.nested ih))
  | branch opens goes _ ih => exact Link.nested_chain opens goes ih
  | otherwise opens goes _ word braced _ ih ihLast =>
    exact (Link.nested_chain opens goes ih).append ((Nested.of_kind word).cons (braced.nested ihLast))
  | whileLoop formed _ ih => exact formed.nested (by decide) ih
  | @forLoop word opening start first semicolon test ts step inner closing block loops opens declared
      tested ends stepped closes braced _ ih =>
    have step_ : Nested inner := by
      rcases stepped with ⟨rfl, -⟩ | ⟨-, derived⟩
      · exact .nothing
      · exact derived.nested
    have header := declared.nested.append
      (tested.nested.append ((Nested.of_kind ends).cons step_))
    have whole := (Nested.of_kind loops).headed opens header closes (braced.nested ih)
    simpa using whole

theorem Program.Derives.nested {ts : List Token} {program : Program} (derived : program.Derives ts) :
    Nested ts := by
  obtain ⟨parts, each, rfl, -⟩ := derived
  exact .flatMap fun part member => (each part member).nested

end Scriptlet
