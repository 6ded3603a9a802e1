import Scriptlet.Grammar.Statement
/-!
The grammar as rules. A phrase is a sequence of tokens with the tree that it is read as; each rule
builds a phrase from smaller ones. Operations of one tier stand to the left of each other, an
assignment to the right, and parentheses leave no trace in the tree. Nothing here says in which order
tokens are looked at: that is the parser's business.
-/
namespace Scriptlet

/-- Tokens, and what they are read as. -/
structure Phrase (α : Type) where
  tokens : List Token
  tree : α

/-- The phrases one after another, with a comma between neighbours. -/
inductive Listed {α : Type} : List (Phrase α) → List Token → Prop where
  | none : Listed [] []
  | one (item : Phrase α) : Listed [item] item.tokens
  | more {item next : Phrase α} {rest : List (Phrase α)} {comma : Token} {tokens : List Token} :
      comma.kind = .comma → Listed (next :: rest) tokens →
        Listed (item :: next :: rest) (item.tokens ++ comma :: tokens)

theorem Listed.sublist {α : Type} {items : List (Phrase α)} {tokens : List Token}
    (listed : Listed items tokens) : ∀ item ∈ items, item.tokens.Sublist tokens := by
  induction listed with
  | none => simp
  | one => simp
  | @more first _ _ comma tokens _ _ ih =>
    intro item member
    rcases List.mem_cons.mp member with rfl | later
    · exact List.sublist_append_left _ _
    · exact (ih item later).trans ((List.sublist_cons_self comma tokens).trans
        (List.sublist_append_right first.tokens _))

/-- A property of an object, with its value unless it is left out. -/
structure Entry where
  key : Token
  colon : Token
  value : Option (Phrase Expr)

namespace Entry

def tokens (entry : Entry) : List Token :=
  match entry.value with
  | none => [entry.key]
  | some value => entry.key :: entry.colon :: value.tokens

def tree (entry : Entry) : Ident × Expr :=
  (⟨entry.key, entry.key.literal⟩, (entry.value.map Phrase.tree).getD .absent)

structure Formed (entry : Entry) : Prop where
  key : entry.key.kind = .name
  colon : entry.value ≠ none → entry.colon.kind = .colon

end Entry

/-- Properties with commas between them. There may be one behind the last. -/
inductive Enumerated : List Entry → List Token → Prop where
  | none : Enumerated [] []
  | one {entry : Entry} : entry.Formed → Enumerated [entry] entry.tokens
  | more {entry : Entry} {rest : List Entry} {comma : Token} {tokens : List Token} :
      entry.Formed → comma.kind = .comma → Enumerated rest tokens →
        Enumerated (entry :: rest) (entry.tokens ++ comma :: tokens)

theorem Entry.sublist {entry : Entry} {value : Phrase Expr} (given : value ∈ entry.value) :
    value.tokens.Sublist entry.tokens := by
  rw [Option.mem_def] at given
  rw [Entry.tokens, given]
  exact (List.sublist_cons_self _ _).trans (List.sublist_cons_self _ _)

theorem Entry.key_mem (entry : Entry) : entry.key ∈ entry.tokens := by
  rw [Entry.tokens]
  split <;> exact List.mem_cons_self

theorem Enumerated.sublist {entries : List Entry} {tokens : List Token}
    (enumerated : Enumerated entries tokens) : ∀ entry ∈ entries, entry.tokens.Sublist tokens := by
  induction enumerated with
  | none => simp
  | one => simp
  | @more first _ comma tokens _ _ _ ih =>
    intro entry member
    rcases List.mem_cons.mp member with rfl | later
    · exact List.sublist_append_left _ _
    · exact (ih entry later).trans ((List.sublist_cons_self comma tokens).trans
        (List.sublist_append_right first.tokens _))

theorem Enumerated.formed {entries : List Entry} {tokens : List Token}
    (enumerated : Enumerated entries tokens) : ∀ entry ∈ entries, entry.Formed := by
  induction enumerated with
  | none => simp
  | one formed => simpa using formed
  | more formed _ _ ih => simpa using ⟨formed, ih⟩

/-- The tiers of expressions from the tightest to the loosest. -/
inductive Tier where
  | primary
  | access
  | comparison
  | product
  /-- Terms with plus and minus between them. -/
  | terms
  /-- Terms with operators behind them. -/
  | sum
  | object
  | assignment
  deriving DecidableEq

namespace Tier

/-- The next tighter tier. -/
def tighter : Tier → Tier
  | .primary => .primary
  | .access => .primary
  | .comparison => .access
  | .product => .comparison
  | .terms => .product
  | .sum => .terms
  | .object => .sum
  | .assignment => .object

/-- Whether a token behind an expression of a tier carries it on at that tier. -/
def continues : Tier → Token → Bool
  | .primary, _ => false
  | .access, token => Grammar.startsSuffix token
  | .comparison, token => token.kind = .booleanOperator
  | .product, token => Grammar.isOperator [utf8 "*", utf8 "/", utf8 "%"] token
  | .terms, token => Grammar.isOperator [utf8 "+", utf8 "-"] token
  | .sum, token => token.kind = .unaryOperator
  | .object, _ => false
  | .assignment, token => token.kind = .assign

/-- The tiers whose expressions are operations on two operands. -/
def isBinary (tier : Tier) : Bool :=
  tier = .comparison || tier = .product || tier = .terms

end Tier

/-- The phrases of expressions. -/
inductive Expr.Derives : Tier → List Token → Expr → Prop where
  | through {tier ts e} : Derives tier.tighter ts e → Derives tier ts e
  | name {token} : token.kind = .name → Derives .primary [token] (.ident ⟨token, token.literal⟩)
  | number {token value} :
      token.kind = .number → Number.read? token.literal = some value →
        Derives .primary [token] (.number token value token.literal)
  | group {opening ts e closing} :
      opening.kind = .openParen → Derives .assignment ts e → closing.kind = .closeParen →
        Derives .primary (opening :: (ts ++ [closing])) e
  | quoted {opening value closing} :
      opening.kind = .quote ∨ opening.kind = .apostrophe → value.kind = .string →
        closing.kind = opening.kind →
          Derives .primary [opening, value, closing] (.string value value.literal)
  | bare {token} :
      token.kind = .unaryOperator → Derives .primary [token] (.unary token token.literal .absent)
  | call {ts callee opening arguments inner closing} :
      Derives .access ts callee → opening.kind = .openParen → Listed arguments inner →
        (∀ argument ∈ arguments, Derives .assignment argument.tokens argument.tree) →
          closing.kind = .closeParen →
            Derives .access (ts ++ opening :: (inner ++ [closing]))
              (.call opening callee (arguments.map Phrase.tree))
  | computed {ts holder opening inner key closing} :
      Derives .access ts holder → opening.kind = .openBracket → Derives .assignment inner key →
        closing.kind = .closeBracket →
          Derives .access (ts ++ opening :: (inner ++ [closing])) (.member opening holder key true)
  | named {ts holder point inner name} :
      Derives .access ts holder → point.kind = .dot → Derives .primary inner (.ident name) →
        Derives .access (ts ++ point :: inner) (.member point holder (.ident name) false)
  | decimal {ts token v whole point inner other w fraction value} :
      Derives .access ts (.number token v whole) → point.kind = .dot →
        Derives .primary inner (.number other w fraction) →
          (whole.contains 46 || fraction.contains 46) = false →
            Number.read? (whole ++ utf8 "." ++ fraction) = some value →
              Derives .access (ts ++ point :: inner)
                (.number token value (whole ++ utf8 "." ++ fraction))
  | operation {tier ts left operator inner right} :
      tier.isBinary = true → tier.continues operator = true → Derives tier ts left →
        Derives tier.tighter inner right →
          Derives tier (ts ++ operator :: inner) (.binary operator operator.literal left right)
  | increment {ts operand operator} :
      Derives .sum ts operand → operator.kind = .unaryOperator →
        Derives .sum (ts ++ [operator]) (.unary operator operator.literal operand)
  | object {opening entries inner closing} :
      opening.kind = .openBrace → Enumerated entries inner →
        (∀ entry ∈ entries, ∀ value ∈ entry.value, Derives .assignment value.tokens value.tree) →
          closing.kind = .closeBrace →
            Derives .object (opening :: (inner ++ [closing]))
              (.object opening (entries.map Entry.tree))
  | assign {ts target equals inner value} :
      Derives .object ts target → equals.kind = .assign → Derives .assignment inner value →
        Derives .assignment (ts ++ equals :: inner) (.assign equals target value)

theorem Expr.Derives.ne_nil {tier : Tier} {ts : List Token} {e : Expr} (derived : e.Derives tier ts) :
    ts ≠ [] := by
  induction derived with
  | through _ ih => exact ih
  | _ => simp

/-- The phrases of declarations. An operator of comparison behind a whole expression takes it as its
left operand. -/
inductive Declaration.Derives : List Token → Declaration → Prop where
  | bare {word name semicolon} :
      word.kind = .letWord → name.kind = .name → semicolon.kind = .semicolon →
        Derives [word, name, semicolon] ⟨word, ⟨name, name.literal⟩, false, .absent⟩
  | valued {word name equals ts value semicolon} :
      word.kind = .letWord ∨ word.kind = .constWord → name.kind = .name → equals.kind = .assign →
        value.Derives .assignment ts → semicolon.kind = .semicolon →
          Derives (word :: name :: equals :: (ts ++ [semicolon]))
            ⟨word, ⟨name, name.literal⟩, word.kind = .constWord, value⟩
  | folded {word name equals ts left operator inner right semicolon} :
      word.kind = .letWord ∨ word.kind = .constWord → name.kind = .name → equals.kind = .assign →
        left.Derives .assignment ts → operator.kind = .booleanOperator →
          right.Derives .assignment inner → semicolon.kind = .semicolon →
            Derives (word :: name :: equals :: (ts ++ operator :: (inner ++ [semicolon])))
              ⟨word, ⟨name, name.literal⟩, word.kind = .constWord,
                .binary operator operator.literal left right⟩

/-- Statements in braces. -/
structure Block where
  opening : Token
  body : List (Phrase Stmt)
  closing : Token

namespace Block

def tokens (block : Block) : List Token :=
  block.opening :: (block.body.flatMap Phrase.tokens ++ [block.closing])

def trees (block : Block) : List Stmt := block.body.map Phrase.tree

structure Braced (block : Block) : Prop where
  opening : block.opening.kind = .openBrace
  closing : block.closing.kind = .closeBrace

end Block

/-- A word with a condition in parentheses, and what runs under it. -/
structure Link where
  word : Token
  opening : Token
  condition : Phrase Expr
  closing : Token
  block : Block

namespace Link

def tokens (link : Link) : List Token :=
  link.word :: link.opening :: (link.condition.tokens ++ link.closing :: link.block.tokens)

def tree (link : Link) : Guarded Stmt := ⟨link.word, link.condition.tree, link.block.trees⟩

/-- The link starts with a word of a kind and has a condition of a tier. -/
structure Formed (kind : Kind) (tier : Tier) (link : Link) : Prop where
  word : link.word.kind = kind
  opening : link.opening.kind = .openParen
  condition : link.condition.tree.Derives tier link.condition.tokens
  closing : link.closing.kind = .closeParen
  block : link.block.Braced

end Link

/-- The phrases of statements. -/
inductive Stmt.Derives : List Token → Stmt → Prop where
  | expr {ts value} : value.Derives .assignment ts → Derives ts (.expr value)
  | closed {ts value semicolon} :
      value.Derives .assignment ts → semicolon.kind = .semicolon →
        Derives (ts ++ [semicolon]) (.expr value)
  | declare {ts declaration} : declaration.Derives ts → Derives ts (.declare declaration)
  | function {word name opening parameters inner closing names} {block : Block} :
      word.kind = .funcWord → name.kind = .name → opening.kind = .openParen →
        Listed parameters inner →
          (∀ parameter ∈ parameters, parameter.tree.Derives .assignment parameter.tokens) →
            closing.kind = .closeParen → parameters.map Phrase.tree = names.map Expr.ident →
              block.Braced → (∀ part ∈ block.body, Derives part.tokens part.tree) →
                Derives (word :: name :: opening :: (inner ++ closing :: block.tokens))
                  (.function word ⟨name, name.literal⟩ names block.trees)
  | branch {first : Link} {others : List Link} :
      first.Formed .ifWord .assignment → (∀ link ∈ others, link.Formed .elifWord .assignment) →
        (∀ link ∈ first :: others, ∀ part ∈ link.block.body, Derives part.tokens part.tree) →
          Derives (first.tokens ++ others.flatMap Link.tokens)
            (.branch first.tree (others.map Link.tree))
  | otherwise {first : Link} {others : List Link} {word : Token} {block : Block} :
      first.Formed .ifWord .assignment → (∀ link ∈ others, link.Formed .elifWord .assignment) →
        (∀ link ∈ first :: others, ∀ part ∈ link.block.body, Derives part.tokens part.tree) →
          word.kind = .elseWord → block.Braced →
            (∀ part ∈ block.body, Derives part.tokens part.tree) →
              Derives (first.tokens ++ others.flatMap Link.tokens ++ word :: block.tokens)
                (.branch first.tree
                  (others.map Link.tree ++ [⟨word, .boolean word true, block.trees⟩]))
  | whileLoop {loop : Link} :
      loop.Formed .whileWord .comparison →
        (∀ part ∈ loop.block.body, Derives part.tokens part.tree) →
          Derives loop.tokens (.whileLoop loop.word loop.condition.tree loop.block.trees)
  | forLoop {word opening start first semicolon test ts step inner closing} {block : Block} :
      word.kind = .forWord → opening.kind = .openParen → Declaration.Derives first start →
        test.Derives .comparison ts → semicolon.kind = .semicolon →
          (inner = [] ∧ step = .absent ∨
            (∃ token ∈ inner.head?, token.kind = .name) ∧ step.Derives .assignment inner) →
            closing.kind = .closeParen → block.Braced →
              (∀ part ∈ block.body, Derives part.tokens part.tree) →
                Derives (word :: opening ::
                    (first ++ (ts ++ semicolon :: (inner ++ closing :: block.tokens))))
                  (.forLoop word (some start) test step block.trees)

/-- The phrases of programs: statements one after another. -/
def Program.Derives (tokens : List Token) (program : Program) : Prop :=
  ∃ parts : List (Phrase Stmt), (∀ part ∈ parts, part.tree.Derives part.tokens) ∧
    tokens = parts.flatMap Phrase.tokens ∧ program = parts.map Phrase.tree

end Scriptlet
