import Scriptlet.Proofs.Consumption
import Scriptlet.Proofs.Derivation
/-!
Parsing is sound for the grammar: what a form of the grammar takes is a phrase of that form, and the
result is the tree of the phrase. A form is sound if the forms inside it are, so all are, by induction
on the nesting.
-/
namespace Scriptlet.Grammar

open Parse

section Expressions
variable {inner : Parse Expr} {requires : Token → Prop}

theorem consumes_unexpectedToken {α : Type} {ensures : List Token → α → Prop} (token : Token) :
    Consumes requires (unexpectedToken token : Parse α) ensures :=
  consumes_failAt _ _

theorem consumes_quotedText {quote : Token} (kind : quote.kind = .quote ∨ quote.kind = .apostrophe) :
    Consumes (· = quote) (quotedText quote) (Expr.Derives .primary) := by
  have inside : quote.kind ≠ .endOfInput := by rcases kind with same | same <;> simp [same]
  refine (consumes_next_of ?_).bind ?_
  · rintro _ rfl
    exact inside
  rintro _ opening ⟨rfl, rfl⟩
  apply (consumes_expect (by decide) _).bind
  rintro _ value ⟨rfl, string, -⟩
  apply (consumes_expect inside _).bind
  rintro _ closing ⟨rfl, same, -⟩
  exact consumes_pure (.quoted kind string same)

theorem consumes_numberLiteral {token : Token} (kind : token.kind = .number) :
    Consumes (· = token) (numberLiteral token) (Expr.Derives .primary) := by
  refine (consumes_next_of ?_).bind ?_
  · rintro _ rfl
    simp [kind]
  rintro _ _ ⟨rfl, rfl⟩
  split
  · rename_i read
    exact consumes_pure (.number kind read)
  · exact consumes_failAt _ _

theorem consumes_operation {tier : Tier} {operand : Parse Expr} (binary : tier.isBinary = true)
    (sound : Consumes (fun _ => True) operand (Expr.Derives tier.tighter))
    {before : List Token} {left : Expr} (derived : left.Derives tier before) :
    Consumes (fun token => tier.continues token = true) (operation operand left) fun ts e =>
      e.Derives tier (before ++ ts) := by
  refine (consumes_next_of ?_).bind ?_
  · rintro token continued ended
    cases tier <;> simp_all [Tier.isBinary, Tier.continues, isOperator]
  rintro _ operator ⟨rfl, continued⟩
  apply sound.bind
  intro ts right read
  exact consumes_pure (by simpa using .operation binary continued derived read)

theorem consumes_increment {before : List Token} {operand : Expr}
    (derived : operand.Derives .sum before) :
    Consumes (fun token => decide (token.kind = .unaryOperator) = true) (increment operand)
      fun ts e => e.Derives .sum (before ++ ts) := by
  refine (consumes_next_of ?_).bind ?_
  · intro token starts
    simp [of_decide_eq_true starts]
  rintro _ operator ⟨rfl, starts⟩
  exact consumes_pure (.increment derived (of_decide_eq_true starts))

section Tiers
variable (sound : Consumes (fun _ => True) inner (Expr.Derives .assignment))
include sound

theorem consumes_group :
    Consumes (·.kind = .openParen) (group inner) (Expr.Derives .primary) := by
  refine (consumes_next_of ?_).bind ?_
  · intro token kind
    simp [kind]
  rintro _ opening ⟨rfl, kind⟩
  apply sound.bind
  intro ts e derived
  apply (consumes_expect (by decide) _).bind
  rintro _ closing ⟨rfl, close, -⟩
  exact consumes_pure (.group kind derived close)

theorem consumes_primary :
    Consumes requires (primary inner) (Expr.Derives .primary) := by
  apply consumes_peek
  intro token _
  split
  · rename_i kind
    refine (consumes_next_of ?_).bind ?_
    · rintro _ rfl
      simp [kind]
    rintro _ _ ⟨rfl, rfl⟩
    exact consumes_pure (.name kind)
  · rename_i kind
    exact consumes_numberLiteral kind
  · rename_i kind
    exact (consumes_group sound).on kind
  · rename_i kind
    exact consumes_quotedText (.inl kind)
  · rename_i kind
    exact consumes_quotedText (.inr kind)
  · rename_i kind
    refine (consumes_next_of ?_).bind ?_
    · rintro _ rfl
      simp [kind]
    rintro _ _ ⟨rfl, rfl⟩
    exact consumes_pure (.bare kind)
  · exact consumes_unexpectedToken token

theorem consumes_arguments :
    Consumes requires (arguments inner) fun ts given =>
      ∃ opening items between closing, requires opening ∧ opening.kind = .openParen ∧
        Listed items between ∧
          (∀ item ∈ items, item.tree.Derives .assignment item.tokens) ∧ closing.kind = .closeParen ∧
            ts = opening :: (between ++ [closing]) ∧ given = items.map Phrase.tree := by
  apply (consumes_expect (by decide) _).bind
  rintro _ opening ⟨rfl, opens, current⟩
  apply consumes_isAt
  · refine (consumes_next_of ?_).bind ?_
    · intro token at_
      simp [at_.2]
    rintro _ closing ⟨rfl, -, closes⟩
    exact consumes_pure ⟨opening, [], [], closing, current, opens, .none, by simp, closes, rfl, rfl⟩
  · apply (sound.where_ fun _ _ => trivial).bind
    intro ts first derived
    have further : Consumes (fun token => decide (token.kind = .comma) = true)
        (do let _ ← next; inner)
        fun taken e => ∃ comma ts, comma.kind = .comma ∧ taken = comma :: ts ∧
          e.Derives .assignment ts := by
      refine (consumes_next_of ?_).bind ?_
      · intro token comma
        simp [of_decide_eq_true comma]
      rintro _ comma ⟨rfl, kind⟩
      refine sound.imp ?_
      intro more e read
      exact ⟨comma, more, of_decide_eq_true kind, rfl, read⟩
    apply (consumes_many further).bind
    rintro _ _ ⟨parts, all, rfl, rfl⟩
    apply (consumes_expect (by decide) _).bind
    rintro _ closing ⟨rfl, closes, -⟩
    -- each further argument brings its comma, so the list grows from its end
    have listed : ∃ items between, Listed items between ∧
        (∀ item ∈ items, item.tree.Derives .assignment item.tokens) ∧
          between = ts ++ parts.flatMap Prod.fst ∧ items.map Phrase.tree = first :: parts.map Prod.snd := by
      induction parts generalizing ts first with
      | nil =>
        refine ⟨[⟨ts, first⟩], ts, .one ⟨ts, first⟩, ?_, by simp, rfl⟩
        simpa using derived
      | cons part parts ih =>
        obtain ⟨comma, more, kind, taken, read⟩ := all part List.mem_cons_self
        obtain ⟨items, between, list, each, same, trees⟩ :=
          ih more part.2 read fun other member => all other (List.mem_cons_of_mem _ member)
        cases items with
        | nil => cases trees
        | cons next items =>
          refine ⟨⟨ts, first⟩ :: next :: items, _, .more kind list, ?_, ?_, by simp [trees]⟩
          · intro item member
            rcases List.mem_cons.mp member with rfl | later
            · exact derived
            · exact each item later
          · simp [same, taken]
    obtain ⟨items, between, list, each, same, trees⟩ := listed
    refine consumes_pure ⟨opening, items, between, closing, current, opens, list, each, closes, ?_, trees.symm⟩
    simp [same]

theorem consumes_namedMember {before : List Token} {holder : Expr}
    (derived : holder.Derives .access before) :
    Consumes (·.kind = .dot) (namedMember inner holder) fun ts e =>
      e.Derives .access (before ++ ts) := by
  refine (consumes_next_of ?_).bind ?_
  · intro token kind
    simp [kind]
  rintro _ point ⟨rfl, dot⟩
  apply consumes_peek
  intro token _
  apply (consumes_primary sound).bind
  intro ts key read
  split
  · simp only [joinDecimal]
    split
    · exact consumes_failAt _ _
    · rename_i points
      split
      · rename_i value number
        refine consumes_pure ?_
        simpa using Expr.Derives.decimal derived dot read (by simpa using points) number
      · exact consumes_failAt _ _
  · exact consumes_pure (by simpa using Expr.Derives.named derived dot read)
  · exact consumes_failAt _ _

theorem consumes_computedMember {before : List Token} {holder : Expr}
    (derived : holder.Derives .access before) :
    Consumes (·.kind = .openBracket) (computedMember inner holder) fun ts e =>
      e.Derives .access (before ++ ts) := by
  refine (consumes_next_of ?_).bind ?_
  · intro token kind
    simp [kind]
  rintro _ opening ⟨rfl, opens⟩
  apply sound.bind
  intro ts key read
  apply (consumes_expect (by decide) _).bind
  rintro _ closing ⟨rfl, closes, -⟩
  exact consumes_pure (.computed derived opens read closes)

theorem consumes_suffix {before : List Token} {value : Expr}
    (derived : value.Derives .access before) :
    Consumes (fun token => startsSuffix token = true) (suffix inner value) fun ts e =>
      e.Derives .access (before ++ ts) := by
  apply consumes_peek
  intro token starts
  split
  · rename_i kind
    apply (consumes_arguments sound).bind
    rintro _ _ ⟨_, items, between, closing, rfl, opens, listed, each, closes, rfl, rfl⟩
    exact consumes_pure (by simpa using Expr.Derives.call derived opens listed each closes)
  · rename_i kind
    exact (consumes_computedMember sound derived).on kind
  · rename_i noParen noBracket
    have kind : token.kind = .dot := by
      simp only [startsSuffix, Bool.or_eq_true, decide_eq_true_eq] at starts
      rcases starts with (paren | bracket) | dot
      · exact absurd paren noParen
      · exact absurd bracket noBracket
      · exact dot
    exact (consumes_namedMember sound derived).on kind

theorem consumes_access :
    Consumes requires (access inner) (Expr.Derives .access) := by
  apply (consumes_primary sound).bind
  intro ts first derived
  exact consumes_chain (Expr.Derives .access) (fun _ _ => consumes_suffix sound) (.through derived)

theorem consumes_comparison :
    Consumes requires (comparison inner) (Expr.Derives .comparison) := by
  apply (consumes_access sound).bind
  intro ts first derived
  refine consumes_chain (Expr.Derives .comparison) ?_ (.through derived)
  intro before left read
  exact consumes_operation rfl (consumes_access sound) read

theorem consumes_product :
    Consumes requires (product inner) (Expr.Derives .product) := by
  apply (consumes_comparison sound).bind
  intro ts first derived
  refine consumes_chain (Expr.Derives .product) ?_ (.through derived)
  intro before left read
  exact consumes_operation rfl (consumes_comparison sound) read

theorem consumes_sum : Consumes requires (sum inner) (Expr.Derives .sum) := by
  apply (consumes_product sound).bind
  intro ts first derived
  have terms : Consumes (fun _ => True)
      (chain (isOperator [utf8 "+", utf8 "-"]) (operation (product inner)) first) fun more e =>
        e.Derives .terms (ts ++ more) := by
    refine consumes_chain (Expr.Derives .terms) ?_ (.through derived)
    intro before left read
    exact consumes_operation rfl (consumes_product sound) read
  apply terms.bind
  intro more value read
  simp only [← List.append_assoc]
  exact consumes_chain (Expr.Derives .sum) (fun _ _ => consumes_increment) (.through read)

/-- Properties, and whether more of them may follow: one without a comma behind it is the last, since
a closing brace follows it. -/
theorem consumes_properties (bound : Nat) :
    Consumes requires (collect insideBraces (property inner) bound) fun ts given =>
      ∃ entries, Enumerated entries ts ∧
        (∀ entry ∈ entries, ∀ value ∈ entry.value, value.tree.Derives .assignment value.tokens) ∧
          given = entries.map Entry.tree := by
  induction bound generalizing requires with
  | zero => exact consumes_pure ⟨[], .none, by simp, rfl⟩
  | succ bound ih =>
    -- what stands behind a property goes on with the others or ends
    have separated (entry : Entry) (comma : Token) (formed : entry.Formed)
        (derived : ∀ value ∈ entry.value, value.tree.Derives .assignment value.tokens)
        (kind : comma.kind = .comma) :
        Consumes (fun _ => True)
          (do return entry.tree :: (← collect insideBraces (property inner) bound))
          fun more given => ∃ entries, Enumerated entries (entry.tokens ++ comma :: more) ∧
            (∀ entry ∈ entries, ∀ value ∈ entry.value,
              value.tree.Derives .assignment value.tokens) ∧ given = entries.map Entry.tree := by
      apply ih.bind
      rintro more _ ⟨entries, enumerated, each, rfl⟩
      refine consumes_pure ⟨entry :: entries, ?_, ?_, rfl⟩
      · rw [List.append_nil]
        exact .more formed kind enumerated
      · intro other member
        rcases List.mem_cons.mp member with rfl | later
        · exact derived
        · exact each other later
    have final (entry : Entry) (formed : entry.Formed)
        (derived : ∀ value ∈ entry.value, value.tree.Derives .assignment value.tokens) :
        Consumes (·.kind = .closeBrace)
          (do return entry.tree :: (← collect insideBraces (property inner) bound))
          fun more given => ∃ entries, Enumerated entries (entry.tokens ++ more) ∧
            (∀ entry ∈ entries, ∀ value ∈ entry.value,
              value.tree.Derives .assignment value.tokens) ∧ given = entries.map Entry.tree := by
      refine (consumes_collect_none bound ?_).bind ?_
      · intro token kind
        simp [insideBraces, kind]
      rintro _ _ ⟨rfl, rfl⟩
      refine consumes_pure ⟨[entry], ?_, by simpa using derived, rfl⟩
      rw [List.append_nil, List.append_nil]
      exact .one formed
    apply consumes_peek
    intro _ _
    split
    · simp only [property, bind_assoc]
      apply consumes_next.bind
      rintro taken key ⟨-, whole⟩
      split
      · have refused : Consumes (fun _ => True)
            (failAt key (Fault.keyNotName.about "Got" key.display) : Parse (Ident × Expr))
            fun _ _ => False := consumes_failAt _ _
        exact refused.bind fun _ _ => False.elim
      · rename_i kind
        have name : key.kind = .name := Decidable.not_not.mp kind
        obtain rfl : taken = [key] := whole (by simp [name])
        have bare : Entry.Formed ⟨key, key, none⟩ := ⟨name, absurd rfl⟩
        simp only [bind_assoc]
        apply consumes_peek
        intro token _
        split
        · rename_i comma
          simp only [bind_assoc, pure_bind]
          refine (consumes_next_of ?_).bind ?_
          · rintro _ rfl
            simp [comma]
          rintro _ separator ⟨rfl, rfl⟩
          exact separated ⟨key, key, none⟩ separator bare (by simp) comma
        · rename_i closes
          rw [pure_bind]
          exact (final ⟨key, key, none⟩ bare (by simp)).on closes
        · simp only [bind_assoc]
          apply (consumes_expect (by decide) _).bind
          rintro _ colon ⟨rfl, colon_, -⟩
          apply sound.bind
          intro ts value derived
          have valued : Entry.Formed ⟨key, colon, some ⟨ts, value⟩⟩ := ⟨name, fun _ => colon_⟩
          have inside : ∀ phrase ∈ (some ⟨ts, value⟩ : Option (Phrase Expr)),
              phrase.tree.Derives .assignment phrase.tokens := by
            rintro _ ⟨⟩
            exact derived
          apply consumes_isAt
          · simp only [if_true, pure_bind]
            exact (final ⟨key, colon, some ⟨ts, value⟩⟩ valued inside).where_ fun _ at_ => at_.2
          · simp only [Bool.false_eq_true, if_false, bind_assoc, pure_bind]
            refine (consumes_expect (by decide) _).bind ?_
            rintro _ comma ⟨rfl, kind, -⟩
            exact separated ⟨key, colon, some ⟨ts, value⟩⟩ comma valued inside kind
    · exact consumes_pure ⟨[], .none, by simp, rfl⟩

theorem consumes_object : Consumes requires (object inner) (Expr.Derives .object) := by
  apply consumes_isAt
  · refine (consumes_next_of ?_).bind ?_
    · intro token at_
      simp [at_.2]
    rintro _ opening ⟨rfl, -, opens⟩
    apply (consumes_get fun cursor => consumes_properties sound cursor.remaining).bind
    rintro ts _ ⟨entries, enumerated, each, rfl⟩
    apply (consumes_expect (by decide) _).bind
    rintro _ closing ⟨rfl, closes, -⟩
    exact consumes_pure (.object opens enumerated each closes)
  · exact (consumes_sum sound).imp fun _ _ => @Expr.Derives.through .object _ _

theorem consumes_assignment : Consumes requires (assignment inner) (Expr.Derives .assignment) := by
  apply (consumes_object sound).bind
  intro ts target derived
  apply consumes_isAt
  · refine (consumes_next_of ?_).bind ?_
    · intro token at_
      simp [at_.2]
    rintro _ equals ⟨rfl, -, kind⟩
    apply sound.bind
    intro more value read
    exact consumes_pure (by simpa using Expr.Derives.assign derived kind read)
  · exact consumes_pure (by simpa using @Expr.Derives.through .assignment _ _ derived)

end Tiers

theorem consumes_nested (depth : Nat) :
    Consumes requires (nested depth) (Expr.Derives .assignment) := by
  induction depth generalizing requires with
  | zero => exact consumes_peek fun token _ => consumes_unexpectedToken token
  | succ depth ih => exact consumes_assignment ih

theorem consumes_expression : Consumes requires expression (Expr.Derives .assignment) :=
  consumes_get fun cursor => consumes_nested cursor.remaining

end Expressions

section Statements
variable {inner : Parse Stmt} {requires : Token → Prop}

theorem consumes_declaration : Consumes requires declaration Declaration.Derives := by
  apply consumes_next.bind
  rintro taken word ⟨-, whole⟩
  split
  · exact consumes_throw _
  · rename_i kinds
    have kind : word.kind = .letWord ∨ word.kind = .constWord := by
      by_cases letWord : word.kind = .letWord
      · exact .inl letWord
      · exact .inr (by simpa [letWord] using kinds)
    obtain rfl : taken = [word] := by
      apply whole
      rcases kind with same | same <;> simp [same]
    apply (consumes_expect (by decide) _).bind
    rintro _ name ⟨rfl, isName, -⟩
    apply consumes_isAt
    · rw [if_pos rfl]
      split
      · exact consumes_failAt _ _
      · rename_i variable_
        have letWord : word.kind = .letWord := kind.resolve_right (by simpa using variable_)
        refine (consumes_next_of ?_).bind ?_
        · intro token at_
          simp [at_.2]
        rintro _ semicolon ⟨rfl, -, ends⟩
        refine consumes_pure ?_
        simpa [letWord] using Declaration.Derives.bare letWord isName ends
    · refine (consumes_expect (by decide) _).bind ?_
      rintro _ equals ⟨rfl, assigns, -⟩
      apply consumes_expression.bind
      intro ts first derived
      apply consumes_isAt
      · have operation : Consumes (fun token => True ∧ token.kind = .booleanOperator)
            (operation expression first) fun more e => ∃ operator inner right,
              operator.kind = .booleanOperator ∧ right.Derives .assignment inner ∧
                more = operator :: inner ∧ e = .binary operator operator.literal first right := by
          refine (consumes_next_of ?_).bind ?_
          · intro token at_
            simp [at_.2]
          rintro _ operator ⟨rfl, -, compares⟩
          apply consumes_expression.bind
          intro inner right read
          exact consumes_pure ⟨operator, inner, right, compares, read, by simp, rfl⟩
        refine operation.bind ?_
        rintro _ _ ⟨operator, inner, right, compares, read, rfl, rfl⟩
        apply (consumes_expect (by decide) _).bind
        rintro _ semicolon ⟨rfl, ends, -⟩
        refine consumes_pure ?_
        simpa using Declaration.Derives.folded kind isName assigns derived compares read ends
      · simp only [Bool.false_eq_true, if_false, pure_bind]
        apply (consumes_expect (by decide) _).bind
        rintro _ semicolon ⟨rfl, ends, -⟩
        refine consumes_pure ?_
        simpa using Declaration.Derives.valued kind isName assigns derived ends

theorem consumes_parameters (function : Token) (given : List Expr) :
    Consumes requires (parameters function given) fun ts names =>
      ts = [] ∧ given = names.map Expr.ident := by
  induction given generalizing requires with
  | nil => exact consumes_pure ⟨rfl, rfl⟩
  | cons e rest ih =>
    unfold parameters
    split
    · exact consumes_pure ⟨rfl, by simp_all⟩
    · rename_i same
      injection same with head tail
      subst head tail
      apply ih.bind
      rintro _ names ⟨rfl, rfl⟩
      exact consumes_pure ⟨rfl, rfl⟩
    · exact consumes_failAt _ _

theorem consumes_expressionStatement :
    Consumes requires expressionStatement Stmt.Derives := by
  apply consumes_expression.bind
  intro ts value derived
  apply consumes_isAt
  · refine (consumes_next_of ?_).bind ?_
    · intro token at_
      simp [at_.2]
    rintro _ semicolon ⟨rfl, -, ends⟩
    exact consumes_pure (.closed derived ends)
  · exact consumes_pure (by simpa using Stmt.Derives.expr derived)

section Forms
variable (sound : Consumes (fun _ => True) inner Stmt.Derives)
include sound

theorem consumes_block :
    Consumes requires (block inner) fun ts body => ∃ block : Block, block.Braced ∧
      (∀ part ∈ block.body, part.tree.Derives part.tokens) ∧ ts = block.tokens ∧
        body = block.trees := by
  apply (consumes_expect (by decide) _).bind
  rintro _ opening ⟨rfl, opens, -⟩
  apply (consumes_many (sound.where_ fun _ _ => trivial)).bind
  rintro _ _ ⟨parts, all, rfl, rfl⟩
  apply (consumes_expect (by decide) _).bind
  rintro _ closing ⟨rfl, closes, -⟩
  refine consumes_pure ⟨⟨opening, parts.map fun part => ⟨part.1, part.2⟩, closing⟩, ⟨opens, closes⟩,
    ?_, ?_, ?_⟩
  · intro part member
    obtain ⟨pair, inside, rfl⟩ := List.mem_map.mp member
    exact all pair inside
  · simp [Block.tokens, List.flatMap_map]
  · simp [Block.trees]

theorem consumes_function : Consumes (·.kind = .funcWord) (function inner) Stmt.Derives := by
  refine (consumes_next_of ?_).bind ?_
  · intro token kind
    simp [kind]
  rintro _ word ⟨rfl, func⟩
  apply (consumes_expect (by decide) _).bind
  rintro _ name ⟨rfl, isName, -⟩
  apply (consumes_arguments consumes_expression).bind
  rintro _ _ ⟨opening, items, between, closing, -, opens, listed, each, closes, rfl, rfl⟩
  apply (consumes_parameters name _).bind
  rintro _ names ⟨rfl, same⟩
  apply (consumes_block sound).bind
  rintro _ _ ⟨block, braced, statements, rfl, rfl⟩
  refine consumes_pure ?_
  simpa using
    Stmt.Derives.function func isName opens listed each closes same braced statements

theorem consumes_guarded (kind : Kind) (some_ : kind ≠ .endOfInput) :
    Consumes (·.kind = kind) (guarded inner) fun ts guard => ∃ link : Link,
      link.Formed kind .assignment ∧ (∀ part ∈ link.block.body, part.tree.Derives part.tokens) ∧
        ts = link.tokens ∧ guard = link.tree := by
  refine (consumes_next_of ?_).bind ?_
  · intro token same
    rwa [same]
  rintro _ word ⟨rfl, same⟩
  apply (consumes_expect (by decide) _).bind
  rintro _ opening ⟨rfl, opens, -⟩
  apply consumes_expression.bind
  intro ts condition derived
  apply (consumes_expect (by decide) _).bind
  rintro _ closing ⟨rfl, closes, -⟩
  apply (consumes_block sound).bind
  rintro _ _ ⟨block, braced, statements, rfl, rfl⟩
  refine consumes_pure ⟨⟨word, opening, ⟨ts, condition⟩, closing, block⟩,
    ⟨same, opens, derived, closes, braced⟩, statements, ?_, rfl⟩
  simp [Link.tokens]

theorem consumes_otherwise :
    Consumes requires (otherwise inner) fun ts last => ts = [] ∧ last = [] ∨
      ∃ word, ∃ block : Block, word.kind = .elseWord ∧ block.Braced ∧
        (∀ part ∈ block.body, part.tree.Derives part.tokens) ∧ ts = word :: block.tokens ∧
          last = [⟨word, .boolean word true, block.trees⟩] := by
  apply consumes_isAt
  · refine (consumes_next_of ?_).bind ?_
    · intro token at_
      simp [at_.2]
    rintro _ word ⟨rfl, -, otherwise⟩
    apply (consumes_block sound).bind
    rintro _ _ ⟨block, braced, statements, rfl, rfl⟩
    exact consumes_pure (.inr ⟨word, block, otherwise, braced, statements, by simp, rfl⟩)
  · exact consumes_pure (.inl ⟨rfl, rfl⟩)

theorem consumes_branch : Consumes (·.kind = .ifWord) (branch inner) Stmt.Derives := by
  apply (consumes_guarded sound _ (by decide)).bind
  rintro _ _ ⟨first, formed, statements, rfl, rfl⟩
  apply (consumes_many ((consumes_guarded sound .elifWord (by decide)).where_
    fun _ word => of_decide_eq_true word)).bind
  rintro _ _ ⟨parts, all, rfl, rfl⟩
  -- each further link is the phrase of its tokens
  have links : ∃ others : List Link, (∀ link ∈ others, link.Formed .elifWord .assignment ∧
      ∀ part ∈ link.block.body, part.tree.Derives part.tokens) ∧
        parts.flatMap Prod.fst = others.flatMap Link.tokens ∧
          parts.map Prod.snd = others.map Link.tree := by
    induction parts with
    | nil => exact ⟨[], by simp, rfl, rfl⟩
    | cons part parts ih =>
      obtain ⟨link, linked, inside, taken, tree⟩ := all part List.mem_cons_self
      obtain ⟨others, each, tokens, trees⟩ :=
        ih fun other member => all other (List.mem_cons_of_mem _ member)
      refine ⟨link :: others, ?_, by simp [taken, tokens], by simp [tree, trees]⟩
      intro other member
      rcases List.mem_cons.mp member with rfl | later
      · exact ⟨linked, inside⟩
      · exact each other later
  obtain ⟨others, each, tokens, trees⟩ := links
  have bodies : ∀ link ∈ first :: others, ∀ part ∈ link.block.body,
      part.tree.Derives part.tokens := by
    intro link member
    rcases List.mem_cons.mp member with rfl | later
    · exact statements
    · exact (each link later).2
  have conditions := fun link member => (each link member).1
  rw [tokens, trees]
  apply (consumes_otherwise sound).bind
  rintro _ _ (⟨rfl, rfl⟩ | ⟨word, block, otherwise, braced, last, rfl, rfl⟩)
  · refine consumes_pure ?_
    simpa using Stmt.Derives.branch formed conditions bodies
  · refine consumes_pure ?_
    simpa using Stmt.Derives.otherwise formed conditions bodies otherwise braced last

theorem consumes_whileLoop : Consumes (·.kind = .whileWord) (whileLoop inner) Stmt.Derives := by
  refine (consumes_next_of ?_).bind ?_
  · intro token kind
    simp [kind]
  rintro _ word ⟨rfl, loops⟩
  apply (consumes_expect (by decide) _).bind
  rintro _ opening ⟨rfl, opens, -⟩
  apply (consumes_comparison consumes_expression).bind
  intro ts test derived
  apply (consumes_expect (by decide) _).bind
  rintro _ closing ⟨rfl, closes, -⟩
  apply (consumes_block sound).bind
  rintro _ _ ⟨block, braced, statements, rfl, rfl⟩
  have formed : Link.Formed .whileWord .comparison ⟨word, opening, ⟨ts, test⟩, closing, block⟩ :=
    ⟨loops, opens, derived, closes, braced⟩
  refine consumes_pure ?_
  simpa [Link.tokens] using Stmt.Derives.whileLoop formed statements

theorem consumes_forLoop : Consumes (·.kind = .forWord) (forLoop inner) Stmt.Derives := by
  refine (consumes_next_of ?_).bind ?_
  · intro token kind
    simp [kind]
  rintro _ word ⟨rfl, loops⟩
  apply (consumes_expect (by decide) _).bind
  rintro _ opening ⟨rfl, opens, -⟩
  apply consumes_declaration.bind
  intro first start declared
  apply (consumes_comparison consumes_expression).bind
  intro ts test derived
  apply (consumes_expect (by decide) _).bind
  rintro _ semicolon ⟨rfl, ends, -⟩
  have ended (requires : Token → Prop) (step : Expr) (taken : List Token)
      (stepped : taken = [] ∧ step = .absent ∨
        (∃ token ∈ taken.head?, token.kind = .name) ∧ step.Derives .assignment taken) (hint : Text) :
      Consumes requires (do
        let _ ← expect .closeParen hint
        return .forLoop word (some start) test step (← block inner)) fun more =>
          Stmt.Derives (word :: opening :: (first ++ (ts ++ semicolon :: (taken ++ more)))) := by
    apply (consumes_expect (by decide) _).bind
    rintro _ closing ⟨rfl, closes, -⟩
    apply (consumes_block sound).bind
    rintro _ _ ⟨block, braced, statements, rfl, rfl⟩
    refine consumes_pure ?_
    simpa using
      Stmt.Derives.forLoop loops opens declared derived ends stepped closes braced statements
  apply consumes_isAt
  · refine consumes_expression.headed.bind ?_
    rintro taken step ⟨read, headed⟩
    obtain ⟨token, first, -, name⟩ := headed read.ne_nil
    have stepped := ended (fun _ => True) step taken (.inr ⟨⟨token, first, name⟩, read⟩)
    simpa using stepped _
  · have absent := ended (fun token => True ∧ token.kind ≠ .name) .absent [] (.inl ⟨rfl, rfl⟩)
    simpa using absent _

theorem consumes_statementOf : Consumes requires (statementOf inner) Stmt.Derives := by
  have declares : ∀ {requires}, Consumes requires (do return .declare (← declaration))
      Stmt.Derives := by
    intro requires
    apply consumes_declaration.bind
    intro ts declaration derived
    exact consumes_pure (by simpa using Stmt.Derives.declare derived)
  apply consumes_peek
  intro token _
  split
  · exact declares
  · exact declares
  · rename_i word
    exact (consumes_function sound).on word
  · rename_i word
    exact (consumes_branch sound).on word
  · rename_i word
    exact (consumes_whileLoop sound).on word
  · rename_i word
    exact (consumes_forLoop sound).on word
  · exact consumes_expressionStatement

end Forms

theorem consumes_nestedStatement (depth : Nat) :
    Consumes requires (nestedStatement depth) Stmt.Derives := by
  induction depth generalizing requires with
  | zero => exact consumes_peek fun token _ => consumes_unexpectedToken token
  | succ depth ih => exact consumes_statementOf ih

theorem consumes_statement : Consumes requires statement Stmt.Derives :=
  consumes_get fun cursor => consumes_nestedStatement cursor.remaining

theorem consumes_program : Consumes requires program Program.Derives := by
  refine (consumes_many consumes_statement).imp ?_
  rintro _ _ ⟨parts, all, rfl, rfl⟩
  refine ⟨parts.map fun part => ⟨part.1, part.2⟩, ?_, by simp [List.flatMap_map], by simp⟩
  intro part member
  obtain ⟨pair, inside, rfl⟩ := List.mem_map.mp member
  exact all pair inside

end Statements

end Scriptlet.Grammar
