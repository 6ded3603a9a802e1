import Scriptlet.Proofs.Reading
/-!
Well-formed programs. A tree may hold more than the grammar ever writes: an operand that is left out,
a number without digits, an operator of no meaning. The trees that parsing gives hold none of that.
Every form of the grammar yields well-formed trees from tokens that are spelled as their kinds demand
if the forms inside it do, so the grammar as a whole does, by induction on the nesting.
-/
namespace Scriptlet

/-- Digits, or digits on both sides of a point. -/
def Text.IsNumeral (text : Text) : Prop :=
  text.IsDigits ∨ ∃ whole fraction : Text,
    whole.IsDigits ∧ fraction.IsDigits ∧ text = whole ++ utf8 "." ++ fraction

/-- The name is the text of a name token. -/
structure Ident.WellFormed (name : Ident) : Prop where
  kind : name.token.kind = .name
  text : name.text = name.token.literal

/-- Expressions as the grammar writes them. A truth value is none of them, and nothing may be left out
but the value of a property and the operand of an operator that stands alone. -/
inductive Expr.WellFormed : Expr → Prop where
  | ident {name} : name.WellFormed → WellFormed (.ident name)
  | number {token value text} : text.IsNumeral → WellFormed (.number token value text)
  | string {token value} : WellFormed (.string token value)
  | object {token properties} :
      (∀ property ∈ properties, property.1.WellFormed) →
        (∀ property ∈ properties, property.2 ≠ .absent → WellFormed property.2) →
          WellFormed (.object token properties)
  | assign {token target value} :
      WellFormed target → WellFormed value → WellFormed (.assign token target value)
  | comparison {token left right} :
      token.kind = .booleanOperator → token.literal ∈ Comparison.spellings →
        WellFormed left → WellFormed right → WellFormed (.binary token token.literal left right)
  | arithmetic {token left right} :
      token.kind = .binaryOperator → token.literal ∈ Arithmetic.spellings →
        WellFormed left → WellFormed right → WellFormed (.binary token token.literal left right)
  | unary {token operator operand} :
      operator ∈ doubledOperators → (operand ≠ .absent → WellFormed operand) →
        WellFormed (.unary token operator operand)
  | call {token callee arguments} :
      WellFormed callee → (∀ argument ∈ arguments, WellFormed argument) →
        WellFormed (.call token callee arguments)
  | computed {token holder key} :
      WellFormed holder → WellFormed key → WellFormed (.member token holder key true)
  | named {token holder name} :
      WellFormed holder → name.WellFormed → WellFormed (.member token holder (.ident name) false)

/-- Declarations as the grammar writes them. -/
structure Declaration.WellFormed (d : Declaration) : Prop where
  name : d.name.WellFormed
  constant : d.constant = true → d.value ≠ .absent
  value : d.value ≠ .absent → d.value.WellFormed

/-- A link with a condition of its own: any but an `else`. -/
structure Guarded.Conditional (link : Guarded Stmt) : Prop where
  word : link.token.kind = .ifWord ∨ link.token.kind = .elifWord
  condition : link.condition.WellFormed

/-- Statements as the grammar writes them. The links of a chain have conditions; an `else`, whose
condition is the truth value, comes last. -/
inductive Stmt.WellFormed : Stmt → Prop where
  | expr {value} : value.WellFormed → WellFormed (.expr value)
  | declare {d} : d.WellFormed → WellFormed (.declare d)
  | function {token name parameters body} :
      name.WellFormed → (∀ parameter ∈ parameters, parameter.WellFormed) →
        (∀ statement ∈ body, WellFormed statement) →
          WellFormed (.function token name parameters body)
  | branch {first others} :
      (∀ link ∈ first :: others, link.Conditional) →
        (∀ link ∈ first :: others, ∀ statement ∈ link.body, WellFormed statement) →
          WellFormed (.branch first others)
  | otherwise {first others token body} :
      (∀ link ∈ first :: others, link.Conditional) →
        (∀ link ∈ first :: others, ∀ statement ∈ link.body, WellFormed statement) →
          token.kind = .elseWord → (∀ statement ∈ body, WellFormed statement) →
            WellFormed (.branch first (others ++ [⟨token, .boolean token true, body⟩]))
  | whileLoop {token test body} :
      test.WellFormed → (∀ statement ∈ body, WellFormed statement) →
        WellFormed (.whileLoop token test body)
  | forLoop {token d test step body} :
      d.WellFormed → test.WellFormed → (step ≠ .absent → step.WellFormed) →
        (∀ statement ∈ body, WellFormed statement) →
          WellFormed (.forLoop token (some d) test step body)

def Program.WellFormed (program : Program) : Prop := ∀ statement ∈ program, statement.WellFormed

theorem Expr.WellFormed.ne_absent {e : Expr} (formed : e.WellFormed) : e ≠ .absent := by
  rintro rfl
  cases formed

namespace Grammar

open Parse

section Expressions
variable {inner : Parse Expr} {requires : Token → Prop}

theorem yields_unexpectedToken {α : Type} {ensures : α → Prop} (token : Token) :
    Yields requires (unexpectedToken token : Parse α) ensures :=
  yields_failAt _ _

theorem yields_quotedText (quote : Token) : Yields requires (quotedText quote) Expr.WellFormed := by
  apply yields_next.bind
  intro _ _
  apply (yields_expect _ _).bind
  intro value _
  apply (yields_expect _ _).bind
  intro _ _
  exact yields_pure .string

theorem yields_numberLiteral {token : Token} (digits : token.literal.IsDigits) :
    Yields requires (numberLiteral token) Expr.WellFormed := by
  apply yields_next.bind
  intro _ _
  split
  · exact yields_pure (.number (.inl digits))
  · exact yields_failAt _ _

theorem isDigits_of_isNumeral {text : Text} (numeral : text.IsNumeral)
    (plain : text.contains 46 = false) : text.IsDigits := by
  rcases numeral with digits | ⟨whole, fraction, -, -, rfl⟩
  · exact digits
  · -- the other form of a numeral has a point
    have point : utf8 "." = [46] := by decide
    simp [point] at plain

theorem yields_joinDecimal {token : Token} {whole fraction : Text} (left : whole.IsNumeral)
    (right : fraction.IsNumeral) :
    Yields requires (joinDecimal token whole fraction) Expr.WellFormed := by
  simp only [joinDecimal]
  split
  · exact yields_failAt _ _
  · rename_i points
    simp only [Bool.or_eq_true, not_or, Bool.not_eq_true] at points
    have wholeDigits := isDigits_of_isNumeral left points.1
    have fractionDigits := isDigits_of_isNumeral right points.2
    split
    · exact yields_pure (.number (.inr ⟨whole, fraction, wholeDigits, fractionDigits, rfl⟩))
    · exact yields_failAt _ _

theorem yields_operation {operand : Parse Expr}
    (sound : Yields (fun _ => True) operand Expr.WellFormed) {left : Expr}
    (formed : left.WellFormed) :
    Yields (fun token => token.kind = .booleanOperator ∨ token.kind = .binaryOperator)
      (operation operand left) Expr.WellFormed := by
  apply yields_next.bind
  rintro token ⟨spelled, operator⟩
  apply sound.bind
  intro right read
  apply yields_pure
  rcases operator with kind | kind
  · rw [Token.Spelled, kind] at spelled
    exact .comparison kind spelled formed read
  · rw [Token.Spelled, kind] at spelled
    exact .arithmetic kind spelled formed read

theorem yields_operations {operand : Parse Expr}
    (sound : Yields (fun _ => True) operand Expr.WellFormed) (operators : List Text) {first : Expr}
    (formed : first.WellFormed) :
    Yields requires (chain (isOperator operators) (operation operand) first) Expr.WellFormed := by
  refine yields_chain ?_ formed
  intro left read
  apply (yields_operation sound read).where_
  intro token starts
  simp only [isOperator, Bool.and_eq_true, decide_eq_true_eq] at starts
  exact .inr starts.1

theorem yields_increment {operand : Expr} (formed : operand.WellFormed) :
    Yields (fun token => decide (token.kind = .unaryOperator) = true) (increment operand)
      Expr.WellFormed := by
  apply yields_next.bind
  rintro token ⟨spelled, starts⟩
  rw [Token.Spelled, of_decide_eq_true starts] at spelled
  exact yields_pure (.unary spelled fun _ => formed)

section Levels
variable (sound : Yields (fun _ => True) inner Expr.WellFormed)
include sound

theorem yields_group : Yields requires (group inner) Expr.WellFormed := by
  apply yields_next.bind
  intro _ _
  apply sound.bind
  intro value formed
  apply (yields_expect _ _).bind
  intro _ _
  exact yields_pure formed

theorem yields_primary : Yields requires (primary inner) Expr.WellFormed := by
  apply yields_peek
  intro token spelled _
  split
  · rename_i kind
    apply yields_next.bind
    intro _ _
    exact yields_pure (.ident ⟨kind, rfl⟩)
  · rename_i kind
    rw [Token.Spelled, kind] at spelled
    exact yields_numberLiteral spelled
  · exact yields_group sound
  · exact yields_quotedText token
  · exact yields_quotedText token
  · rename_i kind
    rw [Token.Spelled, kind] at spelled
    apply yields_next.bind
    intro _ _
    exact yields_pure (.unary spelled (absurd rfl))
  · exact yields_unexpectedToken token

theorem yields_arguments :
    Yields requires (arguments inner) fun given => ∀ e ∈ given, e.WellFormed := by
  apply (yields_expect _ _).bind
  intro _ _
  apply yields_isAt
  · apply yields_next.bind
    intro _ _
    exact yields_pure (by simp)
  · apply (sound.where_ fun _ _ => trivial).bind
    intro first formed
    have further : Yields (fun token => decide (token.kind = .comma) = true)
        (do let _ ← next; inner) Expr.WellFormed := yields_next.bind fun _ _ => sound
    apply (yields_many further).bind
    intro others all
    apply (yields_expect _ _).bind
    intro _ _
    apply yields_pure
    intro e member
    rcases List.mem_cons.mp member with rfl | later
    · exact formed
    · exact all e later

theorem yields_namedMember {holder : Expr} (formed : holder.WellFormed) :
    Yields requires (namedMember inner holder) Expr.WellFormed := by
  apply yields_next.bind
  intro point _
  apply yields_peek
  intro token _ _
  apply (yields_primary sound).bind
  intro key read
  split
  · cases formed with
    | number left =>
      cases read with
      | number right => exact yields_joinDecimal left right
  · cases read with
    | ident name => exact yields_pure (.named formed name)
  · exact yields_failAt _ _

theorem yields_computedMember {holder : Expr} (formed : holder.WellFormed) :
    Yields requires (computedMember inner holder) Expr.WellFormed := by
  apply yields_next.bind
  intro bracket _
  apply sound.bind
  intro key read
  apply (yields_expect _ _).bind
  intro _ _
  exact yields_pure (.computed formed read)

theorem yields_suffix {value : Expr} (formed : value.WellFormed) :
    Yields requires (suffix inner value) Expr.WellFormed := by
  apply yields_peek
  intro token _ _
  split
  · apply (yields_arguments sound).bind
    intro given all
    exact yields_pure (.call formed all)
  · exact yields_computedMember sound formed
  · exact yields_namedMember sound formed

theorem yields_access : Yields requires (access inner) Expr.WellFormed := by
  apply (yields_primary sound).bind
  intro first formed
  exact yields_chain (fun _ => yields_suffix sound) formed

theorem yields_comparison : Yields requires (comparison inner) Expr.WellFormed := by
  apply (yields_access sound).bind
  intro first formed
  refine yields_chain ?_ formed
  intro left read
  apply (yields_operation (yields_access sound) read).where_
  intro token starts
  exact .inl (of_decide_eq_true starts)

theorem yields_product : Yields requires (product inner) Expr.WellFormed := by
  apply (yields_comparison sound).bind
  intro first formed
  exact yields_operations (yields_comparison sound) _ formed

theorem yields_sum : Yields requires (sum inner) Expr.WellFormed := by
  apply (yields_product sound).bind
  intro first formed
  apply (yields_operations (yields_product sound) _ formed).bind
  intro value total
  exact yields_chain (fun _ => yields_increment) total

theorem yields_property :
    Yields requires (property inner) fun read =>
      read.1.WellFormed ∧ (read.2 ≠ .absent → read.2.WellFormed) := by
  apply yields_next.bind
  rintro key -
  split
  · exact yields_failAt _ _
  · rename_i kind
    have name : Ident.WellFormed ⟨key, key.literal⟩ := ⟨Decidable.not_not.mp kind, rfl⟩
    apply yields_peek
    intro token _ _
    split
    · apply yields_next.bind
      intro _ _
      exact yields_pure ⟨name, absurd rfl⟩
    · exact yields_pure ⟨name, absurd rfl⟩
    · apply (yields_expect _ _).bind
      intro _ _
      apply sound.bind
      intro value formed
      apply yields_isAt
      · exact yields_pure ⟨name, fun _ => formed⟩
      · refine (yields_expect _ _).bind ?_
        intro _ _
        exact yields_pure ⟨name, fun _ => formed⟩

theorem yields_object : Yields requires (object inner) Expr.WellFormed := by
  apply yields_isAt
  · apply yields_next.bind
    intro brace _
    apply (yields_many (yields_property sound)).bind
    intro properties all
    apply (yields_expect _ _).bind
    intro _ _
    exact yields_pure (.object (fun entry member => (all entry member).1)
      fun entry member => (all entry member).2)
  · exact yields_sum sound

theorem yields_assignment : Yields requires (assignment inner) Expr.WellFormed := by
  apply (yields_object sound).bind
  intro target formed
  apply yields_isAt
  · apply yields_next.bind
    intro token _
    apply sound.bind
    intro value read
    exact yields_pure (.assign formed read)
  · exact yields_pure formed

end Levels

theorem yields_nested (depth : Nat) : Yields requires (nested depth) Expr.WellFormed := by
  -- a level is sound if the one below is, wherever that stands: so for all requirements at once
  induction depth generalizing requires with
  | zero => exact yields_peek fun token _ _ => yields_unexpectedToken token
  | succ depth ih => exact yields_assignment ih

theorem yields_expression : Yields requires expression Expr.WellFormed :=
  yields_get fun cursor => yields_nested cursor.remaining

end Expressions

section Statements
variable {inner : Parse Stmt} {requires : Token → Prop}

theorem yields_declared {token word : Token} (kind : word.kind = .name) (constant : Bool)
    {value : Expr} (formed : value.WellFormed) (hint : Text) :
    Yields requires (do
      let _ ← expect .semicolon hint
      return Declaration.mk token ⟨word, word.literal⟩ constant value) Declaration.WellFormed := by
  apply (yields_expect _ _).bind
  intro _ _
  exact yields_pure ⟨⟨kind, rfl⟩, fun _ => formed.ne_absent, fun _ => formed⟩

theorem yields_declaration : Yields requires declaration Declaration.WellFormed := by
  apply yields_next.bind
  intro token _
  split
  · exact yields_throw _
  · apply (yields_expect _ _).bind
    rintro word ⟨-, kind⟩
    apply yields_isAt
    · rw [if_pos rfl]
      split
      · exact yields_failAt _ _
      · rename_i variable_
        apply yields_next.bind
        intro _ _
        refine yields_pure ⟨⟨kind, rfl⟩, ?_, absurd rfl⟩
        intro constant
        exact absurd (of_decide_eq_true constant) variable_
    · refine (yields_expect _ _).bind ?_
      intro _ _
      apply yields_expression.bind
      intro first formed
      -- a comparison left over behind the value is folded into it
      apply yields_isAt
      · refine ((yields_operation yields_expression formed).where_ fun _ at_ => .inl at_.2).bind ?_
        intro value folded
        exact yields_declared kind _ folded _
      · exact yields_declared kind _ formed _

theorem yields_parameters (function : Token) {given : List Expr}
    (formed : ∀ e ∈ given, e.WellFormed) :
    Yields requires (parameters function given) fun names => ∀ name ∈ names, name.WellFormed := by
  induction given generalizing requires with
  | nil => exact yields_pure (by simp)
  | cons e rest ih =>
    have head := formed e List.mem_cons_self
    cases head with
    | ident name =>
      apply (ih fun other member => formed other (List.mem_cons_of_mem _ member)).bind
      intro names all
      apply yields_pure
      intro other member
      rcases List.mem_cons.mp member with rfl | later
      · exact name
      · exact all other later
    | _ => exact yields_failAt _ _

theorem yields_expressionStatement : Yields requires expressionStatement Stmt.WellFormed := by
  apply yields_expression.bind
  intro value formed
  apply yields_isAt
  · apply yields_next.bind
    intro _ _
    exact yields_pure (.expr formed)
  · exact yields_pure (.expr formed)

section Forms
variable (sound : Yields (fun _ => True) inner Stmt.WellFormed)
include sound

theorem yields_block :
    Yields requires (block inner) fun body => ∀ statement ∈ body, statement.WellFormed := by
  apply (yields_expect _ _).bind
  intro _ _
  apply (yields_many (sound.where_ fun _ _ => trivial)).bind
  intro body all
  apply (yields_expect _ _).bind
  intro _ _
  exact yields_pure all

theorem yields_function : Yields requires (function inner) Stmt.WellFormed := by
  apply yields_next.bind
  intro token _
  apply (yields_expect _ _).bind
  rintro word ⟨-, kind⟩
  apply (yields_arguments yields_expression).bind
  intro given formed
  apply (yields_parameters word formed).bind
  intro names all
  apply (yields_block sound).bind
  intro body statements
  exact yields_pure (.function ⟨kind, rfl⟩ all statements)

theorem yields_guarded :
    Yields (fun token => token.kind = .ifWord ∨ token.kind = .elifWord) (guarded inner) fun link =>
      link.Conditional ∧ ∀ statement ∈ link.body, statement.WellFormed := by
  apply yields_next.bind
  rintro token ⟨-, word⟩
  apply (yields_expect _ _).bind
  intro _ _
  apply yields_expression.bind
  intro condition formed
  apply (yields_expect _ _).bind
  intro _ _
  apply (yields_block sound).bind
  intro body statements
  exact yields_pure ⟨⟨word, formed⟩, statements⟩

theorem yields_otherwise :
    Yields requires (otherwise inner) fun last => last = [] ∨ ∃ token body,
      last = [⟨token, .boolean token true, body⟩] ∧ token.kind = .elseWord ∧
        ∀ statement ∈ body, statement.WellFormed := by
  apply yields_isAt
  · apply yields_next.bind
    rintro token ⟨-, -, word⟩
    apply (yields_block sound).bind
    intro body statements
    exact yields_pure (.inr ⟨token, body, rfl, word, statements⟩)
  · exact yields_pure (.inl rfl)

theorem yields_branch : Yields (·.kind = .ifWord) (branch inner) Stmt.WellFormed := by
  apply ((yields_guarded sound).where_ fun _ word => .inl word).bind
  intro first formed
  apply (yields_many ((yields_guarded sound).where_
    fun _ word => .inr (of_decide_eq_true word))).bind
  intro others all
  have links : ∀ link ∈ first :: others, link.Conditional ∧
      ∀ statement ∈ link.body, statement.WellFormed := by
    intro link member
    rcases List.mem_cons.mp member with rfl | later
    · exact formed
    · exact all link later
  have conditions := fun link member => (links link member).1
  have bodies := fun link member => (links link member).2
  apply (yields_otherwise sound).bind
  intro last ended
  apply yields_pure
  rcases ended with rfl | ⟨token, body, rfl, word, statements⟩
  · rw [List.append_nil]
    exact .branch conditions bodies
  · exact .otherwise conditions bodies word statements

theorem yields_whileLoop : Yields requires (whileLoop inner) Stmt.WellFormed := by
  apply yields_next.bind
  intro token _
  apply (yields_expect _ _).bind
  intro _ _
  apply (yields_comparison yields_expression).bind
  intro test formed
  apply (yields_expect _ _).bind
  intro _ _
  apply (yields_block sound).bind
  intro body statements
  exact yields_pure (.whileLoop formed statements)

theorem yields_looped {token : Token}
    {d : Declaration} {test step : Expr} (declared : d.WellFormed) (formed : test.WellFormed)
    (stepped : step ≠ .absent → step.WellFormed) (hint : Text) :
    Yields requires (do
      let _ ← expect .closeParen hint
      return .forLoop token (some d) test step (← block inner)) Stmt.WellFormed := by
  apply (yields_expect _ _).bind
  intro _ _
  apply (yields_block sound).bind
  intro body statements
  exact yields_pure (.forLoop declared formed stepped statements)

theorem yields_forLoop : Yields requires (forLoop inner) Stmt.WellFormed := by
  apply yields_next.bind
  intro token _
  apply (yields_expect _ _).bind
  intro _ _
  apply yields_declaration.bind
  intro d declared
  apply (yields_comparison yields_expression).bind
  intro test formed
  apply (yields_expect _ _).bind
  intro _ _
  apply yields_isAt
  · refine yields_expression.bind ?_
    intro step read
    exact yields_looped sound declared formed (fun _ => read) _
  · exact yields_looped sound declared formed (absurd rfl) _

theorem yields_statementOf : Yields requires (statementOf inner) Stmt.WellFormed := by
  have declares : ∀ {requires}, Yields requires (do return .declare (← declaration))
      Stmt.WellFormed := yields_declaration.bind fun _ formed => yields_pure (.declare formed)
  apply yields_peek
  intro token _ _
  split
  · exact declares
  · exact declares
  · exact yields_function sound
  · rename_i word
    exact (yields_branch sound).on word
  · exact yields_whileLoop sound
  · exact yields_forLoop sound
  · exact yields_expressionStatement

end Forms

theorem yields_nestedStatement (depth : Nat) :
    Yields requires (nestedStatement depth) Stmt.WellFormed := by
  induction depth generalizing requires with
  | zero => exact yields_peek fun token _ _ => yields_unexpectedToken token
  | succ depth ih => exact yields_statementOf ih

theorem yields_statement : Yields requires statement Stmt.WellFormed :=
  yields_get fun cursor => yields_nestedStatement cursor.remaining

theorem yields_program : Yields requires program Program.WellFormed :=
  yields_many yields_statement

end Statements

theorem wellFormed_of_parseAt {cursor : Cursor} {parsed : Program} (spelled : cursor.Spelled)
    (accepted : parseAt cursor = .ok parsed) : parsed.WellFormed := by
  unfold parseAt at accepted
  rcases ran : program.run cursor with fault | ⟨read, after⟩
  · rw [ran] at accepted
    cases accepted
  · rw [ran] at accepted
    cases accepted
    have read : Yields (fun _ => True) program Program.WellFormed := yields_program
    exact (read cursor spelled trivial _ after ran).1

end Grammar

theorem wellFormed_of_parseFresh {source : Text} {program : Program}
    (accepted : Parser.parseFresh Keywords.default source = .ok program) : program.WellFormed := by
  unfold Parser.parseFresh at accepted
  rcases scanned : scan Keywords.default source with fault | tokens
  · rw [scanned] at accepted
    cases accepted
  · rw [scanned] at accepted
    exact Grammar.wellFormed_of_parseAt (Cursor.spelled_ofTokens (spelled_of_scan scanned)) accepted

end Scriptlet
