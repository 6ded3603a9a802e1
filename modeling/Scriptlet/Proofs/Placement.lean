import Scriptlet.Proofs.Completeness
/-!
Where parsers fail. A parser that starts on known tokens looks at no others: it either fails at the
place of a known token, with a fault of grammar, or it leaves known tokens behind and its result, if
that is an expression, stands at one. Each way to put parsers together has its rule, and each form of the grammar follows.
-/
namespace Scriptlet

theorem Cursor.mem_upcoming_advance {cursor : Cursor} {token : Token}
    (member : token ∈ cursor.advance.upcoming) : token ∈ cursor.upcoming := by
  rcases ahead : cursor.later with _ | ⟨next, rest⟩
  · rwa [Cursor.advance_of_last ahead] at member
  · have whole : cursor.upcoming = cursor.current :: next :: rest := by
      rw [Cursor.upcoming, ahead]
    rw [Cursor.upcoming_advance whole] at member
    rw [whole]
    exact List.mem_cons_of_mem _ member

namespace Parse

variable {α β σ : Type} {known : Token → Prop}

/-- How a parser comes out of known tokens. -/
inductive Settles (known : Token → Prop) (ensures : α → Prop) :
    Except Diagnostic (α × Cursor) → Prop where
  | gives {value : α} {after : Cursor} :
      ensures value → (∀ token ∈ after.upcoming, known token) →
        Settles known ensures (.ok (value, after))
  | fails {fault : Diagnostic} {token : Token} :
      known token → fault.position = token.position → fault.faultClass = .grammar →
        Settles known ensures (.error fault)

/-- On known tokens the parser fails at one of them, or what it gives is as stated. -/
def Points (known : Token → Prop) (parser : Parse α) (ensures : α → Prop) : Prop :=
  ∀ cursor, (∀ token ∈ cursor.upcoming, known token) → Settles known ensures (parser.run cursor)

theorem points_pure {ensures : α → Prop} {value : α} (holds : ensures value) :
    Points known (pure value) ensures :=
  fun _ among => .gives holds among

theorem points_failAt {ensures : α → Prop} {token : Token} {fault : Diagnostic}
    (here : known token) (grammar : fault.faultClass = .grammar) :
    Points known (failAt token fault : Parse α) ensures :=
  fun _ _ => .fails here rfl grammar

theorem Points.bind {parser : Parse α} {next : α → Parse β} {ensures : α → Prop}
    {finally_ : β → Prop} (first : Points known parser ensures)
    (second : ∀ value, ensures value → Points known (next value) finally_) :
    Points known (parser >>= next) finally_ := by
  intro cursor among
  rw [StateT.run_bind]
  have settled := first cursor among
  generalize parser.run cursor = result at settled
  cases settled with
  | gives holds left => exact second _ holds _ left
  | fails here same grammar => exact .fails here same grammar

theorem points_get {next : Cursor → Parse β} {ensures : β → Prop}
    (rest : ∀ cursor, Points known (next cursor) ensures) : Points known (get >>= next) ensures :=
  fun cursor among => rest cursor cursor among

theorem points_peek : Points known peek known :=
  fun _ among => .gives (among _ List.mem_cons_self) among

theorem points_isAt (kind : Kind) : Points known (isAt kind) fun _ => True :=
  fun _ among => .gives trivial among

theorem points_next : Points known next known :=
  fun _ among => .gives (among _ List.mem_cons_self)
    fun token member => among token (Cursor.mem_upcoming_advance member)

theorem points_unexpected {ensures : α → Prop} {found : Token} (here : known found) (kind : Kind)
    (hint : Text) : Points known (throw (Cursor.unexpected kind hint found) : Parse α) ensures := by
  intro _ _
  refine .fails here ?_ ?_
  all_goals
    unfold Cursor.unexpected Diagnostic.withHint
    split <;> rfl

theorem points_expect (kind : Kind) (hint : Text) : Points known (expect kind hint) known := by
  intro cursor among
  rw [run_expect]
  by_cases same : cursor.current.kind = kind
  · rw [if_pos same]
    exact points_next cursor among
  · rw [if_neg same]
    exact points_unexpected (among _ List.mem_cons_self) kind hint cursor among

theorem points_closing {ensures : α → Prop} {value : α} (holds : ensures value) (kind : Kind)
    (hint : Text) : Points known (do let _ ← expect kind hint; return value) ensures := by
  apply (points_expect kind hint).bind
  intro _ _
  exact points_pure holds

theorem points_collect {starts : Kind → Bool} {item : Parse α} {ensures : α → Prop}
    (each : Points known item ensures) (bound : Nat) :
    Points known (collect starts item bound) fun _ => True := by
  induction bound with
  | zero => exact points_pure trivial
  | succ bound ih =>
    apply points_peek.bind
    intro token _
    split
    · apply each.bind
      intro first _
      apply ih.bind
      intro rest _
      exact points_pure trivial
    · exact points_pure trivial

theorem points_many {starts : Kind → Bool} {item : Parse α} {ensures : α → Prop}
    (each : Points known item ensures) : Points known (many starts item) fun _ => True :=
  points_get fun cursor => points_collect each cursor.remaining

theorem points_extend {starts : Token → Bool} {step : σ → Parse σ} {ensures : σ → Prop}
    (each : ∀ state, ensures state → Points known (step state) ensures) (bound : Nat) {state : σ}
    (holds : ensures state) : Points known (extend starts step bound state) ensures := by
  induction bound generalizing state with
  | zero => exact points_pure holds
  | succ bound ih =>
    apply points_peek.bind
    intro token _
    split
    · apply (each state holds).bind
      intro further kept
      exact ih kept
    · exact points_pure holds

theorem points_chain {starts : Token → Bool} {step : σ → Parse σ} {ensures : σ → Prop}
    (each : ∀ state, ensures state → Points known (step state) ensures) {state : σ}
    (holds : ensures state) : Points known (chain starts step state) ensures :=
  points_get fun cursor => points_extend each cursor.remaining holds

end Parse

namespace Grammar

open Parse

section Expressions
variable {known : Token → Prop} {inner : Parse Expr}

/-- The expression stands at a known token. -/
abbrev At (known : Token → Prop) (e : Expr) : Prop := known e.token

theorem points_unexpectedToken {α : Type} {ensures : α → Prop} {token : Token}
    (here : known token) : Points known (unexpectedToken token : Parse α) ensures :=
  points_failAt here rfl

theorem points_quotedText (quote : Token) : Points known (quotedText quote) (At known) := by
  apply points_next.bind
  intro _ _
  apply (points_expect .string []).bind
  intro value here
  apply points_closing
  exact here

theorem points_numberLiteral {token : Token} (here : known token) :
    Points known (numberLiteral token) (At known) := by
  apply points_next.bind
  intro _ _
  split
  · exact points_pure here
  · exact points_failAt here rfl

theorem points_joinDecimal {token : Token} (here : known token) (whole fraction : Text) :
    Points known (joinDecimal token whole fraction) (At known) := by
  unfold joinDecimal
  dsimp only
  split
  · exact points_failAt here rfl
  · split
    · exact points_pure here
    · exact points_failAt here rfl

theorem points_operation {operand : Parse Expr} (right : Points known operand (At known))
    (left : Expr) : Points known (operation operand left) (At known) := by
  apply points_next.bind
  intro token here
  apply right.bind
  intro _ _
  exact points_pure here

theorem points_increment (operand : Expr) : Points known (increment operand) (At known) := by
  apply points_next.bind
  intro token here
  exact points_pure here

section Tiers
variable (below : Points known inner (At known))
include below

theorem points_group : Points known (group inner) (At known) := by
  apply points_next.bind
  intro _ _
  apply below.bind
  intro value here
  apply points_closing
  exact here

theorem points_primary : Points known (primary inner) (At known) := by
  apply points_peek.bind
  intro token here
  split
  · apply points_next.bind
    intro _ _
    exact points_pure here
  · exact points_numberLiteral here
  · exact points_group below
  · exact points_quotedText token
  · exact points_quotedText token
  · apply points_next.bind
    intro _ _
    exact points_pure here
  · exact points_unexpectedToken here

theorem points_arguments : Points known (arguments inner) fun _ => True := by
  apply (points_expect .openParen _).bind
  intro _ _
  apply (points_isAt .closeParen).bind
  intro closed _
  split
  · apply points_next.bind
    intro _ _
    exact points_pure trivial
  · apply below.bind
    intro first _
    have further : Points known (do let _ ← next; inner) (At known) := by
      apply points_next.bind
      intro _ _
      exact below
    apply (points_many further).bind
    intro others _
    exact points_closing trivial _ _

theorem points_namedMember {object : Expr} (holder : At known object) :
    Points known (namedMember inner object) (At known) := by
  apply points_next.bind
  intro point here
  apply points_peek.bind
  intro token there
  apply (points_primary below).bind
  intro property _
  split
  · exact points_joinDecimal holder _ _
  · exact points_pure here
  · exact points_failAt there rfl

theorem points_computedMember (object : Expr) :
    Points known (computedMember inner object) (At known) := by
  apply points_next.bind
  intro bracket here
  apply below.bind
  intro property _
  apply points_closing
  exact here

theorem points_suffix {value : Expr} (holder : At known value) :
    Points known (suffix inner value) (At known) := by
  apply points_peek.bind
  intro token here
  split
  · apply (points_arguments below).bind
    intro given _
    exact points_pure here
  · exact points_computedMember below value
  · exact points_namedMember below holder

theorem points_access : Points known (access inner) (At known) := by
  apply (points_primary below).bind
  intro value here
  exact points_chain (fun _ holder => points_suffix below holder) here

theorem points_comparison : Points known (comparison inner) (At known) := by
  apply (points_access below).bind
  intro value here
  exact points_chain (fun left _ => points_operation (points_access below) left) here

theorem points_product : Points known (product inner) (At known) := by
  apply (points_comparison below).bind
  intro value here
  exact points_chain (fun left _ => points_operation (points_comparison below) left) here

theorem points_sum : Points known (sum inner) (At known) := by
  apply (points_product below).bind
  intro value here
  apply (points_chain (fun left _ => points_operation (points_product below) left) here).bind
  intro terms there
  exact points_chain (fun operand _ => points_increment operand) there

theorem points_property : Points known (property inner) fun _ => True := by
  apply points_next.bind
  intro key here
  split
  · exact points_failAt here rfl
  · apply points_peek.bind
    intro token _
    split
    · apply points_next.bind
      intro _ _
      exact points_pure trivial
    · exact points_pure trivial
    · apply (points_expect .colon _).bind
      intro _ _
      apply below.bind
      intro value _
      apply (points_isAt .closeBrace).bind
      intro closed _
      split
      · exact points_pure trivial
      · exact points_closing trivial _ _

theorem points_object : Points known (object inner) (At known) := by
  apply (points_isAt .openBrace).bind
  intro opened _
  split
  · apply points_next.bind
    intro brace here
    apply (points_many (points_property below)).bind
    intro properties _
    apply points_closing
    exact here
  · exact points_sum below

theorem points_assignment : Points known (assignment inner) (At known) := by
  apply (points_object below).bind
  intro target there
  apply (points_isAt .assign).bind
  intro assigns _
  split
  · apply points_next.bind
    intro token here
    apply below.bind
    intro value _
    exact points_pure here
  · exact points_pure there

end Tiers

theorem points_nested (depth : Nat) : Points known (nested depth) (At known) := by
  induction depth with
  | zero =>
    apply points_peek.bind
    intro token here
    exact points_unexpectedToken here
  | succ depth ih => exact points_assignment ih

theorem points_expression : Points known expression (At known) :=
  points_get fun cursor => points_nested cursor.remaining

end Expressions

section Statements
variable {known : Token → Prop} {inner : Parse Stmt}

theorem points_declaration : Points known declaration fun _ => True := by
  apply points_next.bind
  intro token here
  split
  · exact points_unexpected here _ _
  · apply (points_expect .name _).bind
    intro word there
    apply (points_isAt .semicolon).bind
    intro closed _
    split
    · split
      · exact points_failAt there rfl
      · apply points_next.bind
        intro _ _
        exact points_pure trivial
    · apply (points_expect .assign _).bind
      intro _ _
      apply points_expression.bind
      intro first _
      apply (points_isAt .booleanOperator).bind
      intro compared _
      split
      · apply (points_operation points_expression first).bind
        intro value _
        exact points_closing trivial _ _
      · exact points_closing trivial _ _

theorem points_parameters {function : Token} (here : known function) (given : List Expr) :
    Points known (parameters function given) fun _ => True := by
  fun_induction parameters function given with
  | case1 => exact points_pure trivial
  | case2 name rest ih =>
    apply ih.bind
    intro names _
    exact points_pure trivial
  | case3 other rest _ => exact points_failAt here rfl

theorem points_expressionStatement : Points known expressionStatement fun _ => True := by
  apply points_expression.bind
  intro value _
  apply (points_isAt .semicolon).bind
  intro closed _
  split
  · apply points_next.bind
    intro _ _
    exact points_pure trivial
  · exact points_pure trivial

section Forms
variable (below : Points known inner fun _ => True)
include below

theorem points_block : Points known (block inner) fun _ => True := by
  apply (points_expect .openBrace _).bind
  intro _ _
  apply (points_many below).bind
  intro body _
  exact points_closing trivial _ _

theorem points_function : Points known (function inner) fun _ => True := by
  apply points_next.bind
  intro token _
  apply (points_expect .name _).bind
  intro word here
  apply (points_arguments points_expression).bind
  intro given _
  apply (points_parameters here given).bind
  intro names _
  apply (points_block below).bind
  intro body _
  exact points_pure trivial

theorem points_guarded : Points known (guarded inner) fun _ => True := by
  apply points_next.bind
  intro token _
  apply (points_expect .openParen _).bind
  intro _ _
  apply points_expression.bind
  intro condition _
  apply (points_expect .closeParen _).bind
  intro _ _
  apply (points_block below).bind
  intro body _
  exact points_pure trivial

theorem points_otherwise : Points known (otherwise inner) fun _ => True := by
  apply (points_isAt .elseWord).bind
  intro there _
  split
  · apply points_next.bind
    intro token _
    apply (points_block below).bind
    intro body _
    exact points_pure trivial
  · exact points_pure trivial

theorem points_branch : Points known (branch inner) fun _ => True := by
  apply (points_guarded below).bind
  intro first _
  apply (points_many (points_guarded below)).bind
  intro others _
  apply (points_otherwise below).bind
  intro last _
  exact points_pure trivial

theorem points_whileLoop : Points known (whileLoop inner) fun _ => True := by
  apply points_next.bind
  intro token _
  apply (points_expect .openParen _).bind
  intro _ _
  apply (points_comparison points_expression).bind
  intro condition _
  apply (points_expect .closeParen _).bind
  intro _ _
  apply (points_block below).bind
  intro body _
  exact points_pure trivial

theorem points_forLoop : Points known (forLoop inner) fun _ => True := by
  apply points_next.bind
  intro token here
  apply (points_expect .openParen _).bind
  intro _ _
  apply points_declaration.bind
  intro start _
  apply (points_comparison points_expression).bind
  intro condition _
  apply (points_expect .semicolon _).bind
  intro _ _
  apply (points_isAt .name).bind
  intro named _
  have looped (step : Expr) (hint : Text) : Points known
      (do let _ ← expect .closeParen hint
          return Stmt.forLoop token (some start) condition step (← block inner)) fun _ => True := by
    apply (points_expect .closeParen hint).bind
    intro _ _
    apply (points_block below).bind
    intro body _
    exact points_pure trivial
  split
  · apply points_expression.bind
    intro step _
    exact looped step _
  · exact looped .absent _

theorem points_statementOf : Points known (statementOf inner) fun _ => True := by
  have declared : Points known (do return Stmt.declare (← declaration)) fun _ => True := by
    apply points_declaration.bind
    intro declaration _
    exact points_pure trivial
  apply points_peek.bind
  intro token _
  split
  · exact declared
  · exact declared
  · exact points_function below
  · exact points_branch below
  · exact points_whileLoop below
  · exact points_forLoop below
  · exact points_expressionStatement

end Forms

theorem points_nestedStatement (depth : Nat) :
    Points known (nestedStatement depth) fun _ => True := by
  induction depth with
  | zero =>
    apply points_peek.bind
    intro token here
    exact points_unexpectedToken here
  | succ depth ih => exact points_statementOf ih

theorem points_statement : Points known statement fun _ => True :=
  points_get fun cursor => points_nestedStatement cursor.remaining

theorem points_program : Points known program fun _ => True :=
  points_many points_statement

end Statements

end Grammar

end Scriptlet
