import Scriptlet.Proofs.Lookahead
/-!
The grammar does not look ahead further than one token. On two sequences that share their first tokens
each parser of the grammar does the same, unless it comes to the end of the shorter one. The parsers
that end with a token of their own, such as a closing bracket, are not loose: they never look past it.
-/
namespace Scriptlet

namespace Grammar

open Parse

section Expressions
variable {turn : Turn} {loose : Prop} {limit : Nat} {inner other : Parse Expr}

theorem ofSource_about {fault : Fault} (name : String) (value : Text)
    (found : fault.entry.faultClass = .grammar) : (fault.about name value).OfSource := by
  refine ⟨?_, rfl⟩
  simp [Fault.about, Fault.diagnose, Diagnostic.isStatic, found]

theorem showsEnd_about (fault : Fault) {found : Token} (ended : found.kind = .endOfInput) :
    (fault.about "Got" found.display).ShowsEnd := by
  have shown : found.display = utf8 "end of input" := by rw [Token.display, ended]
  rw [shown]
  exact ⟨_, rfl, rfl⟩

theorem agree_unexpectedToken {α : Type} {least taken : Nat} (token : Token) :
    Agree turn least limit taken loose (unexpectedToken token : Parse α) (unexpectedToken token) :=
  agree_failAt (ofSource_about _ _ rfl)

theorem heeds_unexpectedToken {α : Type} {token : Token} (ended : token.kind = .endOfInput) :
    Heeds turn loose (unexpectedToken token : Parse α) :=
  heeds_failAt (ofSource_about _ _ rfl) (showsEnd_about _ ended)

theorem agree_quotedText {token : Token} (kindly : token.kind ≠ .endOfInput) :
    Agree turn 1 limit 1 loose (quotedText token) (quotedText token) := by
  apply agree_next.bind
  intro _
  apply (agree_expect (by decide)).bind
  intro value
  apply (agree_expect kindly).bind
  intro _
  exact agree_pure _

theorem agree_numberLiteral (token : Token) :
    Agree turn 1 limit 1 loose (numberLiteral token) (numberLiteral token) := by
  apply agree_next.bind
  intro _
  split
  · exact agree_pure _
  · exact agree_failAt (ofSource_about _ _ rfl)

theorem agree_joinDecimal {least : Nat} (token : Token) (whole fraction : Text) :
    Agree turn least limit 0 loose (joinDecimal token whole fraction)
      (joinDecimal token whole fraction) := by
  unfold joinDecimal
  split
  · exact agree_failAt (ofSource_about _ _ rfl)
  · dsimp only
    split
    · exact agree_pure _
    · exact agree_failAt (ofSource_about _ _ rfl)

theorem agree_increment (operand : Expr) :
    Agree turn 1 limit 1 loose (increment operand) (increment operand) := by
  apply agree_next.bind
  intro token
  exact agree_pure _

theorem agree_operation {p q : Parse Expr} (operand : Agree turn 0 limit 1 True p q) (left : Expr) :
    Agree turn 1 limit 1 True (operation p left) (operation q left) := by
  apply agree_next.bind
  intro token
  apply operand.bind_loose
  · intro right
    exact heeds_pure _
  · intro right
    exact agree_pure _

theorem heeds_primary (inner : Parse Expr) : Heeds turn loose (primary inner) := by
  apply heeds_peek
  rw [turn.ended]
  exact heeds_unexpectedToken turn.ended

theorem heeds_access (inner : Parse Expr) : Heeds turn loose (access inner) :=
  (heeds_primary inner).refuses _

theorem heeds_comparison (inner : Parse Expr) : Heeds turn loose (comparison inner) :=
  (heeds_access inner).refuses _

theorem heeds_sum (inner : Parse Expr) : Heeds turn loose (sum inner) := by
  have product : Heeds turn False (product inner) := (heeds_comparison inner).refuses _
  exact product.refuses _

/-- The parsers of nested expressions agree, and refuse the end of input. -/
structure Steady (turn : Turn) (limit : Nat) (inner other : Parse Expr) : Prop where
  agree : Agree turn 0 limit 1 True inner other
  heeds : Heeds turn False inner

section Tiers
variable (below : Steady turn limit inner other)
include below

theorem agree_group : Agree turn 1 (limit + 1) 1 loose (group inner) (group other) := by
  apply agree_next.bind_below
  intro _
  apply below.agree.bind_loose
  · intro value
    exact (heeds_expect (by decide)).refuses _
  · intro value
    apply (agree_expect (by decide)).bind
    intro _
    exact agree_pure value

theorem agree_primary : Agree turn 0 (limit + 1) 1 loose (primary inner) (primary other) := by
  apply Agree.anywhere _ (heeds_primary inner)
  apply agree_peek_inside
  intro token
  split
  · apply agree_next.bind
    intro _
    exact agree_pure _
  · exact agree_numberLiteral token
  · exact agree_group below
  · rename_i kind
    exact agree_quotedText (by rw [kind]; decide)
  · rename_i kind
    exact agree_quotedText (by rw [kind]; decide)
  · apply agree_next.bind
    intro _
    exact agree_pure _
  · exact agree_unexpectedToken token

theorem agree_arguments {least : Nat} :
    Agree turn least (limit + 1) 1 loose (arguments inner) (arguments other) := by
  have further : Agree turn 1 limit 1 True (do let _ ← next; inner) (do let _ ← next; other) :=
    agree_next.bind fun _ => below.agree
  have closes {α : Type} (value : α) :
      Heeds turn loose (do
        let _ ← expect .closeParen (utf8 "expected ')' after the arguments")
        return value) :=
    (heeds_expect (by decide)).refuses _
  apply (agree_expect (by decide)).bind_below
  intro _
  apply agree_isAt (by decide)
  · apply agree_next.bind
    intro _
    exact agree_pure _
  · apply below.agree.inside.bind_loose
    · intro first
      exact (heeds_many rfl).bind fun others => closes _
    · intro first
      apply (agree_many rfl further).bind_loose
      · intro others
        exact closes _
      · intro others
        apply (agree_expect (by decide)).bind
        intro _
        exact agree_pure _
  · exact below.heeds.refuses _

theorem agree_namedMember (holder : Expr) :
    Agree turn 1 (limit + 1) 1 loose (namedMember inner holder) (namedMember other holder) := by
  apply agree_next.bind
  intro point
  apply Agree.anywhere
  · apply agree_peek_inside
    intro token
    apply Agree.inside
    apply (agree_primary below).bind
    intro property
    split
    · exact agree_joinDecimal _ _ _
    · exact agree_pure _
    · exact agree_failAt (ofSource_about _ _ rfl)
  · apply heeds_peek
    exact (heeds_primary inner).refuses _

theorem agree_computedMember (holder : Expr) :
    Agree turn 1 (limit + 1) 1 loose (computedMember inner holder) (computedMember other holder) := by
  apply agree_next.bind_below
  intro bracket
  apply below.agree.bind_loose
  · intro property
    exact (heeds_expect (by decide)).refuses _
  · intro property
    apply (agree_expect (by decide)).bind
    intro _
    exact agree_pure _

theorem agree_suffix (value : Expr) :
    Agree turn 1 (limit + 1) 1 loose (suffix inner value) (suffix other value) := by
  apply agree_peek_inside
  intro token
  split
  · apply (agree_arguments below).bind
    intro given
    exact agree_pure _
  · exact agree_computedMember below value
  · exact agree_namedMember below value

theorem agree_access : Agree turn 0 (limit + 1) 1 True (access inner) (access other) := by
  have stops (token : Token) (ended : token.kind = .endOfInput) : startsSuffix token = false := by
    simp [startsSuffix, ended]
  have each (value : Expr) :
      Agree turn 1 (limit + 1) 1 False (suffix inner value) (suffix other value) :=
    agree_suffix below value
  exact (agree_primary below).bind (agree_chain stops each)

omit below in
theorem not_continues (kind : Kind) (kindly : kind ≠ .endOfInput) (token : Token)
    (ended : token.kind = .endOfInput) : decide (token.kind = kind) = false := by
  rw [ended]
  exact decide_eq_false kindly.symm

omit below in
theorem not_isOperator (operators : List Text) (token : Token) (ended : token.kind = .endOfInput) :
    isOperator operators token = false := by
  simp [isOperator, ended]

theorem agree_comparison :
    Agree turn 0 (limit + 1) 1 True (comparison inner) (comparison other) := by
  have stops := not_continues .booleanOperator (by decide)
  exact (agree_access below).bind_loose (heeds_chain stops) (agree_chain stops
    (agree_operation (agree_access below)))

theorem agree_product : Agree turn 0 (limit + 1) 1 True (product inner) (product other) := by
  have stops := not_isOperator [utf8 "*", utf8 "/", utf8 "%"]
  exact (agree_comparison below).bind_loose (heeds_chain stops) (agree_chain stops
    (agree_operation (agree_comparison below)))

theorem agree_sum : Agree turn 0 (limit + 1) 1 True (sum inner) (sum other) := by
  have stops := not_isOperator [utf8 "+", utf8 "-"]
  have ends := not_continues .unaryOperator (by decide)
  apply (agree_product below).bind_loose
  · intro first
    exact (heeds_chain stops first).bind (heeds_chain ends)
  · intro first
    apply (agree_chain stops (agree_operation (agree_product below)) first).bind_loose
    · exact heeds_chain ends
    · have each (value : Expr) :
          Agree turn 1 (limit + 1) 1 False (increment value) (increment value) :=
        agree_increment value
      exact agree_chain ends each

theorem agree_property :
    Agree turn 1 (limit + 1) 1 loose (property inner) (property other) := by
  have closes (name : Ident) (value : Expr) : Heeds turn loose (do
      let _ ← expect .comma (utf8 "expected ',' or '\x7d' after the property")
      return (name, value)) :=
    (heeds_expect (by decide)).refuses _
  apply agree_next.bind
  intro key
  show Agree turn 0 (limit + 1) 0 loose _ _
  split
  · exact agree_failAt (ofSource_about _ _ rfl)
  · apply Agree.anywhere
    · apply agree_peek_inside
      intro token
      split
      · apply Agree.untaken
        apply agree_next.bind
        intro _
        exact agree_pure _
      · exact agree_pure _
      · apply Agree.untaken
        apply (agree_expect (by decide)).bind_below
        intro _
        apply below.agree.bind_loose
        · intro value
          exact heeds_isAt (by decide) (closes _ value)
        · intro value
          apply agree_isAt (by decide)
          · exact agree_pure _
          · apply Agree.untaken
            apply (agree_expect (by decide)).bind
            intro _
            exact agree_pure _
          · exact closes _ value
    · apply heeds_peek
      rw [turn.ended]
      exact (heeds_expect (by decide)).refuses _

theorem agree_object : Agree turn 0 (limit + 1) 1 True (object inner) (object other) := by
  apply agree_isAt (by decide)
  · apply agree_next.bind
    intro brace
    have each : Agree turn 1 (limit + 1) 1 False (property inner) (property other) :=
      agree_property below
    apply (agree_many rfl each).bind_loose
    · intro properties
      exact (heeds_expect (by decide)).refuses _
    · intro properties
      apply (agree_expect (by decide)).bind
      intro _
      exact agree_pure _
  · exact (agree_sum below).inside
  · exact heeds_sum inner

theorem agree_assignment :
    Agree turn 0 (limit + 1) 1 True (assignment inner) (assignment other) := by
  apply (agree_object below).bind_loose
  · intro target
    exact heeds_isAt (by decide) (heeds_pure target)
  · intro target
    apply agree_isAt (by decide)
    · apply Agree.untaken
      apply agree_next.bind_below
      intro token
      apply below.agree.bind_loose
      · intro value
        exact heeds_pure _
      · intro value
        exact agree_pure _
    · exact agree_pure target
    · exact heeds_pure target

end Tiers

theorem heeds_assignment (inner : Parse Expr) : Heeds turn loose (assignment inner) := by
  have object : Heeds turn False (object inner) := heeds_isAt (by decide) (heeds_sum inner)
  exact object.refuses _

theorem heeds_nested (depth : Nat) : Heeds turn loose (nested depth) := by
  cases depth with
  | zero => exact heeds_peek (heeds_unexpectedToken turn.ended)
  | succ depth => exact heeds_assignment _

theorem agree_nested (depth : Nat) :
    Agree turn 0 depth 1 True (nested depth) (nested (depth + turn.extra)) := by
  induction depth with
  | zero =>
    intro xs _ _ _ few
    exact absurd few (Nat.not_lt_zero _)
  | succ depth ih =>
    rw [Nat.add_right_comm]
    exact agree_assignment ⟨ih, heeds_nested depth⟩

theorem heeds_expression : Heeds turn loose expression :=
  fun c atEnd => heeds_nested c.remaining c atEnd

theorem steady_expression : Steady turn limit expression expression :=
  ⟨agree_remaining fun bound _ => agree_nested bound, heeds_expression⟩

end Expressions

section Statements
variable {turn : Turn} {loose : Prop} {limit : Nat} {inner other : Parse Stmt}

theorem agree_expression : Agree turn 0 limit 1 True expression expression :=
  steady_expression.agree

theorem agree_declaration : Agree turn 0 limit 1 loose declaration declaration := by
  have closes {token : Token} {name : Ident} {constant : Bool} (value : Expr) :
      Heeds turn loose (do
        let _ ← expect .semicolon (utf8 "expected ';' after the declaration")
        return (⟨token, name, constant, value⟩ : Declaration)) :=
    (heeds_expect (by decide)).refuses _
  have closed {token : Token} {name : Ident} {constant : Bool} (value : Expr) :
      Agree turn 0 limit 1 loose
        (do let _ ← expect .semicolon (utf8 "expected ';' after the declaration")
            return (⟨token, name, constant, value⟩ : Declaration))
        (do let _ ← expect .semicolon (utf8 "expected ';' after the declaration")
            return ⟨token, name, constant, value⟩) := by
    apply (agree_expect (by decide)).bind
    intro _
    exact agree_pure _
  have heeds : Heeds turn loose declaration := by
    intro c atEnd
    have current := turn.current_of_end atEnd
    have refused : declaration.run c = .error (Cursor.unexpected .letWord [] turn.last) := by
      change (ite (c.current.kind ≠ .letWord && c.current.kind ≠ .constWord) _ _ : Parse _).run _ = _
      rw [current, turn.ended]
      rfl
    rw [refused]
    exact .refused (ofSource_unexpected _ _ _) (showsEnd_unexpected _ _ turn.ended)
  apply Agree.anywhere _ heeds
  apply agree_next.bind
  intro token
  show Agree turn 0 limit 1 loose _ _
  split
  · exact agree_throw (ofSource_unexpected _ _ _)
  · apply (agree_expect (by decide)).bind
    intro word
    apply agree_isAt (by decide)
    · simp only [if_true]
      show Agree turn 1 limit 1 loose _ _
      split
      · exact agree_failAt (ofSource_about _ _ rfl)
      · apply agree_next.bind
        intro _
        exact agree_pure _
    · refine Agree.bind (agree_expect (by decide)) (?_ : ∀ _, Agree turn 0 limit 1 loose _ _)
      intro _
      apply agree_expression.bind_loose
      · intro first
        exact heeds_isAt (by decide) (closes first)
      · intro first
        apply agree_isAt (by decide)
        · apply (agree_operation agree_expression first).bind_loose
          · exact closes
          · exact closed
        · exact (closed first).inside
        · exact closes first
    · exact (heeds_expect (by decide)).refuses _

theorem agree_declare : Agree turn 1 limit 1 loose (do return Stmt.declare (← declaration))
    (do return Stmt.declare (← declaration)) := by
  have declared : Agree turn 1 limit 1 False declaration declaration := agree_declaration.inside
  apply declared.bind
  intro d
  exact agree_pure _

theorem agree_parameters {least : Nat} (token : Token) (given : List Expr) :
    Agree turn least limit 0 loose (parameters token given) (parameters token given) := by
  induction given generalizing least loose with
  | nil => exact agree_pure []
  | cons e rest ih =>
    cases e with
    | ident name =>
      apply ih.bind
      intro names
      exact agree_pure _
    | _ => exact agree_failAt (ofSource_about _ _ rfl)

theorem agree_expressionStatement :
    Agree turn 0 limit 1 True expressionStatement expressionStatement := by
  apply agree_expression.bind_loose
  · intro value
    exact heeds_isAt (by decide) (heeds_pure _)
  · intro value
    apply agree_isAt (by decide)
    · apply Agree.untaken
      apply agree_next.bind
      intro _
      exact agree_pure _
    · exact agree_pure _
    · exact heeds_pure _

section Forms
variable (below : Agree turn 1 limit 1 True inner other)
include below

theorem agree_block {least : Nat} :
    Agree turn least (limit + 1) 1 loose (block inner) (block other) := by
  apply (agree_expect (by decide)).bind_below
  intro _
  apply (agree_many rfl below).bind_loose
  · intro body
    exact (heeds_expect (by decide)).refuses _
  · intro body
    apply (agree_expect (by decide)).bind
    intro _
    exact agree_pure body

theorem agree_function : Agree turn 1 (limit + 1) 1 loose (function inner) (function other) := by
  apply agree_next.bind
  intro token
  apply (agree_expect (by decide)).bind
  intro word
  apply (agree_arguments steady_expression).bind
  intro given
  apply (agree_parameters word given).bind
  intro names
  apply (agree_block below).bind
  intro body
  exact agree_pure _

theorem agree_guarded : Agree turn 1 (limit + 1) 1 loose (guarded inner) (guarded other) := by
  apply agree_next.bind
  intro token
  apply (agree_expect (by decide)).bind
  intro _
  apply agree_expression.bind_loose
  · intro condition
    exact (heeds_expect (by decide)).refuses _
  · intro condition
    apply (agree_expect (by decide)).bind
    intro _
    apply (agree_block below).bind
    intro body
    exact agree_pure _

theorem agree_otherwise :
    Agree turn 0 (limit + 1) 0 True (otherwise inner) (otherwise other) := by
  apply agree_isAt (by decide)
  · apply Agree.untaken
    apply agree_next.bind
    intro token
    apply (agree_block below).bind
    intro body
    exact agree_pure _
  · exact agree_pure []
  · exact heeds_pure []

omit below in
theorem heeds_otherwise (inner : Parse Stmt) : Heeds turn True (otherwise inner) :=
  heeds_isAt (by decide) (heeds_pure [])

theorem agree_branch : Agree turn 1 (limit + 1) 1 True (branch inner) (branch other) := by
  have link : Agree turn 1 (limit + 1) 1 False (guarded inner) (guarded other) :=
    agree_guarded below
  apply link.bind
  intro first
  apply (agree_many rfl link).bind_loose
  · intro others
    exact (heeds_otherwise inner).bind fun last => heeds_pure _
  · intro others
    apply (agree_otherwise below).bind_loose
    · intro last
      exact heeds_pure _
    · intro last
      exact agree_pure _

theorem agree_whileLoop : Agree turn 1 (limit + 1) 1 loose (whileLoop inner) (whileLoop other) := by
  apply agree_next.bind
  intro token
  apply (agree_expect (by decide)).bind
  intro _
  apply (agree_comparison steady_expression).bind_loose
  · intro condition
    exact (heeds_expect (by decide)).refuses _
  · intro condition
    apply (agree_expect (by decide)).bind
    intro _
    apply (agree_block below).bind
    intro body
    exact agree_pure _

theorem agree_forLoop : Agree turn 1 (limit + 1) 1 loose (forLoop inner) (forLoop other) := by
  have closes (token : Token) (start : Declaration) (condition step : Expr) :
      Heeds turn loose (do
        let _ ← expect .closeParen (utf8 "expected ')' to close the loop header")
        return Stmt.forLoop token (some start) condition step (← block inner)) :=
    (heeds_expect (by decide)).refuses _
  have closed (token : Token) (start : Declaration) (condition step : Expr) :
      Agree turn 0 (limit + 1) 1 loose
        (do let _ ← expect .closeParen (utf8 "expected ')' to close the loop header")
            return Stmt.forLoop token (some start) condition step (← block inner))
        (do let _ ← expect .closeParen (utf8 "expected ')' to close the loop header")
            return Stmt.forLoop token (some start) condition step (← block other)) := by
    apply (agree_expect (by decide)).bind
    intro _
    apply (agree_block below).bind
    intro body
    exact agree_pure _
  apply agree_next.bind
  intro token
  apply (agree_expect (by decide)).bind
  intro _
  apply agree_declaration.bind
  intro start
  apply (agree_comparison steady_expression).bind_loose
  · intro condition
    exact (heeds_expect (by decide)).refuses _
  · intro condition
    apply (agree_expect (by decide)).bind
    intro _
    apply agree_isAt (by decide)
    · apply agree_expression.inside.bind_loose
      · exact closes token start condition
      · exact closed token start condition
    · exact (closed token start condition .absent).inside
    · exact closes token start condition .absent

theorem agree_statementOf :
    Agree turn 1 (limit + 1) 1 True (statementOf inner) (statementOf other) := by
  apply agree_peek_inside
  intro token
  split
  · exact agree_declare
  · exact agree_declare
  · exact agree_function below
  · exact agree_branch below
  · exact agree_whileLoop below
  · exact agree_forLoop below
  · exact agree_expressionStatement.inside

end Forms

theorem agree_nestedStatement (depth : Nat) :
    Agree turn 1 depth 1 True (nestedStatement depth) (nestedStatement (depth + turn.extra)) := by
  induction depth with
  | zero =>
    intro xs _ _ _ few
    exact absurd few (Nat.not_lt_zero _)
  | succ depth ih =>
    rw [Nat.add_right_comm]
    exact agree_statementOf ih

theorem agree_statement : Agree turn 1 limit 1 True statement statement :=
  agree_remaining fun bound _ => agree_nestedStatement bound

theorem agree_program : Agree turn 0 limit 0 True program program :=
  agree_many rfl agree_statement

end Statements

end Grammar

end Scriptlet
