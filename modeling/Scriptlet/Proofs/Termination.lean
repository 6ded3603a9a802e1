import Scriptlet.Proofs.Progress
/-!
Parsing comes to an end. Nested expressions and statements are read from fewer tokens than the whole, so
the bound on nesting is never met: whatever stood at the bottom would not be run. Each round of a loop
leaves tokens behind, so no loop is ended by its bound either. All forms of the grammar leave at least
one token behind them where they are read.
-/
namespace Scriptlet

namespace Grammar

open Parse

variable {requires : Token → Prop} {limit : Nat}

theorem inside_of_kind {token : Token} {kind : Kind} (same : token.kind = kind)
    (kindly : kind ≠ .endOfInput) : ∀ current, current = token → current.kind ≠ .endOfInput := by
  rintro _ rfl
  rwa [same]

section Expressions
variable {inner other : Parse Expr}

theorem paced_unexpectedToken {α : Type} {taken : Nat} (token : Token) :
    Paced requires limit taken (unexpectedToken token : Parse α) (unexpectedToken token) :=
  paced_failAt _ _

theorem paced_quotedText {token : Token} (kindly : token.kind ≠ .endOfInput) :
    Paced requires limit 1 (quotedText token) (quotedText token) := by
  apply paced_next.bind_second
  intro _
  apply (paced_expect (by decide) _).bind
  intro value
  apply (paced_expect kindly _).bind
  intro _
  exact paced_pure _

theorem paced_numberLiteral {token : Token}
    (known : ∀ current, requires current → current.kind ≠ .endOfInput) :
    Paced requires limit 1 (numberLiteral token) (numberLiteral token) := by
  apply (paced_next_of known).bind
  intro _
  split
  · exact paced_pure _
  · exact paced_failAt _ _

theorem paced_joinDecimal (token : Token) (whole fraction : Text) :
    Paced requires limit 0 (joinDecimal token whole fraction) (joinDecimal token whole fraction) := by
  unfold joinDecimal
  split
  · exact paced_failAt _ _
  · dsimp only
    split
    · exact paced_pure _
    · exact paced_failAt _ _

theorem paced_increment (operand : Expr) :
    Paced (fun token => decide (token.kind = .unaryOperator) = true) limit 1 (increment operand)
      (increment operand) := by
  have known (token : Token) (met : decide (token.kind = .unaryOperator) = true) :
      token.kind ≠ .endOfInput := by
    rw [of_decide_eq_true met]
    decide
  apply (paced_next_of known).bind
  intro token
  exact paced_pure _

theorem paced_operation {p q : Parse Expr} (operand : Paced (fun _ => True) limit 1 p q)
    (left : Expr) : Paced requires limit 1 (operation p left) (operation q left) := by
  apply paced_next.bind_second
  intro token
  apply operand.bind
  intro right
  exact paced_pure _

section Tiers
variable (below : Paced (fun _ => True) limit 1 inner other)
include below

theorem paced_group (known : ∀ current, requires current → current.kind ≠ .endOfInput) :
    Paced requires (limit + 1) 1 (group inner) (group other) := by
  apply (paced_next_of known).bind_below
  intro _
  apply below.bind
  intro value
  apply (paced_expect (by decide) _).bind
  intro _
  exact paced_pure value

theorem paced_primary : Paced requires (limit + 1) 1 (primary inner) (primary other) := by
  apply paced_peek
  intro token
  split
  · rename_i kind
    apply (paced_next_of (inside_of_kind kind (by decide))).bind
    intro _
    exact paced_pure _
  · rename_i kind
    exact paced_numberLiteral (inside_of_kind kind (by decide))
  · rename_i kind
    exact paced_group below (inside_of_kind kind (by decide))
  · rename_i kind
    exact paced_quotedText (by rw [kind]; decide)
  · rename_i kind
    exact paced_quotedText (by rw [kind]; decide)
  · rename_i kind
    apply (paced_next_of (inside_of_kind kind (by decide))).bind
    intro _
    exact paced_pure _
  · exact paced_unexpectedToken token

/-- A comma and an expression behind it. -/
theorem paced_listed : Paced (fun token => decide (token.kind = .comma) = true) (limit + 1) 1
    (do let _ ← next; inner) (do let _ ← next; other) := by
  have known (token : Token) (met : decide (token.kind = .comma) = true) :
      token.kind ≠ .endOfInput := by
    rw [of_decide_eq_true met]
    decide
  exact (paced_next_of known).bind_below fun _ => below

theorem paced_arguments : Paced requires (limit + 1) 1 (arguments inner) (arguments other) := by
  apply (paced_expect (by decide) _).bind_below
  intro _
  apply paced_isAt
  · apply paced_next.bind
    intro _
    exact paced_pure _
  · apply Paced.untaken
    apply below.bind
    intro first
    apply (paced_many ((paced_listed below).weaken (Nat.le_succ _) (Nat.le_refl _))).bind
    intro others
    apply (paced_expect (by decide) _).bind
    intro _
    exact paced_pure _

theorem paced_namedMember (holder : Expr) :
    Paced requires (limit + 1) 1 (namedMember inner holder) (namedMember other holder) := by
  apply paced_next.bind_second
  intro point
  apply paced_peek
  intro token
  apply (paced_primary below).bind
  intro property
  split
  · exact paced_joinDecimal _ _ _
  · exact paced_pure _
  · exact paced_failAt _ _

theorem paced_computedMember (known : ∀ current, requires current → current.kind ≠ .endOfInput)
    (holder : Expr) :
    Paced requires (limit + 1) 1 (computedMember inner holder) (computedMember other holder) := by
  apply (paced_next_of known).bind_below
  intro bracket
  apply below.bind
  intro property
  apply (paced_expect (by decide) _).bind
  intro _
  exact paced_pure _

theorem paced_suffix (value : Expr) :
    Paced requires (limit + 1) 1 (suffix inner value) (suffix other value) := by
  apply paced_peek
  intro token
  split
  · apply (paced_arguments below).bind
    intro given
    exact paced_pure _
  · rename_i kind
    exact paced_computedMember below (inside_of_kind kind (by decide)) value
  · exact paced_namedMember below value

theorem paced_access : Paced requires (limit + 1) 1 (access inner) (access other) :=
  (paced_primary below).bind (paced_chain (paced_suffix below))

theorem paced_comparison : Paced requires (limit + 1) 1 (comparison inner) (comparison other) :=
  (paced_access below).bind (paced_chain (paced_operation (paced_access below)))

theorem paced_product : Paced requires (limit + 1) 1 (product inner) (product other) :=
  (paced_comparison below).bind (paced_chain (paced_operation (paced_comparison below)))

theorem paced_sum : Paced requires (limit + 1) 1 (sum inner) (sum other) := by
  apply (paced_product below).bind
  intro first
  apply (paced_chain (paced_operation (paced_product below)) first).bind
  exact paced_chain paced_increment

omit below in
theorem not_end_of_insideBraces {token : Token} (met : insideBraces token.kind = true) :
    token.kind ≠ .endOfInput := by
  intro ended
  rw [ended] at met
  cases met

theorem paced_property :
    Paced (fun token => insideBraces token.kind = true) (limit + 1) 1 (property inner)
      (property other) := by
  apply (paced_next_of fun _ => not_end_of_insideBraces).bind_below
  intro key
  show Paced _ limit 0 _ _
  split
  · exact paced_failAt _ _
  · apply paced_peek
    intro token
    split
    · apply paced_next.bind
      intro _
      exact paced_pure _
    · exact paced_pure _
    · apply Paced.untaken
      apply (paced_expect (by decide) _).bind
      intro _
      apply below.bind
      intro value
      apply paced_isAt
      · exact paced_pure _
      · apply Paced.untaken
        apply (paced_expect (by decide) _).bind
        intro _
        exact paced_pure _

theorem paced_object : Paced requires (limit + 1) 1 (object inner) (object other) := by
  apply paced_isAt
  · apply paced_next.bind_second
    intro brace
    apply (paced_many (paced_property below)).bind_second
    intro properties
    apply (paced_expect (by decide) _).bind
    intro _
    exact paced_pure _
  · exact paced_sum below

theorem paced_assignment : Paced requires (limit + 1) 1 (assignment inner) (assignment other) := by
  apply (paced_object below).bind_below
  intro target
  apply paced_isAt
  · apply Paced.untaken
    apply paced_next.bind_second
    intro token
    apply below.bind
    intro value
    exact paced_pure _
  · exact paced_pure target

end Tiers

theorem stepwise_bottom {α : Type} : Stepwise (do unexpectedToken (← peek) : Parse α) :=
  stepwise_peek fun _ => stepwise_throw _

theorem paced_nested (bottom : Parse Expr) (depth : Nat) :
    Paced (fun _ => True) depth 1 (nested depth) (assignment^[depth] bottom) :=
  paced_bounded stepwise_bottom (fun _ => rfl) (fun _ _ _ => paced_assignment) bottom depth

theorem paced_expression : Paced requires limit 1 expression expression :=
  (paced_remaining paced_nested expression (Nat.le_refl _)).self

end Expressions

section Statements
variable {inner other : Parse Stmt}

theorem paced_declaration : Paced requires limit 1 declaration declaration := by
  have closed {token : Token} {name : Ident} {constant : Bool} (value : Expr) :
      Paced (fun _ => True) limit 1
        (do let _ ← expect .semicolon (utf8 "expected ';' after the declaration")
            return (⟨token, name, constant, value⟩ : Declaration))
        (do let _ ← expect .semicolon (utf8 "expected ';' after the declaration")
            return ⟨token, name, constant, value⟩) := by
    apply (paced_expect (by decide) _).bind
    intro _
    exact paced_pure _
  apply paced_next.bind_second
  intro token
  show Paced _ limit 1 _ _
  split
  · exact paced_throw _
  · apply (paced_expect (by decide) _).bind
    intro word
    show Paced _ limit 0 _ _
    apply paced_isAt
    · simp only [if_true]
      split
      · exact paced_failAt _ _
      · apply paced_next.bind
        intro _
        exact paced_pure _
    · apply Paced.untaken
      apply (paced_expect (by decide) _).bind
      intro _
      apply paced_expression.bind
      intro first
      show Paced _ limit 1 _ _
      apply paced_isAt
      · exact (paced_operation paced_expression first).bind closed
      · exact closed first

theorem paced_parameters (token : Token) (given : List Expr) :
    Paced requires limit 0 (parameters token given) (parameters token given) := by
  induction given generalizing requires with
  | nil => exact paced_pure []
  | cons e rest ih =>
    cases e with
    | ident name =>
      apply ih.bind
      intro names
      exact paced_pure _
    | _ => exact paced_failAt _ _

theorem paced_expressionStatement :
    Paced requires limit 1 expressionStatement expressionStatement := by
  apply paced_expression.bind
  intro value
  apply paced_isAt
  · apply paced_next.bind
    intro _
    exact paced_pure _
  · exact paced_pure _

section Forms
variable (below : Paced (fun _ => True) limit 1 inner other)
include below

theorem paced_block : Paced requires (limit + 1) 1 (block inner) (block other) := by
  apply (paced_expect (by decide) _).bind_below
  intro _
  apply (paced_many (below.where_ fun _ _ => trivial)).bind
  intro body
  apply (paced_expect (by decide) _).bind
  intro _
  exact paced_pure body

theorem paced_function : Paced requires (limit + 1) 1 (function inner) (function other) := by
  apply paced_next.bind_second
  intro token
  apply (paced_expect (by decide) _).bind
  intro word
  apply (paced_arguments paced_expression).bind
  intro given
  apply (paced_parameters word given).bind
  intro names
  apply (paced_block below).bind
  intro body
  exact paced_pure _

theorem paced_guarded : Paced requires (limit + 1) 1 (guarded inner) (guarded other) := by
  apply paced_next.bind_second
  intro token
  apply (paced_expect (by decide) _).bind
  intro _
  apply paced_expression.bind
  intro condition
  apply (paced_expect (by decide) _).bind
  intro _
  apply (paced_block below).bind
  intro body
  exact paced_pure _

theorem paced_otherwise : Paced requires (limit + 1) 0 (otherwise inner) (otherwise other) := by
  apply paced_isAt
  · apply paced_next.bind
    intro token
    apply (paced_block below).bind
    intro body
    exact paced_pure _
  · exact paced_pure []

theorem paced_branch : Paced requires (limit + 1) 1 (branch inner) (branch other) := by
  apply (paced_guarded below).bind
  intro first
  apply (paced_many (paced_guarded below)).bind
  intro others
  apply (paced_otherwise below).bind
  intro last
  exact paced_pure _

theorem paced_whileLoop : Paced requires (limit + 1) 1 (whileLoop inner) (whileLoop other) := by
  apply paced_next.bind_second
  intro token
  apply (paced_expect (by decide) _).bind
  intro _
  apply (paced_comparison paced_expression).bind
  intro condition
  apply (paced_expect (by decide) _).bind
  intro _
  apply (paced_block below).bind
  intro body
  exact paced_pure _

theorem paced_forLoop : Paced requires (limit + 1) 1 (forLoop inner) (forLoop other) := by
  have closed (token : Token) (start : Declaration) (condition step : Expr) :
      Paced (fun _ => True) (limit + 1) 1
        (do let _ ← expect .closeParen (utf8 "expected ')' to close the loop header")
            return Stmt.forLoop token (some start) condition step (← block inner))
        (do let _ ← expect .closeParen (utf8 "expected ')' to close the loop header")
            return Stmt.forLoop token (some start) condition step (← block other)) := by
    apply (paced_expect (by decide) _).bind
    intro _
    apply (paced_block below).bind
    intro body
    exact paced_pure _
  apply paced_next.bind_second
  intro token
  apply (paced_expect (by decide) _).bind
  intro _
  apply paced_declaration.bind
  intro start
  apply (paced_comparison paced_expression).bind
  intro condition
  apply (paced_expect (by decide) _).bind
  intro _
  apply paced_isAt
  · exact paced_expression.bind (closed token start condition)
  · exact closed token start condition .absent

theorem paced_statementOf :
    Paced requires (limit + 1) 1 (statementOf inner) (statementOf other) := by
  have declared {needed : Token → Prop} : Paced needed (limit + 1) 1
      (do return Stmt.declare (← declaration)) (do return Stmt.declare (← declaration)) := by
    apply paced_declaration.bind
    intro d
    exact paced_pure _
  apply paced_peek
  intro token
  split
  · exact declared
  · exact declared
  · exact paced_function below
  · exact paced_branch below
  · exact paced_whileLoop below
  · exact paced_forLoop below
  · exact paced_expressionStatement

end Forms

theorem paced_nestedStatement (bottom : Parse Stmt) (depth : Nat) :
    Paced (fun _ => True) depth 1 (nestedStatement depth) (statementOf^[depth] bottom) :=
  paced_bounded stepwise_bottom (fun _ => rfl) (fun _ _ _ => paced_statementOf) bottom depth

theorem paced_statement : Paced requires limit 1 statement statement :=
  (paced_remaining paced_nestedStatement statement (Nat.le_refl _)).self

end Statements

/-- What the grammar reads as a whole, apart from programs: expressions and statements of all forms, and
their parts. -/
inductive Form : {α : Type} → Parse α → Prop where
  | expression : Form expression
  | assignment : Form (assignment expression)
  | object : Form (object expression)
  | sum : Form (sum expression)
  | product : Form (product expression)
  | comparison : Form (comparison expression)
  | access : Form (access expression)
  | suffix (value : Expr) : Form (suffix expression value)
  | member (value : Expr) : Form (namedMember expression value)
  | arguments : Form (arguments expression)
  | primary : Form (primary expression)
  | statement : Form statement
  | statementOf : Form (statementOf statement)
  | declaration : Form declaration
  | function : Form (function statement)
  | branch : Form (branch statement)
  | whileLoop : Form (whileLoop statement)
  | forLoop : Form (forLoop statement)
  | block : Form (block statement)

/-- The loops that extend what was read so far: which tokens start a round, and the round. -/
inductive Extending : {σ : Type} → (Token → Bool) → (σ → Parse σ) → Prop where
  | suffixes : Extending startsSuffix (suffix expression)
  | comparisons : Extending (·.kind = .booleanOperator) (operation (access expression))
  | products : Extending (isOperator [utf8 "*", utf8 "/", utf8 "%"]) (operation (comparison expression))
  | sums : Extending (isOperator [utf8 "+", utf8 "-"]) (operation (product expression))
  | increments : Extending (·.kind = .unaryOperator) increment

/-- The loops that read lists: which kinds of tokens start an item, and the item. -/
inductive Listing : {α : Type} → (Kind → Bool) → Parse α → Prop where
  | arguments : Listing (· = .comma) (do let _ ← next; expression)
  | properties : Listing insideBraces (property expression)
  | links : Listing (· = .elifWord) (guarded statement)
  | statements : Listing insideBraces statement
  | program : Listing (· ≠ .endOfInput) statement

theorem Form.paced {α : Type} {p : Parse α} (form : Form p) : Paced requires (limit + 1) 1 p p := by
  cases form with
  | expression => exact paced_expression
  | assignment => exact paced_assignment paced_expression
  | object => exact paced_object paced_expression
  | sum => exact paced_sum paced_expression
  | product => exact paced_product paced_expression
  | comparison => exact paced_comparison paced_expression
  | access => exact paced_access paced_expression
  | suffix value => exact paced_suffix paced_expression value
  | member value => exact paced_namedMember paced_expression value
  | arguments => exact paced_arguments paced_expression
  | primary => exact paced_primary paced_expression
  | statement => exact paced_statement
  | statementOf => exact paced_statementOf paced_statement
  | declaration => exact paced_declaration
  | function => exact paced_function paced_statement
  | branch => exact paced_branch paced_statement
  | whileLoop => exact paced_whileLoop paced_statement
  | forLoop => exact paced_forLoop paced_statement
  | block => exact paced_block paced_statement

theorem Form.position_lt {α : Type} {p : Parse α} (form : Form p) {c after : Cursor} {value : α}
    (closed : c.Closed) (ran : p.run c = .ok (value, after)) : c.position < after.position := by
  have paced : Paced (fun _ => True) (c.remaining + 1) 1 p p := form.paced
  obtain ⟨moves, same⟩ := paced.steps.moves ran
  have fewer := paced.ahead c value after closed trivial (Nat.le_succ _) ran
  have here := c.position_add_remaining
  have there := after.position_add_remaining
  rw [same, c.tokens_advances, ← same] at there
  omega

theorem Extending.paced {σ : Type} {starts : Token → Bool} {step : σ → Parse σ}
    (extending : Extending starts step) (state : σ) :
    Paced (fun token => starts token = true) (limit + 1) 1 (step state) (step state) := by
  cases extending with
  | suffixes => exact paced_suffix paced_expression state
  | comparisons => exact paced_operation (paced_access paced_expression) state
  | products => exact paced_operation (paced_comparison paced_expression) state
  | sums => exact paced_operation (paced_product paced_expression) state
  | increments => exact paced_increment state

theorem Listing.paced {α : Type} {starts : Kind → Bool} {item : Parse α}
    (listing : Listing starts item) :
    Paced (fun token => starts token.kind = true) (limit + 1) 1 item item := by
  cases listing with
  | arguments => exact paced_listed paced_expression
  | properties => exact paced_property paced_expression
  | links => exact paced_guarded paced_statement
  | statements | program => exact paced_statement

theorem stepwise_program : Stepwise program := by
  have paced : Paced (fun _ => True) 0 0 program program := paced_many paced_statement
  exact paced.steps

theorem grounded_expression {c : Cursor} (closed : c.Closed) : Grounded assignment expression c :=
  grounded_of_bounded stepwise_bottom (fun _ => rfl) (fun _ _ _ => paced_assignment) closed

theorem grounded_statement {c : Cursor} (closed : c.Closed) : Grounded statementOf statement c :=
  grounded_of_bounded stepwise_bottom (fun _ => rfl) (fun _ _ _ => paced_statementOf) closed

/-- A program ends at an end of input, and among the tokens of a source only the last one is. -/
theorem program_ends_last {source : Text} {tokens : List Token}
    (scanned : scan Keywords.default source = .ok tokens) {c after : Cursor} {program_ : Program}
    (standing : c.tokens = (Cursor.ofTokens tokens).tokens)
    (ran : program.run c = .ok (program_, after)) :
    after.tokens = tokens ∧ after.position + 1 = tokens.length := by
  have closed := (Cursor.closed_ofTokens tokens).of_tokens standing
  obtain ⟨front, last, rfl, ended, proper⟩ := proper_of_scan scanned
  obtain ⟨moves, moved⟩ := stepwise_program.moves ran
  have same : after.tokens = front ++ [last] := by
    rw [moved, c.tokens_advances, standing, Cursor.tokens_ofTokens front ended]
  have stands := after.within_tokens
  rw [same] at stands
  refine ⟨same, Nat.le_antisymm stands.inside ?_⟩
  -- anywhere earlier it would stand on a token that is no end of input
  by_contra early
  have inside : after.position < front.length := by
    rw [List.length_append, List.length_singleton] at early
    omega
  have found := stands.current
  rw [List.getElem?_append_left inside] at found
  exact (proper _ (List.mem_of_getElem? found)).ne_endOfInput (program_ends closed ran)

/-- On any sequence of tokens, at any place in it. Programs and all forms are read in steps, and a form
that is read leaves a token behind it. No bound is ever met: expressions and statements nest no deeper
than there are tokens, and every loop ends by itself. A program read from the tokens of a source ends at
the last of them. -/
theorem parsing_ends_moving_forward (tokens : List Token) {c : Cursor}
    (standing : c.tokens = (Cursor.ofTokens tokens).tokens) :
    program.Proceeds c ∧
    (∀ {α : Type} (p : Parse α), Form p →
      p.Proceeds c ∧
        ∀ value after, p.run c = .ok (value, after) → c.position < after.position) ∧
    Grounded assignment expression c ∧ Grounded statementOf statement c ∧
    (∀ {σ : Type} (starts : Token → Bool) (step : σ → Parse σ) (state : σ), Extending starts step →
      Repeats starts step state c ((chain starts step state).run c)) ∧
    (∀ {α : Type} (starts : Kind → Bool) (item : Parse α), Listing starts item →
      Repeats (fun token => starts token.kind) (gather item) [] c ((many starts item).run c)) ∧
    ∀ source program_ after, scan Keywords.default source = .ok tokens →
      program.run c = .ok (program_, after) →
        after.tokens = tokens ∧ after.position + 1 = tokens.length := by
  have closed := (Cursor.closed_ofTokens tokens).of_tokens standing
  refine ⟨stepwise_program.proceeds c, ?_, grounded_expression closed, grounded_statement closed, ?_, ?_,
    ?_⟩
  · intro α p form
    have paced : Paced (fun _ => True) 1 1 p p := form.paced
    exact ⟨paced.steps.proceeds c, fun value after => form.position_lt closed⟩
  · intro σ starts step state extending
    exact repeats_chain (fun state limit => (extending.paced state).weaken (Nat.le_succ limit)
      (Nat.le_refl 1)) state closed
  · intro α starts item listing
    exact repeats_many (fun limit => listing.paced.weaken (Nat.le_succ limit) (Nat.le_refl 1)) closed
  · intro source program_ after scanned ran
    exact program_ends_last scanned standing ran

/-- Calls in a call, behind an operator without an operand. -/
def nestedCalls : Text := utf8 "++; f(g(a), h());"

theorem nestedCalls_end :
    ∃ tokens program_ after value between, scan Keywords.default nestedCalls = .ok tokens ∧
      program.run (Cursor.ofTokens tokens) = .ok (program_, after) ∧
        after.tokens = tokens ∧ after.position + 1 = tokens.length ∧
          statement.run (Cursor.ofTokens tokens) = .ok (value, between) ∧ 0 < between.position ∧
            Repeats (·.kind = .unaryOperator) increment .absent (Cursor.ofTokens tokens)
              ((chain (·.kind = .unaryOperator) increment .absent).run (Cursor.ofTokens tokens)) ∧
            Repeats (fun token => decide (token.kind ≠ .endOfInput)) (gather statement) []
              (Cursor.ofTokens tokens) (program.run (Cursor.ofTokens tokens)) := by
  have reads : (scan Keywords.default nestedCalls).toOption.map (fun tokens =>
      ((program.run (Cursor.ofTokens tokens)).toOption.isSome,
        (statement.run (Cursor.ofTokens tokens)).toOption.isSome)) = some (true, true) := by
    decide +kernel
  rcases scanned : scan Keywords.default nestedCalls with fault | tokens
  · rw [scanned] at reads
    cases reads
  · rw [scanned] at reads
    obtain ⟨-, forms, -, -, extends_, lists, last⟩ :=
      parsing_ends_moving_forward tokens (c := Cursor.ofTokens tokens) rfl
    rcases ran : program.run (Cursor.ofTokens tokens) with fault | ⟨program_, after⟩
    · simp [ran, Except.toOption] at reads
    · rcases first : statement.run (Cursor.ofTokens tokens) with fault | ⟨value, between⟩
      · simp [first, Except.toOption] at reads
      · have further := (forms _ .statement).2 value between first
        have ended := last _ _ _ scanned ran
        have rounds := lists _ _ .program
        exact ⟨tokens, program_, after, value, between, rfl, ran, ended.1, ended.2, first,
          Nat.zero_lt_of_lt further, extends_ _ _ _ .increments, rounds⟩

end Grammar

end Scriptlet
