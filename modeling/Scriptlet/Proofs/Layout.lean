import Scriptlet.Proofs.Consumption
/-!
Layout plays no part in parsing. Where two cursors show the same tokens at different places, a parser
does the same at both: it returns trees that differ only in the places of their tokens, or faults that
differ only in their own.
-/
namespace Scriptlet

def Token.unplaced (token : Token) : Token := { token with position := .unknown }

def Ident.unplaced (name : Ident) : Ident := ⟨name.token.unplaced, name.text⟩

def Diagnostic.unplaced (fault : Diagnostic) : Diagnostic := fault.placedAt .unknown

mutual

/-- The tree without the places of its tokens. -/
def Expr.unplaced : Expr → Expr
  | .absent => .absent
  | .ident name => .ident name.unplaced
  | .number token value text => .number token.unplaced value text
  | .string token value => .string token.unplaced value
  | .boolean token value => .boolean token.unplaced value
  | .object token properties => .object token.unplaced (unplacedProperties properties)
  | .assign token target value => .assign token.unplaced target.unplaced value.unplaced
  | .binary token operator left right =>
    .binary token.unplaced operator left.unplaced right.unplaced
  | .unary token operator operand => .unary token.unplaced operator operand.unplaced
  | .call token callee arguments =>
    .call token.unplaced callee.unplaced (unplacedArguments arguments)
  | .member token object property computed =>
    .member token.unplaced object.unplaced property.unplaced computed

def unplacedArguments : List Expr → List Expr
  | [] => []
  | e :: rest => e.unplaced :: unplacedArguments rest

def unplacedProperties : List (Ident × Expr) → List (Ident × Expr)
  | [] => []
  | (key, value) :: rest => (key.unplaced, value.unplaced) :: unplacedProperties rest

end

def Declaration.unplaced (d : Declaration) : Declaration :=
  ⟨d.token.unplaced, d.name.unplaced, d.constant, d.value.unplaced⟩

mutual

def Stmt.unplaced : Stmt → Stmt
  | .expr value => .expr value.unplaced
  | .declare declaration => .declare declaration.unplaced
  | .function token name parameters body =>
    .function token.unplaced name.unplaced (parameters.map Ident.unplaced) (unplacedBody body)
  | .branch ⟨token, condition, body⟩ others =>
    .branch ⟨token.unplaced, condition.unplaced, unplacedBody body⟩ (unplacedLinks others)
  | .whileLoop token condition body =>
    .whileLoop token.unplaced condition.unplaced (unplacedBody body)
  | .forLoop token start condition step body =>
    .forLoop token.unplaced (start.map Declaration.unplaced) condition.unplaced step.unplaced
      (unplacedBody body)

def unplacedBody : List Stmt → List Stmt
  | [] => []
  | statement :: rest => statement.unplaced :: unplacedBody rest

def unplacedLinks : List (Guarded Stmt) → List (Guarded Stmt)
  | [] => []
  | ⟨token, condition, body⟩ :: rest =>
    ⟨token.unplaced, condition.unplaced, unplacedBody body⟩ :: unplacedLinks rest

end

def Program.unplaced (program : Program) : Program := unplacedBody program

def Guarded.unplaced (link : Guarded Stmt) : Guarded Stmt :=
  ⟨link.token.unplaced, link.condition.unplaced, unplacedBody link.body⟩

theorem unplacedArguments_eq (arguments : List Expr) :
    unplacedArguments arguments = arguments.map Expr.unplaced := by
  induction arguments with
  | nil => rfl
  | cons e rest ih => rw [unplacedArguments, ih, List.map_cons]

theorem unplacedProperties_eq (properties : List (Ident × Expr)) :
    unplacedProperties properties = properties.map (Prod.map Ident.unplaced Expr.unplaced) := by
  induction properties with
  | nil => rfl
  | cons property rest ih => rw [unplacedProperties, ih]; rfl

theorem unplacedBody_eq (body : List Stmt) : unplacedBody body = body.map Stmt.unplaced := by
  induction body with
  | nil => rfl
  | cons statement rest ih => rw [unplacedBody, ih, List.map_cons]

theorem unplacedLinks_eq (links : List (Guarded Stmt)) :
    unplacedLinks links = links.map Guarded.unplaced := by
  induction links with
  | nil => rfl
  | cons link rest ih => rw [unplacedLinks, ih]; rfl

theorem Token.kind_of_unplaced {a b : Token} (same : a.unplaced = b.unplaced) : a.kind = b.kind := by
  change a.unplaced.kind = b.unplaced.kind
  rw [same]

theorem Token.literal_of_unplaced {a b : Token} (same : a.unplaced = b.unplaced) :
    a.literal = b.literal := by
  change a.unplaced.literal = b.unplaced.literal
  rw [same]

theorem Token.display_of_unplaced {a b : Token} (same : a.unplaced = b.unplaced) :
    a.display = b.display := by
  rw [display, display, kind_of_unplaced same, literal_of_unplaced same]

mutual

theorem Expr.text_unplaced (e : Expr) : e.unplaced.text = e.text := by
  cases e with
  | absent | ident | number | string | boolean => rfl
  | object token properties => simp [Expr.unplaced, Expr.text, propertyTexts_unplaced]
  | assign token target value => simp [Expr.unplaced, Expr.text, target.text_unplaced, value.text_unplaced]
  | binary token operator left right =>
    simp [Expr.unplaced, Expr.text, left.text_unplaced, right.text_unplaced]
  | unary token operator operand =>
    have same := operand.text_unplaced
    cases operand <;> simp_all [Expr.unplaced, Expr.text]
  | call token callee arguments =>
    simp [Expr.unplaced, Expr.text, callee.text_unplaced, expressionTexts_unplaced]
  | member token object property computed =>
    simp [Expr.unplaced, Expr.text, object.text_unplaced, property.text_unplaced]

theorem expressionTexts_unplaced (arguments : List Expr) :
    expressionTexts (unplacedArguments arguments) = expressionTexts arguments := by
  cases arguments with
  | nil => rfl
  | cons e rest =>
    simp [unplacedArguments, expressionTexts, e.text_unplaced, expressionTexts_unplaced rest]

theorem propertyTexts_unplaced (properties : List (Ident × Expr)) :
    propertyTexts (unplacedProperties properties) = propertyTexts properties := by
  cases properties with
  | nil => rfl
  | cons property rest =>
    obtain ⟨key, value⟩ := property
    have same := value.text_unplaced
    have others := propertyTexts_unplaced rest
    cases value <;> simp_all [unplacedProperties, propertyTexts, Expr.unplaced, Ident.unplaced]

end

theorem Expr.text_of_unplaced {a b : Expr} (same : a.unplaced = b.unplaced) : a.text = b.text := by
  rw [← a.text_unplaced, same, b.text_unplaced]

/-- What a cursor shows, without the places. -/
def Cursor.unplaced (cursor : Cursor) : List Token := cursor.upcoming.map Token.unplaced

namespace Cursor

variable {a b : Cursor}

theorem current_of_unplaced (same : a.unplaced = b.unplaced) :
    a.current.unplaced = b.current.unplaced :=
  (List.cons.inj same).1

theorem remaining_of_unplaced (same : a.unplaced = b.unplaced) : a.remaining = b.remaining := by
  have lengths := congrArg List.length same
  rwa [unplaced, unplaced, List.length_map, List.length_map, ← remaining_eq, ← remaining_eq] at lengths

theorem unplaced_advance (cursor : Cursor) :
    cursor.advance.unplaced =
      if cursor.later = [] then cursor.unplaced else cursor.unplaced.tail := by
  rcases ahead : cursor.later with _ | ⟨next, rest⟩
  · rw [advance_of_last ahead]
    rfl
  · have whole : cursor.upcoming = cursor.current :: next :: rest := by rw [upcoming, ahead]
    rw [unplaced, upcoming_advance whole, unplaced, whole]
    rfl

theorem advance_of_unplaced (same : a.unplaced = b.unplaced) :
    a.advance.unplaced = b.advance.unplaced := by
  have last : a.later = [] ↔ b.later = [] := by
    have lengths := congrArg List.length (List.cons.inj same).2
    simp only [List.length_map] at lengths
    rw [← List.length_eq_zero_iff, lengths, List.length_eq_zero_iff]
  simp only [unplaced_advance, last, same]

end Cursor

namespace Parse

variable {α β γ δ σ : Type}

/-- What a parser came to: what is seen of the result and of the tokens left, or of the fault. -/
def outcome (view : α → γ) : Except Diagnostic (α × Cursor) → Except Diagnostic (γ × List Token)
  | .ok (value, after) => .ok (view value, after.unplaced)
  | .error fault => .error fault.unplaced

/-- Where the cursors show the same tokens, the parsers come to the same. -/
def Alike (view : α → γ) (p q : Parse α) : Prop :=
  ∀ a b : Cursor, a.unplaced = b.unplaced → outcome view (p.run a) = outcome view (q.run b)

theorem alike_pure {view : α → γ} {x y : α} (same : view x = view y) :
    Alike view (pure x) (pure y) := by
  intro a b cursors
  change Except.ok (view x, a.unplaced) = Except.ok (view y, b.unplaced)
  rw [same, cursors]

theorem alike_throw {view : α → γ} {f g : Diagnostic} (same : f.unplaced = g.unplaced) :
    Alike view (throw f : Parse α) (throw g) := by
  intro a b _
  change Except.error f.unplaced = Except.error g.unplaced
  rw [same]

theorem alike_failAt {view : α → γ} {x y : Token} {f g : Diagnostic} (same : f = g) :
    Alike view (failAt x f : Parse α) (failAt y g) := by
  subst same
  exact alike_throw rfl

theorem Alike.bind {view : α → γ} {sight : β → δ} {p q : Parse α} {f g : α → Parse β}
    (first : Alike view p q) (second : ∀ x y, view x = view y → Alike sight (f x) (g y)) :
    Alike sight (p >>= f) (q >>= g) := by
  intro a b cursors
  have same := first a b cursors
  rw [StateT.run_bind, StateT.run_bind]
  generalize p.run a = left at same ⊢
  generalize q.run b = right at same ⊢
  -- both fail alike, or both go on from cursors that show the same tokens
  rcases left with fault | ⟨x, c⟩ <;> rcases right with other | ⟨y, d⟩
  · injection same with faults
    exact congrArg Except.error faults
  · cases same
  · cases same
  · injection same with both
    injection both with values cursors
    exact second x y values c d cursors

theorem alike_get {view : α → γ} {f g : Cursor → Parse α}
    (rest : ∀ a b : Cursor, a.unplaced = b.unplaced → Alike view (f a) (g b)) :
    Alike view (get >>= f) (get >>= g) :=
  fun a b cursors => rest a b cursors a b cursors

theorem alike_peek : Alike Token.unplaced peek peek := by
  intro a b cursors
  change Except.ok (a.current.unplaced, a.unplaced) = Except.ok (b.current.unplaced, b.unplaced)
  rw [Cursor.current_of_unplaced cursors, cursors]

theorem alike_isAt {view : α → γ} {kind : Kind} {f g : Bool → Parse α}
    (there : Alike view (f true) (g true)) (elsewhere : Alike view (f false) (g false)) :
    Alike view (isAt kind >>= f) (isAt kind >>= g) := by
  intro a b cursors
  have kinds := Token.kind_of_unplaced (Cursor.current_of_unplaced cursors)
  change outcome view ((f (a.isAt kind)).run a) = outcome view ((g (b.isAt kind)).run b)
  rw [Cursor.isAt, Cursor.isAt, kinds]
  by_cases same : b.current.kind = kind
  · rw [decide_eq_true same]
    exact there a b cursors
  · rw [decide_eq_false same]
    exact elsewhere a b cursors

theorem alike_next : Alike Token.unplaced next next := by
  intro a b cursors
  change Except.ok (a.current.unplaced, a.advance.unplaced) =
    Except.ok (b.current.unplaced, b.advance.unplaced)
  rw [Cursor.current_of_unplaced cursors, Cursor.advance_of_unplaced cursors]

theorem alike_expect (kind : Kind) {hint other : Text} (same : hint = other) :
    Alike Token.unplaced (expect kind hint) (expect kind other) := by
  subst same
  apply alike_get
  intro a b cursors
  have current := Cursor.current_of_unplaced cursors
  have kinds := Token.kind_of_unplaced current
  by_cases expected : b.current.kind = kind
  · simp only [Cursor.expectation, Cursor.isAt, kinds, expected, decide_true, if_true]
    exact alike_next
  · simp only [Cursor.expectation, Cursor.isAt, kinds, expected, decide_false, Bool.false_eq_true,
      if_false]
    apply alike_throw
    simp only [Cursor.unexpected, Token.display_of_unplaced current, Diagnostic.withHint]
    split <;> rfl

theorem alike_collect {view : α → γ} {p q : Parse α} (starts : Kind → Bool) (each : Alike view p q)
    (bound : Nat) : Alike (List.map view) (collect starts p bound) (collect starts q bound) := by
  induction bound with
  | zero => exact alike_pure rfl
  | succ bound ih =>
    apply alike_peek.bind
    intro x y tokens
    rw [Token.kind_of_unplaced tokens]
    split
    · apply each.bind
      intro first other same
      apply ih.bind
      intro rest others all
      exact alike_pure (by rw [List.map_cons, same, all, List.map_cons])
    · exact alike_pure rfl

theorem alike_many {view : α → γ} {p q : Parse α} (starts : Kind → Bool) (each : Alike view p q) :
    Alike (List.map view) (many starts p) (many starts q) := by
  apply alike_get
  intro a b cursors
  rw [Cursor.remaining_of_unplaced cursors]
  exact alike_collect starts each b.remaining

theorem alike_extend {view : σ → γ} {starts : Token → Bool} {p q : σ → Parse σ}
    (blind : ∀ a b : Token, a.unplaced = b.unplaced → starts a = starts b)
    (each : ∀ x y, view x = view y → Alike view (p x) (q y)) (bound : Nat) {x y : σ}
    (same : view x = view y) : Alike view (extend starts p bound x) (extend starts q bound y) := by
  induction bound generalizing x y with
  | zero => exact alike_pure same
  | succ bound ih =>
    apply alike_peek.bind
    intro a b tokens
    rw [blind a b tokens]
    split
    · exact (each x y same).bind fun _ _ further => ih further
    · exact alike_pure same

theorem alike_chain {view : σ → γ} {starts : Token → Bool} {p q : σ → Parse σ}
    (blind : ∀ a b : Token, a.unplaced = b.unplaced → starts a = starts b)
    (each : ∀ x y, view x = view y → Alike view (p x) (q y)) {x y : σ} (same : view x = view y) :
    Alike view (chain starts p x) (chain starts q y) := by
  apply alike_get
  intro a b cursors
  rw [Cursor.remaining_of_unplaced cursors]
  exact alike_extend blind each b.remaining same

end Parse

namespace Grammar

open Parse

section Expressions
variable {inner : Parse Expr} {a b : Expr}

theorem alike_unexpectedToken {α γ : Type} {view : α → γ} {x y : Token}
    (tokens : x.unplaced = y.unplaced) :
    Alike view (unexpectedToken x : Parse α) (unexpectedToken y) := by
  apply alike_failAt
  rw [Token.display_of_unplaced tokens]

theorem alike_quotedText {x y : Token} (tokens : x.unplaced = y.unplaced) :
    Alike Expr.unplaced (quotedText x) (quotedText y) := by
  apply alike_next.bind
  intro _ _ _
  apply (alike_expect _ rfl).bind
  intro v w values
  rw [Token.kind_of_unplaced tokens]
  apply (alike_expect _ rfl).bind
  intro _ _ _
  exact alike_pure (by rw [Expr.unplaced, Expr.unplaced, values, Token.literal_of_unplaced values])

theorem alike_numberLiteral {x y : Token} (tokens : x.unplaced = y.unplaced) :
    Alike Expr.unplaced (numberLiteral x) (numberLiteral y) := by
  apply alike_next.bind
  intro _ _ _
  rw [Token.literal_of_unplaced tokens]
  split
  · exact alike_pure (by rw [Expr.unplaced, Expr.unplaced, tokens])
  · exact alike_failAt rfl

theorem alike_operation {p q : Parse Expr} (operand : Alike Expr.unplaced p q)
    (same : a.unplaced = b.unplaced) :
    Alike Expr.unplaced (operation p a) (operation q b) := by
  apply alike_next.bind
  intro x y tokens
  apply operand.bind
  intro right other rights
  apply alike_pure
  simp only [Expr.unplaced, tokens, Token.literal_of_unplaced tokens, same, rights]

theorem alike_increment (same : a.unplaced = b.unplaced) :
    Alike Expr.unplaced (increment a) (increment b) := by
  apply alike_next.bind
  intro x y tokens
  apply alike_pure
  simp only [Expr.unplaced, tokens, Token.literal_of_unplaced tokens, same]

theorem alike_joinDecimal {x y : Token} (tokens : x.unplaced = y.unplaced) (whole fraction : Text) :
    Alike Expr.unplaced (joinDecimal x whole fraction) (joinDecimal y whole fraction) := by
  simp only [joinDecimal]
  split
  · exact alike_failAt rfl
  · split
    · exact alike_pure (by rw [Expr.unplaced, Expr.unplaced, tokens])
    · exact alike_failAt rfl

theorem startsSuffix_of_unplaced (x y : Token) (tokens : x.unplaced = y.unplaced) :
    startsSuffix x = startsSuffix y := by
  rw [startsSuffix, startsSuffix, Token.kind_of_unplaced tokens]

theorem isOperator_of_unplaced (operators : List Text) (x y : Token)
    (tokens : x.unplaced = y.unplaced) : isOperator operators x = isOperator operators y := by
  rw [isOperator, isOperator, Token.kind_of_unplaced tokens, Token.literal_of_unplaced tokens]

theorem decide_kind_of_unplaced (kind : Kind) (x y : Token) (tokens : x.unplaced = y.unplaced) :
    decide (x.kind = kind) = decide (y.kind = kind) := by
  rw [Token.kind_of_unplaced tokens]

section Tiers
variable (same : Alike Expr.unplaced inner inner)
include same

theorem alike_group : Alike Expr.unplaced (group inner) (group inner) := by
  apply alike_next.bind
  intro _ _ _
  apply same.bind
  intro v w values
  apply (alike_expect _ rfl).bind
  intro _ _ _
  exact alike_pure values

theorem alike_primary : Alike Expr.unplaced (primary inner) (primary inner) := by
  apply alike_peek.bind
  intro x y tokens
  have literals := Token.literal_of_unplaced tokens
  rw [Token.kind_of_unplaced tokens]
  split
  · apply alike_next.bind
    intro _ _ _
    exact alike_pure (by simp only [Expr.unplaced, Ident.unplaced, tokens, literals])
  · exact alike_numberLiteral tokens
  · exact alike_group same
  · exact alike_quotedText tokens
  · exact alike_quotedText tokens
  · apply alike_next.bind
    intro _ _ _
    exact alike_pure (by simp only [Expr.unplaced, tokens, literals])
  · exact alike_unexpectedToken tokens

theorem alike_arguments :
    Alike (List.map Expr.unplaced) (arguments inner) (arguments inner) := by
  apply (alike_expect _ rfl).bind
  intro _ _ _
  apply alike_isAt
  · apply alike_next.bind
    intro _ _ _
    exact alike_pure rfl
  · apply same.bind
    intro v w values
    have further : Alike Expr.unplaced (do let _ ← next; inner) (do let _ ← next; inner) :=
      alike_next.bind fun _ _ _ => same
    apply (alike_many _ further).bind
    intro rest others all
    apply (alike_expect _ rfl).bind
    intro _ _ _
    exact alike_pure (by rw [List.map_cons, values, all, List.map_cons])

theorem alike_namedMember (holders : a.unplaced = b.unplaced) :
    Alike Expr.unplaced (namedMember inner a) (namedMember inner b) := by
  apply alike_next.bind
  intro point dot points
  apply alike_peek.bind
  intro x y tokens
  apply (alike_primary same).bind
  intro key other keys
  have refused : Alike Expr.unplaced
      (failAt x (Fault.memberNotName.about "Got" key.text) : Parse Expr)
      (failAt y (Fault.memberNotName.about "Got" other.text)) :=
    alike_failAt (by rw [Expr.text_of_unplaced keys])
  -- the outcome hangs on whether each part is a number or a name, which trees that are alike share
  cases key <;> cases other <;> simp only [Expr.unplaced, reduceCtorEq] at keys
  case ident.ident name also =>
    have named : Alike Expr.unplaced (pure (.member point a (.ident name) false))
        (pure (.member dot b (.ident also) false)) :=
      alike_pure (by simp only [Expr.unplaced, points, holders, keys])
    cases a <;> cases b <;> simp only [Expr.unplaced, reduceCtorEq] at holders
    all_goals exact named
  case number.number =>
    obtain ⟨-, -, rfl⟩ : _ ∧ _ ∧ _ := by simpa using keys
    cases a <;> cases b <;> simp only [Expr.unplaced, reduceCtorEq] at holders
    case number.number =>
      obtain ⟨places, -, rfl⟩ : _ ∧ _ ∧ _ := by simpa using holders
      exact alike_joinDecimal places _ _
    all_goals exact refused
  all_goals cases a <;> cases b <;> exact refused

theorem alike_computedMember (holders : a.unplaced = b.unplaced) :
    Alike Expr.unplaced (computedMember inner a) (computedMember inner b) := by
  apply alike_next.bind
  intro x y tokens
  apply same.bind
  intro v w values
  apply (alike_expect _ rfl).bind
  intro _ _ _
  exact alike_pure (by simp only [Expr.unplaced, tokens, holders, values])

theorem alike_suffix (holders : a.unplaced = b.unplaced) :
    Alike Expr.unplaced (suffix inner a) (suffix inner b) := by
  apply alike_peek.bind
  intro x y tokens
  rw [Token.kind_of_unplaced tokens]
  split
  · apply (alike_arguments same).bind
    intro given others all
    apply alike_pure
    simp only [Expr.unplaced, unplacedArguments_eq, tokens, holders, all]
  · exact alike_computedMember same holders
  · exact alike_namedMember same holders

theorem alike_access : Alike Expr.unplaced (access inner) (access inner) :=
  (alike_primary same).bind fun _ _ => alike_chain startsSuffix_of_unplaced fun _ _ => alike_suffix same

theorem alike_comparison : Alike Expr.unplaced (comparison inner) (comparison inner) :=
  (alike_access same).bind fun _ _ =>
    alike_chain (decide_kind_of_unplaced _) fun _ _ => alike_operation (alike_access same)

theorem alike_product : Alike Expr.unplaced (product inner) (product inner) :=
  (alike_comparison same).bind fun _ _ =>
    alike_chain (isOperator_of_unplaced _) fun _ _ => alike_operation (alike_comparison same)

theorem alike_sum : Alike Expr.unplaced (sum inner) (sum inner) := by
  apply (alike_product same).bind
  intro v w firsts
  apply (alike_chain (isOperator_of_unplaced _)
    (fun _ _ => alike_operation (alike_product same)) firsts).bind
  intro x y values
  exact alike_chain (decide_kind_of_unplaced _) (fun _ _ => alike_increment) values

theorem alike_property :
    Alike (Prod.map Ident.unplaced Expr.unplaced) (property inner) (property inner) := by
  apply alike_next.bind
  intro key other keys
  have names : Ident.unplaced ⟨key, key.literal⟩ = Ident.unplaced ⟨other, other.literal⟩ := by
    rw [Ident.unplaced, Ident.unplaced, keys, Token.literal_of_unplaced keys]
  rw [Token.kind_of_unplaced keys]
  split
  · exact alike_failAt (by rw [Token.display_of_unplaced keys])
  · apply alike_peek.bind
    intro x y tokens
    rw [Token.kind_of_unplaced tokens]
    split
    · apply alike_next.bind
      intro _ _ _
      exact alike_pure (Prod.ext names rfl)
    · exact alike_pure (Prod.ext names rfl)
    · apply (alike_expect _ rfl).bind
      intro _ _ _
      apply same.bind
      intro v w values
      apply alike_isAt
      · exact alike_pure (Prod.ext names values)
      · apply (alike_expect _ rfl).bind
        intro _ _ _
        exact alike_pure (Prod.ext names values)

theorem alike_object : Alike Expr.unplaced (object inner) (object inner) := by
  apply alike_isAt
  · apply alike_next.bind
    intro x y tokens
    apply (alike_many _ (alike_property same)).bind
    intro properties others all
    apply (alike_expect _ rfl).bind
    intro _ _ _
    exact alike_pure (by simp only [Expr.unplaced, unplacedProperties_eq, tokens, all])
  · exact alike_sum same

theorem alike_assignment : Alike Expr.unplaced (assignment inner) (assignment inner) := by
  apply (alike_object same).bind
  intro target other targets
  apply alike_isAt
  · apply alike_next.bind
    intro x y tokens
    apply same.bind
    intro v w values
    exact alike_pure (by simp only [Expr.unplaced, tokens, targets, values])
  · exact alike_pure targets

end Tiers

theorem alike_nested (depth : Nat) : Alike Expr.unplaced (nested depth) (nested depth) := by
  induction depth with
  | zero => exact alike_peek.bind fun _ _ => alike_unexpectedToken
  | succ depth ih => exact alike_assignment ih

theorem alike_expression : Alike Expr.unplaced expression expression := by
  apply alike_get
  intro c d cursors
  rw [Cursor.remaining_of_unplaced cursors]
  exact alike_nested d.remaining

end Expressions

section Statements
variable {inner : Parse Stmt}

theorem alike_declaration : Alike Declaration.unplaced declaration declaration := by
  apply alike_next.bind
  intro x y tokens
  have kinds := Token.kind_of_unplaced tokens
  rw [kinds]
  split
  · apply alike_throw
    simp only [Cursor.unexpected, Token.display_of_unplaced tokens, Diagnostic.withHint]
    rfl
  · apply (alike_expect _ (by rw [Token.literal_of_unplaced tokens])).bind
    intro word other words
    have names : Ident.unplaced ⟨word, word.literal⟩ = Ident.unplaced ⟨other, other.literal⟩ := by
      rw [Ident.unplaced, Ident.unplaced, words, Token.literal_of_unplaced words]
    apply alike_isAt
    · simp only [if_true]
      split
      · exact alike_failAt (by rw [Token.literal_of_unplaced words])
      · apply alike_next.bind
        intro _ _ _
        exact alike_pure (by simp only [Declaration.unplaced, tokens, names])
    · refine (alike_expect _ rfl).bind ?_
      intro _ _ _
      apply alike_expression.bind
      intro v w firsts
      have finished {p q : Expr} (values : p.unplaced = q.unplaced) :
          Alike Declaration.unplaced
            (do let _ ← expect .semicolon (utf8 "expected ';' after the declaration")
                return ⟨x, ⟨word, word.literal⟩, y.kind = .constWord, p⟩)
            (do let _ ← expect .semicolon (utf8 "expected ';' after the declaration")
                return ⟨y, ⟨other, other.literal⟩, y.kind = .constWord, q⟩) := by
        apply (alike_expect _ rfl).bind
        intro _ _ _
        exact alike_pure (by simp only [Declaration.unplaced, tokens, names, values])
      apply alike_isAt
      · exact (alike_operation alike_expression firsts).bind fun _ _ => finished
      · exact finished firsts

theorem alike_parameters {x y : Token} (given others : List Expr)
    (all : given.map Expr.unplaced = others.map Expr.unplaced) :
    Alike (List.map Ident.unplaced) (parameters x given) (parameters y others) := by
  induction given generalizing others with
  | nil =>
    cases others with
    | nil => exact alike_pure rfl
    | cons => cases all
  | cons e rest ih =>
    cases others with
    | nil => cases all
    | cons f more =>
      injection all with same tails
      have texts := Expr.text_of_unplaced same
      cases e <;> cases f <;> simp only [Expr.unplaced, reduceCtorEq] at same
      case ident.ident name other =>
        apply (ih more tails).bind
        intro names also all
        apply alike_pure
        rw [List.map_cons, List.map_cons, all, Expr.ident.inj same]
      all_goals exact alike_failAt (by rw [texts])

theorem alike_expressionStatement :
    Alike Stmt.unplaced expressionStatement expressionStatement := by
  apply alike_expression.bind
  intro v w values
  have same : (Stmt.expr v).unplaced = (Stmt.expr w).unplaced := by
    rw [Stmt.unplaced, Stmt.unplaced, values]
  apply alike_isAt
  · exact alike_next.bind fun _ _ _ => alike_pure same
  · exact alike_pure same

section Forms
variable (same : Alike Stmt.unplaced inner inner)
include same

theorem alike_block : Alike unplacedBody (block inner) (block inner) := by
  apply (alike_expect _ rfl).bind
  intro _ _ _
  apply (alike_many _ same).bind
  intro body others bodies
  apply (alike_expect _ rfl).bind
  intro _ _ _
  exact alike_pure (by rw [unplacedBody_eq, unplacedBody_eq, bodies])

theorem alike_function : Alike Stmt.unplaced (function inner) (function inner) := by
  apply alike_next.bind
  intro x y tokens
  apply (alike_expect _ rfl).bind
  intro word other words
  apply (alike_arguments alike_expression).bind
  intro given others all
  apply (alike_parameters given others all).bind
  intro names also parameters
  apply (alike_block same).bind
  intro v w bodies
  apply alike_pure
  simp only [Stmt.unplaced, Ident.unplaced, tokens, words, Token.literal_of_unplaced words,
    parameters, bodies]

theorem alike_guarded : Alike Guarded.unplaced (guarded inner) (guarded inner) := by
  apply alike_next.bind
  intro x y tokens
  apply (alike_expect _ (by rw [Token.literal_of_unplaced tokens])).bind
  intro _ _ _
  apply alike_expression.bind
  intro v w conditions
  apply (alike_expect _ rfl).bind
  intro _ _ _
  apply (alike_block same).bind
  intro body other bodies
  exact alike_pure (by simp only [Guarded.unplaced, tokens, conditions, bodies])

theorem alike_otherwise :
    Alike (List.map Guarded.unplaced) (otherwise inner) (otherwise inner) := by
  apply alike_isAt
  · apply alike_next.bind
    intro x y tokens
    apply (alike_block same).bind
    intro body other bodies
    apply alike_pure
    simp only [List.map_cons, List.map_nil, Guarded.unplaced, Expr.unplaced, tokens, bodies]
  · exact alike_pure rfl

theorem alike_branch : Alike Stmt.unplaced (branch inner) (branch inner) := by
  apply (alike_guarded same).bind
  intro first other firsts
  apply (alike_many _ (alike_guarded same)).bind
  intro links others all
  apply (alike_otherwise same).bind
  intro last final ends
  apply alike_pure
  obtain ⟨token, condition, body⟩ := first
  obtain ⟨word, test, block⟩ := other
  injection firsts with tokens conditions bodies
  simp only [Stmt.unplaced, unplacedLinks_eq, List.map_append, tokens, conditions, bodies, all, ends]

theorem alike_whileLoop : Alike Stmt.unplaced (whileLoop inner) (whileLoop inner) := by
  apply alike_next.bind
  intro x y tokens
  apply (alike_expect _ rfl).bind
  intro _ _ _
  apply (alike_comparison alike_expression).bind
  intro v w conditions
  apply (alike_expect _ rfl).bind
  intro _ _ _
  apply (alike_block same).bind
  intro body other bodies
  exact alike_pure (by simp only [Stmt.unplaced, tokens, conditions, bodies])

theorem alike_forLoop : Alike Stmt.unplaced (forLoop inner) (forLoop inner) := by
  apply alike_next.bind
  intro x y tokens
  apply (alike_expect _ rfl).bind
  intro _ _ _
  apply alike_declaration.bind
  intro d e starts
  apply (alike_comparison alike_expression).bind
  intro v w conditions
  apply (alike_expect _ rfl).bind
  intro _ _ _
  have finished {p q : Expr} (steps : p.unplaced = q.unplaced) :
      Alike Stmt.unplaced
        (do let _ ← expect .closeParen (utf8 "expected ')' to close the loop header")
            return .forLoop x (some d) v p (← block inner))
        (do let _ ← expect .closeParen (utf8 "expected ')' to close the loop header")
            return .forLoop y (some e) w q (← block inner)) := by
    apply (alike_expect _ rfl).bind
    intro _ _ _
    apply (alike_block same).bind
    intro body other bodies
    apply alike_pure
    simp only [Stmt.unplaced, Option.map_some, tokens, starts, conditions, steps, bodies]
  apply alike_isAt
  · exact alike_expression.bind fun _ _ => finished
  · exact finished rfl

theorem alike_statementOf : Alike Stmt.unplaced (statementOf inner) (statementOf inner) := by
  have declares : Alike Stmt.unplaced (do return .declare (← declaration))
      (do return .declare (← declaration)) := by
    apply alike_declaration.bind
    intro d e declarations
    exact alike_pure (by rw [Stmt.unplaced, Stmt.unplaced, declarations])
  apply alike_peek.bind
  intro x y tokens
  rw [Token.kind_of_unplaced tokens]
  split
  · exact declares
  · exact declares
  · exact alike_function same
  · exact alike_branch same
  · exact alike_whileLoop same
  · exact alike_forLoop same
  · exact alike_expressionStatement

end Forms

theorem alike_nestedStatement (depth : Nat) :
    Alike Stmt.unplaced (nestedStatement depth) (nestedStatement depth) := by
  induction depth with
  | zero => exact alike_peek.bind fun _ _ => alike_unexpectedToken
  | succ depth ih => exact alike_statementOf ih

theorem alike_statement : Alike Stmt.unplaced statement statement := by
  apply alike_get
  intro c d cursors
  rw [Cursor.remaining_of_unplaced cursors]
  exact alike_nestedStatement d.remaining

theorem alike_program : Alike (List.map Stmt.unplaced) program program :=
  alike_many _ alike_statement

end Statements

end Grammar

end Scriptlet
