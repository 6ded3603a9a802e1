import Scriptlet.Proofs.Outcome
/-!
The faults of evaluation. They are of names or of types and name no file. A rule places its own faults
at the marks of its statement, so whatever may be said of faults at these marks, and of the faults of
the parts, may be said of the faults of the whole.
-/
namespace Scriptlet

/-- The fault is one that evaluation finds. -/
structure Diagnostic.OfEvaluation (fault : Diagnostic) : Prop where
  dynamic : fault.faultClass = .resolution ∨ fault.faultClass = .type
  file : fault.file = []

theorem ofEvaluation_diagnose {fault : Fault} (details : Option Details)
    (dynamic : fault.entry.faultClass = .resolution ∨ fault.entry.faultClass = .type) :
    (fault.diagnose details).OfEvaluation :=
  ⟨dynamic, rfl⟩

/-- The fault of a name that is not declared, whatever hint it comes with. -/
theorem Diagnostic.exists_hints_undeclared (name : Text) (available : List Text) :
    ∃ hints, Diagnostic.undeclared name available =
      { Fault.undeclaredName.about "Name" name with hints } := by
  unfold Diagnostic.undeclared
  dsimp only
  split
  · exact ⟨_, rfl⟩
  · exact ⟨_, rfl⟩
  · unfold Diagnostic.withHint
    split <;> exact ⟨_, rfl⟩

theorem ofEvaluation_undeclared (name : Text) (available : List Text) :
    (Diagnostic.undeclared name available).OfEvaluation := by
  obtain ⟨hints, same⟩ := Diagnostic.exists_hints_undeclared name available
  rw [same]
  exact ⟨.inl rfl, rfl⟩

theorem Frames.ofEvaluation_declarationFault? {frames : Frames} {scope : Scope} {name : Text}
    {fault : Diagnostic} (refused : frames.declarationFault? scope name = some fault) :
    fault.OfEvaluation := by
  unfold declarationFault? at refused
  split at refused
  · cases refused
    exact ofEvaluation_diagnose _ (.inl rfl)
  · cases refused

theorem Frames.ofEvaluation_assignmentFault? {frames : Frames} {scope : Scope} {name : Text}
    {fault : Diagnostic} (refused : frames.assignmentFault? scope name = some fault) :
    fault.OfEvaluation := by
  unfold assignmentFault? at refused
  split at refused
  · cases refused
    exact ofEvaluation_diagnose _ (.inl rfl)
  · split at refused
    · cases refused
      exact ofEvaluation_diagnose _ (.inl rfl)
    · cases refused

/-- The name of an expression that is one. -/
def Expr.nameMarks : Expr → List Token
  | .ident name => [name.token]
  | _ => []

/-- Where the rule for an expression places its own faults. -/
def Expr.marks : Expr → List Token
  | .ident name => [name.token]
  | .object _ entries => entries.map fun entry => entry.1.token
  | .assign token target _ => token :: target.nameMarks
  | .binary token _ _ _ => [token]
  | .unary token _ operand => token :: operand.nameMarks
  | .call token _ _ => [token]
  | .member token _ _ _ => [token]
  | _ => []

/-- Where the rule for a statement places its own faults. -/
def Stmt.marks : Stmt → List Token
  | .expr e => e.marks
  | .declare d => [d.name.token]
  | .function _ name _ _ => [name.token]
  | .branch first others => (first :: others).map Guarded.token
  | .whileLoop token _ _ => [token]
  | .forLoop token _ _ _ _ => [token]

namespace Action

variable {α β : Type} {blame : Diagnostic → Prop}

/-- The faults that the action can stop with are as stated. -/
def Blames (blame : Diagnostic → Prop) (action : Action α) : Prop :=
  ∀ store fault after, action.Stops store (.failed fault) after → blame fault

/-- So are all faults of evaluation at a token. -/
def Marked (blame : Diagnostic → Prop) (token : Token) : Prop :=
  ∀ fault : Diagnostic, fault.OfEvaluation → blame (fault.placedAt token.position)

theorem blames_pure (value : α) : Blames blame (pure value) := by
  rintro _ _ _ ⟨⟩

theorem blames_throw {stop : Stop} (other : ∀ fault, stop ≠ .failed fault) :
    Blames blame (throw stop : Action α) := by
  intro store fault after stops
  injection stops with same _
  exact absurd (Except.error.inj same) (other fault)

theorem blames_failAt {token : Token} {fault : Diagnostic} (marked : Marked blame token)
    (found : fault.OfEvaluation) : Blames blame (failAt token fault : Action α) := by
  rintro _ _ _ ⟨⟩
  exact marked fault found

theorem Blames.bind {action : Action α} {next : α → Action β} (first : Blames blame action)
    (second : ∀ value, Blames blame (next value)) : Blames blame (action >>= next) := by
  intro store fault after stops
  rcases gives_or_stops action store with ⟨value, between, gives⟩ | ⟨stop, between, failed⟩
  · exact second value between fault after ((gives.bind next).symm.trans stops)
  · have same := (failed.bind next).symm.trans stops
    injection same with ends _
    injection ends with stopped
    exact first store fault between (stopped ▸ failed)

theorem blames_lookup {token : Token} (marked : Marked blame token) (scope : Scope) (name : Text) :
    Blames blame (lookup scope name token) := by
  intro store fault after stops
  rw [Stops, outcome_lookup, Frames.lookup] at stops
  rcases got : store.frames.get? scope name with _ | value
  · rw [got] at stops
    cases stops
    exact marked _ (ofEvaluation_undeclared _ _)
  · rw [got] at stops
    cases stops

theorem blames_declare {token : Token} (marked : Marked blame token) (scope : Scope) (name : Text)
    (value : Value) (constant : Bool) : Blames blame (declare scope name value constant token) := by
  intro store fault after stops
  rw [Stops, outcome_declare] at stops
  rcases refused : store.frames.declarationFault? scope name with _ | found
  · rw [refused] at stops
    cases stops
  · rw [refused] at stops
    cases stops
    exact marked found (Frames.ofEvaluation_declarationFault? refused)

theorem blames_assign {token : Token} (marked : Marked blame token) (scope : Scope) (name : Text)
    (value : Value) : Blames blame (assign scope name value token) := by
  intro store fault after stops
  rw [Stops, outcome_assign] at stops
  rcases refused : store.frames.assignmentFault? scope name with _ | found
  · rw [refused] at stops
    cases stops
  · rw [refused] at stops
    cases stops
    exact marked found (Frames.ofEvaluation_assignmentFault? refused)

theorem blames_enclosed (scope : Scope) : Blames blame (enclosed scope) := by
  rintro _ _ _ ⟨⟩

theorem blames_print (printed : Printed) : Blames blame (print printed) := by
  rintro _ _ _ ⟨⟩

end Action

namespace Eval

open Scriptlet.Action

section Rules
variable {blame : Diagnostic → Prop} {eval : Evaluation}
  (parts : ∀ statement scope, Blames blame (eval statement scope)) (scope : Scope)
include parts

theorem blames_sequence (last : Value) (statements : List Stmt) :
    Blames blame (sequence eval scope last statements) := by
  induction statements generalizing last with
  | nil => exact blames_pure last
  | cons statement rest ih => exact (parts statement scope).bind ih

theorem blames_values (arguments : List Expr) : Blames blame (values eval scope arguments) := by
  induction arguments with
  | nil => exact blames_pure []
  | cons e rest ih =>
    apply (parts (.expr e) scope).bind
    intro first
    apply ih.bind
    intro others
    exact blames_pure _

theorem blames_condition {token : Token} (marked : Marked blame token) (e : Expr) :
    Blames blame (condition eval scope token e) := by
  apply (parts (.expr e) scope).bind
  intro value
  cases value with
  | boolean value => exact blames_pure value
  | _ => exact blames_failAt marked (ofEvaluation_diagnose _ (.inr rfl))

theorem blames_optionalValue (e : Expr) : Blames blame (optionalValue eval scope e) := by
  cases e with
  | absent => exact blames_pure _
  | _ => exact parts (.expr _) scope

theorem blames_links (chain : List (Guarded Stmt))
    (marked : ∀ link ∈ chain, Marked blame link.token) : Blames blame (links eval scope chain) := by
  induction chain with
  | nil => exact blames_pure _
  | cons link rest ih =>
    have here := marked link List.mem_cons_self
    have later := ih fun other member => marked other (List.mem_cons_of_mem _ member)
    apply (blames_condition parts scope here link.condition).bind
    intro holds
    cases holds with
    | true => exact blames_sequence parts scope _ _
    | false => exact later

theorem blames_loop (bound : Nat) {token : Token} (marked : Marked blame token) (test step : Expr)
    (statements : List Stmt) :
    Blames blame (loop eval bound scope token test step statements) := by
  have each : Blames blame (round eval scope token test step statements) := by
    apply (blames_condition parts scope marked test).bind
    intro holds
    cases holds with
    | false => exact blames_pure _
    | true =>
      apply (blames_sequence parts scope .null statements).bind
      intro _
      apply (blames_optionalValue parts scope step).bind
      intro _
      exact blames_pure _
  have all : Blames blame (rounds (round eval scope token test step statements) bound) := by
    induction bound with
    | zero => exact blames_throw (by rintro _ ⟨⟩)
    | succ bound ih =>
      apply each.bind
      intro again
      cases again with
      | true => exact ih
      | false => exact blames_pure _
  apply all.bind
  intro _
  exact blames_pure _

theorem blames_properties (known : List (Text × Value)) (entries : List (Ident × Expr))
    (marked : ∀ entry ∈ entries, Marked blame entry.1.token) :
    Blames blame (properties eval scope known entries) := by
  induction entries generalizing known with
  | nil => exact blames_pure _
  | cons entry rest ih =>
    obtain ⟨key, e⟩ := entry
    have here : Marked blame key.token := marked (key, e) List.mem_cons_self
    have value : Blames blame (propertyValue eval scope key e) := by
      cases e with
      | absent => exact blames_lookup here scope key.text
      | _ => exact parts (.expr _) scope
    apply value.bind
    intro given
    split
    · exact blames_failAt here (ofEvaluation_diagnose _ (.inl rfl))
    · exact ih _ fun other member => marked other (List.mem_cons_of_mem _ member)

theorem blames_assignment {token : Token} {target : Expr}
    (marked : ∀ mark ∈ token :: target.nameMarks, Marked blame mark) (e : Expr) :
    Blames blame (assignment eval scope token target e) := by
  cases target with
  | ident name =>
    apply (parts (.expr e) scope).bind
    intro value
    exact blames_assign (marked name.token (by simp [Expr.nameMarks])) scope name.text value
  | _ => exact blames_failAt (marked token List.mem_cons_self) (ofEvaluation_diagnose _ (.inr rfl))

omit parts in
theorem blames_binary {token : Token} (marked : Marked blame token) (operator : Text)
    (left right : Value) : Blames blame (binary token operator left right) := by
  unfold binary
  split
  · split
    · exact blames_pure _
    · exact blames_failAt marked (ofEvaluation_diagnose _ (.inr rfl))
  · exact blames_pure _

theorem blames_unary {token : Token} {operand : Expr}
    (marked : ∀ mark ∈ token :: operand.nameMarks, Marked blame mark) (operator : Text) :
    Blames blame (unary eval scope token operator operand) := by
  have here := marked token List.mem_cons_self
  cases operand with
  | absent => exact blames_failAt here (ofEvaluation_diagnose _ (.inr rfl))
  | ident name =>
    apply (parts _ scope).bind
    intro value
    cases value with
    | number value =>
      dsimp only
      split
      · exact blames_failAt here (ofEvaluation_diagnose _ (.inr rfl))
      · exact blames_assign (marked name.token (by simp [Expr.nameMarks])) scope _ _
    | _ => exact blames_failAt here (ofEvaluation_diagnose _ (.inr rfl))
  | _ =>
    apply (parts _ scope).bind
    intro value
    cases value with
    | number value =>
      dsimp only
      split
      · exact blames_failAt here (ofEvaluation_diagnose _ (.inr rfl))
      · exact blames_pure _
    | _ => exact blames_failAt here (ofEvaluation_diagnose _ (.inr rfl))

theorem blames_member {token : Token} (marked : Marked blame token) (holder key : Expr)
    (computed : Bool) : Blames blame (member eval scope token holder key computed) := by
  have named : Blames blame (memberName eval scope token key computed) := by
    cases computed with
    | true =>
      apply (parts (.expr key) scope).bind
      intro value
      cases value with
      | string name => exact blames_pure name
      | _ => exact blames_failAt marked (ofEvaluation_diagnose _ (.inr rfl))
    | false =>
      cases key with
      | ident name => exact blames_pure _
      | _ => exact blames_failAt marked (ofEvaluation_diagnose _ (.inr rfl))
  apply (parts (.expr holder) scope).bind
  intro value
  cases value with
  | object properties =>
    apply named.bind
    intro name
    split
    · exact blames_pure _
    · exact blames_failAt marked (ofEvaluation_diagnose _ (.inl rfl))
  | _ => exact blames_failAt marked (ofEvaluation_diagnose _ (.inr rfl))

omit parts in
theorem blames_bindParameters {token : Token} (marked : Marked blame token) (names : List Text)
    (given : List Value) : Blames blame (bindParameters scope token names given) := by
  induction names generalizing given with
  | nil => exact blames_pure _
  | cons name names ih =>
    cases given with
    | nil => exact blames_pure _
    | cons value rest =>
      apply (blames_declare marked scope name value false).bind
      intro _
      exact ih rest

omit parts scope in
theorem blames_native (function : Native) (given : List Value) :
    Blames blame (function.apply given) := by
  cases function with
  | print | println =>
    refine (blames_print _).bind ?_
    intro _
    exact blames_pure _
  | time => rintro _ _ _ ⟨⟩
  | exit => rintro _ _ _ ⟨⟩

omit scope in
theorem blames_apply {token : Token} (marked : Marked blame token) (callee : Value)
    (given : List Value) : Blames blame (apply eval token callee given) := by
  cases callee with
  | native function => exact blames_native function given
  | function name parameters statements closure =>
    refine (blames_enclosed closure).bind ?_
    intro inside
    apply (blames_bindParameters inside marked parameters given).bind
    intro _
    exact blames_sequence parts inside _ _
  | _ => exact blames_failAt marked (ofEvaluation_diagnose _ (.inr rfl))

theorem blames_expression (e : Expr) (marked : ∀ token ∈ e.marks, Marked blame token) :
    Blames blame (expression eval scope e) := by
  cases e with
  | absent | number | string | boolean => exact blames_pure _
  | ident name => exact blames_lookup (marked name.token List.mem_cons_self) scope name.text
  | object token entries =>
    have keys (entry : Ident × Expr) (member : entry ∈ entries) : Marked blame entry.1.token :=
      marked _ (List.mem_map_of_mem member)
    apply (blames_properties parts scope [] entries keys).bind
    intro all
    exact blames_pure _
  | assign token target value => exact blames_assignment parts scope marked value
  | binary token operator left right =>
    apply (parts (.expr left) scope).bind
    intro a
    apply (parts (.expr right) scope).bind
    intro b
    exact blames_binary (marked token List.mem_cons_self) operator a b
  | unary token operator operand => exact blames_unary parts scope marked operator
  | call token callee arguments =>
    apply (parts (.expr callee) scope).bind
    intro function
    apply (blames_values parts scope arguments).bind
    intro given
    exact blames_apply parts (marked token List.mem_cons_self) function given
  | member token holder key computed =>
    exact blames_member parts scope (marked token List.mem_cons_self) holder key computed

theorem blames_rule (bound : Nat) (statement : Stmt)
    (marked : ∀ token ∈ statement.marks, Marked blame token) :
    Blames blame (rule eval bound statement scope) := by
  cases statement with
  | expr e => exact blames_expression parts scope e marked
  | declare d =>
    apply (blames_optionalValue parts scope d.value).bind
    intro value
    exact blames_declare (marked _ List.mem_cons_self) scope _ value _
  | function token name parameters statements =>
    exact blames_declare (marked _ List.mem_cons_self) scope _ _ _
  | branch first others =>
    refine (blames_enclosed scope).bind ?_
    intro inside
    apply blames_links parts inside
    intro link member
    exact marked _ (List.mem_map_of_mem member)
  | whileLoop token test statements =>
    refine (blames_enclosed scope).bind ?_
    intro inside
    exact blames_loop parts inside bound (marked token List.mem_cons_self) test .absent statements
  | forLoop token start test step statements =>
    refine (blames_enclosed scope).bind ?_
    intro inside
    have opens : Blames blame (opening eval inside start) := by
      cases start with
      | none => exact blames_pure _
      | some d => exact parts (.declare d) inside
    apply opens.bind
    intro _
    exact blames_loop parts inside bound (marked token List.mem_cons_self) test step statements

end Rules

end Eval

/-- Whatever is evaluated, the faults are of names or of types and name no file. -/
theorem Stmt.blames_eval (bound : Nat) (statement : Stmt) (scope : Scope) :
    Action.Blames Diagnostic.OfEvaluation (statement.eval bound scope) := by
  induction bound generalizing statement scope with
  | zero => exact Action.blames_throw (by rintro _ ⟨⟩)
  | succ bound ih =>
    apply Eval.blames_rule ih scope bound statement
    intro token _ fault found
    exact ⟨found.dynamic, found.file⟩

theorem Program.blames_eval (bound : Nat) (program : Program) (scope : Scope) :
    Action.Blames Diagnostic.OfEvaluation (program.eval bound scope) :=
  Eval.blames_sequence (Stmt.blames_eval bound) scope .null program

end Scriptlet
