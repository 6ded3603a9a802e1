import Scriptlet.Proofs.Addition
import Scriptlet.Proofs.Attribution
import Scriptlet.Proofs.Fallbacks
/-!
Interference of names. A variable that is there before a program makes no difference to it unless the
program has a token of its name. The rules look up, declare and assign what tokens of names say, so an
evaluation that starts with one more variable goes as it does without, one rule after another. Only the
hint of an undeclared name may tell that the variable is there.
-/
namespace Scriptlet

/-- The names that the rule for an expression looks up or assigns itself. -/
def Expr.names : Expr → List Ident
  | .ident name => [name]
  | .object _ entries => entries.map Prod.fst
  | .assign _ (.ident name) _ => [name]
  | .unary _ _ (.ident name) => [name]
  | _ => []

/-- The names that the rule for a statement looks up, assigns or declares itself. -/
def Stmt.names : Stmt → List Ident
  | .expr e => e.names
  | .declare d => [d.name]
  | .function _ name _ _ => [name]
  | _ => []

theorem Expr.WellFormed.names {e : Expr} (formed : e.WellFormed) :
    ∀ name ∈ e.names, name.WellFormed ∧ name.token ∈ e.marks := by
  intro name member
  cases formed with
  | ident formed =>
    obtain rfl := List.mem_singleton.mp member
    exact ⟨formed, List.mem_singleton.mpr rfl⟩
  | object keys _ =>
    obtain ⟨entry, inside, rfl⟩ := List.mem_map.mp member
    exact ⟨keys entry inside, List.mem_map_of_mem inside⟩
  | assign target _ =>
    cases target with
    | ident formed =>
      obtain rfl := List.mem_singleton.mp member
      exact ⟨formed, by simp [marks, nameMarks]⟩
    | _ => cases member
  | @unary _ _ operand _ formed =>
    cases operand with
    | ident name =>
      obtain rfl := List.mem_singleton.mp member
      cases formed (by simp) with
      | ident formed => exact ⟨formed, by simp [marks, nameMarks]⟩
    | _ => cases member
  | _ => cases member

theorem Stmt.Parsed.names {statement : Stmt} (parsed : statement.Parsed) :
    ∀ name ∈ statement.names, name.WellFormed ∧ name.token ∈ statement.marks := by
  intro name member
  rcases parsed with formed | ⟨token, rfl⟩
  · cases formed with
    | expr formed => exact formed.names name member
    | declare formed =>
      obtain rfl := List.mem_singleton.mp member
      exact ⟨formed.name, List.mem_singleton.mpr rfl⟩
    | function formed =>
      obtain rfl := List.mem_singleton.mp member
      exact ⟨formed, List.mem_singleton.mpr rfl⟩
    | _ => cases member
  · cases member

theorem Stmt.ident_of_declared (statement : Stmt) :
    ∀ name ∈ statement.declared, ∃ ident ∈ statement.names, ident.text = name := by
  intro name member
  cases statement with
  | declare | function =>
    obtain rfl := List.mem_singleton.mp member
    exact ⟨_, List.mem_singleton.mpr rfl, rfl⟩
  | _ => cases member

/-- A token that is no use of a name. -/
def Token.Avoids (name : Text) (token : Token) : Prop := token.kind = .name → token.literal ≠ name

/-- Runs what parsing gives and has no token of a name. In the global frame the name is not declared. -/
def Policy.avoiding (name : Text) : Policy where
  runs statement := statement.Parsed ∧ statement.Marked (Token.Avoids name)
  enters := fun _ => True
  declares id other := 1 ≤ id ∨ other ≠ name
  base := 1
  runs_parts runs part member :=
    ⟨Policy.parsed.runs_parts runs.1 part member, (Stmt.marked_iff.mp runs.2).2 part member⟩
  enters_own := fun _ _ => trivial
  declares_own := fun own _ => .inl own

namespace Policy

variable {name : Text} {statement : Stmt}

theorem names_ne (runs : (avoiding name).runs statement) :
    ∀ ident ∈ statement.names, ident.text ≠ name := by
  intro ident member
  obtain ⟨formed, marked⟩ := runs.1.names ident member
  rw [formed.text]
  exact (Stmt.marked_iff.mp runs.2).1 _ marked formed.kind

theorem avoiding_declares (runs : (avoiding name).runs statement) (id : FrameId) :
    ∀ other ∈ statement.declared, (avoiding name).declares id other := by
  intro other member
  obtain ⟨ident, own, rfl⟩ := statement.ident_of_declared other member
  exact .inr (names_ne runs ident own)

end Policy

/-- The second store holds what the first holds, and the addition. -/
structure Store.Extended (added : Addition) (store other : Store) : Prop where
  frames : store.frames.Extended added other.frames
  printed : store.printed = other.printed
  machine : store.machine = other.machine

/-- The fault without its hints. -/
def Diagnostic.unhinted (fault : Diagnostic) : Diagnostic := { fault with hints := [] }

theorem Diagnostic.unhinted_undeclared (name : Text) (available : List Text) :
    (Diagnostic.undeclared name available).unhinted = Fault.undeclaredName.about "Name" name := by
  obtain ⟨hints, same⟩ := Diagnostic.exists_hints_undeclared name available
  rw [same]
  rfl

theorem Diagnostic.unhinted_placedAt (fault : Diagnostic) (place : Position) :
    (fault.placedAt place).unhinted = fault.unhinted.placedAt place := rfl

namespace Action

variable {α β γ δ : Type} {added : Addition} {view : α → β} {sight : γ → δ}

/-- Two ends that tell nothing of an addition but by hints. -/
inductive Follows (added : Addition) (view : α → β) :
    Except Stop α × Store → Except Stop β × Store → Prop
  | gives (value : α) {after left : Store} (extended : after.Extended added left) :
      Follows added view (.ok value, after) (.ok (view value), left)
  | fails {fault other : Diagnostic} {after left : Store} (same : fault.unhinted = other.unhinted)
      (extended : after.Extended added left) :
      Follows added view (.error (.failed fault), after) (.error (.failed other), left)
  | stops {stop : Stop} (other : ∀ fault, stop ≠ .failed fault) {after left : Store}
      (extended : after.Extended added left) :
      Follows added view (.error stop, after) (.error stop, left)

theorem Follows.extended {ended : Except Stop α × Store} {other : Except Stop β × Store}
    (follows : Follows added view ended other) : ended.2.Extended added other.2 := by
  cases follows <;> assumption

/-- The second action goes with the addition as the first goes without, in stores whose functions have
no token of its name. -/
def Tracks (added : Addition) (view : α → β) (first : Action α) (second : Action β) : Prop :=
  ∀ store other, (Policy.avoiding added.name).Ready store → store.Extended added other →
    Follows added view (first.outcome store) (second.outcome other)

theorem tracks_pure {value : α} {other : β} (same : other = view value) :
    Tracks added view (pure value) (pure other) := by
  subst same
  intro store larger _ extended
  exact .gives value extended

theorem tracks_failAt (token : Token) {fault other : Diagnostic} (same : other = fault) :
    Tracks added view (failAt token fault) (failAt token other) := by
  subst same
  intro store larger _ extended
  exact .fails rfl extended

theorem Tracks.bind {action : Action α} {other : Action β} {next : α → Action γ}
    {rest : β → Action δ} {ensures : α → Prop} (first : Tracks added view action other)
    (keeps : (Policy.avoiding added.name).Keeps action ensures)
    (second : ∀ value, ensures value → Tracks added sight (next value) (rest (view value))) :
    Tracks added sight (action >>= next) (other >>= rest) := by
  intro store larger ready extended
  have follows := first store larger ready extended
  rw [outcome_bind, outcome_bind]
  rcases ended : action.outcome store with ⟨result, after⟩
  rcases otherwise : other.outcome larger with ⟨answer, left⟩
  rw [ended, otherwise] at follows
  cases follows with
  | gives value extended =>
    obtain ⟨ensured, ready⟩ := keeps.gives ready ended
    exact second value ensured after left ready extended
  | fails same extended => exact .fails same extended
  | stops other extended => exact .stops other extended

theorem tracks_lookup {scope : Scope} {name : Text} (differ : name ≠ added.name) (token : Token) :
    Tracks added (Value.past added.gap) (lookup scope name token)
      (lookup (scope.past added.gap) name token) := by
  intro store larger _ extended
  rw [outcome_lookup, outcome_lookup, Frames.lookup, Frames.lookup, extended.frames.get?_eq differ]
  cases store.frames.get? scope name with
  | some value => exact .gives value extended
  | none =>
    -- the hint may name the addition, which is visible in every scope
    refine .fails ?_ extended
    rw [Diagnostic.unhinted_placedAt, Diagnostic.unhinted_placedAt, Diagnostic.unhinted_undeclared,
      Diagnostic.unhinted_undeclared]

theorem tracks_declare {scope : Scope} {name : Text} (leaves : added.Leaves scope.innermost name)
    (value : Value) (constant : Bool) (token : Token) :
    Tracks added (Value.past added.gap) (declare scope name value constant token)
      (declare (scope.past added.gap) name (value.past added.gap) constant token) := by
  intro store larger _ extended
  rw [outcome_declare, outcome_declare, extended.frames.declarationFault?_eq leaves]
  cases store.frames.declarationFault? scope name with
  | some fault => exact .fails rfl extended
  | none => exact .gives value { extended with frames := extended.frames.bind leaves value constant }

theorem tracks_assign {scope : Scope} {name : Text} (differ : name ≠ added.name) (value : Value)
    (token : Token) :
    Tracks added (Value.past added.gap) (assign scope name value token)
      (assign (scope.past added.gap) name (value.past added.gap) token) := by
  intro store larger _ extended
  rw [outcome_assign, outcome_assign, extended.frames.assignmentFault?_eq differ]
  cases store.frames.assignmentFault? scope name with
  | some fault => exact .fails rfl extended
  | none => exact .gives value { extended with frames := extended.frames.rebind differ value }

theorem tracks_enclosed (scope : Scope) :
    Tracks added (Scope.past added.gap) (enclosed scope) (enclosed (scope.past added.gap)) := by
  intro store larger _ extended
  have inside : (scope.past added.gap).enclose larger.frames.size =
      (scope.enclose store.frames.size).past added.gap := by
    have number : larger.frames.size = FrameId.past added.gap store.frames.size := by
      have := extended.frames.global
      rw [extended.frames.size]
      cases size : store.frames.size with
      | zero => omega
      | succ below =>
        simp only [FrameId.past]
    rw [number]
    rfl
  rw [outcome_enclosed, outcome_enclosed, inside]
  exact .gives _ { extended with frames := extended.frames.grow }

theorem tracks_native (function : Native) (given : List Value) :
    Tracks added (Value.past added.gap) (function.apply given)
      (function.apply (given.map (Value.past added.gap))) := by
  intro store larger _ extended
  have texts : (given.map (Value.past added.gap)).map Value.inspect = given.map Value.inspect :=
    Value.inspect_map_mapped given
  cases function with
  | print | println =>
    rw [Native.apply, Native.apply, texts]
    exact .gives Value.null ⟨extended.frames, congrArg (_ :: ·) extended.printed, extended.machine⟩
  | time =>
    have same (reading : Reading) : Native.timeValue reading (given.map (Value.past added.gap)) =
        (Native.timeValue reading given).past added.gap := Native.timeValue_mapped given reading
    rw [outcome_time, outcome_time, same, ← extended.machine]
    exact .gives _ { extended with machine := rfl }
  | exit =>
    have same (machine : Machine) : Native.haltOf machine (given.map (Value.past added.gap)) =
        Native.haltOf machine given := Native.haltOf_mapped given machine
    rw [outcome_exit, outcome_exit, same, ← extended.machine]
    exact .stops (by simp) extended

theorem tracks_binary (token : Token) (operator : Text) (left right : Value) :
    Tracks added (Value.past added.gap) (Eval.binary token operator left right)
      (Eval.binary token operator (left.past added.gap) (right.past added.gap)) := by
  have compared : Comparison.onValues? operator (left.past added.gap) (right.past added.gap) =
      Comparison.onValues? operator left right := Comparison.onValues?_mapped operator left right
  have computed : Arithmetic.onValues operator (left.past added.gap) (right.past added.gap) =
      (Arithmetic.onValues operator left right).past added.gap :=
    Arithmetic.onValues_mapped operator left right
  have types (value : Value) : (value.past added.gap).typeName = value.typeName :=
    value.typeName_mapped
  unfold Eval.binary
  rw [compared, computed]
  split
  · cases result : Comparison.onValues? operator left right with
    | some holds => exact tracks_pure rfl
    | none =>
      apply tracks_failAt
      simp only [Comparison.unsupported, types]
  · exact tracks_pure rfl

end Action

namespace Eval

open Scriptlet.Action

/-- The evaluation with the addition goes as the one without, in scopes that are behind it. -/
def Tracks (added : Addition) (eval : Evaluation) : Prop :=
  ∀ statement scope, (Policy.avoiding added.name).runs statement →
    Action.Tracks added (Value.past added.gap) (eval statement scope)
      (eval statement (scope.past added.gap))

section Rules
variable {added : Addition} {eval : Evaluation} (tracks : Tracks added eval)
  (respects : (Policy.avoiding added.name).Respects eval) (scope : Scope)
include tracks

theorem tracks_optionalValue {e : Expr}
    (runs : ∀ given ∈ e.present, (Policy.avoiding added.name).runs (.expr given)) :
    Action.Tracks added (Value.past added.gap) (optionalValue eval scope e)
      (optionalValue eval (scope.past added.gap) e) := by
  cases e with
  | absent => exact tracks_pure rfl
  | _ => exact tracks (.expr _) scope (runs _ (Expr.mem_present (by simp)))

include respects

/-- What follows on the value of an expression is tracked if it is on values without the name. -/
theorem Tracks.valueOf_bind {γ δ : Type} {sight : γ → δ} {e : Expr}
    (runs : (Policy.avoiding added.name).runs (.expr e)) {next : Value → Action γ}
    {rest : Value → Action δ}
    (second : ∀ value, (Policy.avoiding added.name).Admits value →
      Action.Tracks added sight (next value) (rest (value.past added.gap))) :
    Action.Tracks added sight (valueOf eval e scope >>= next)
      (valueOf eval e (scope.past added.gap) >>= rest) :=
  (tracks (.expr e) scope runs).bind (respects.valueOf trivial runs) second

theorem tracks_sequence {statements : List Stmt}
    (runs : ∀ statement ∈ statements, (Policy.avoiding added.name).runs statement) (last : Value) :
    Action.Tracks added (Value.past added.gap) (sequence eval scope last statements)
      (sequence eval (scope.past added.gap) (last.past added.gap) statements) := by
  induction statements generalizing last with
  | nil => exact tracks_pure rfl
  | cons statement rest ih =>
    have own := runs statement List.mem_cons_self
    have keeps := respects statement scope own trivial (Policy.avoiding_declares own _)
    apply (tracks statement scope own).bind keeps
    intro value _
    exact ih (fun other member => runs other (List.mem_cons_of_mem _ member)) value

theorem tracks_body {statements : List Stmt}
    (runs : ∀ statement ∈ statements, (Policy.avoiding added.name).runs statement) :
    Action.Tracks added (Value.past added.gap) (body eval scope statements)
      (body eval (scope.past added.gap) statements) :=
  tracks_sequence tracks respects scope runs .null

theorem tracks_values {arguments : List Expr}
    (runs : ∀ e ∈ arguments, (Policy.avoiding added.name).runs (.expr e)) :
    Action.Tracks added (List.map (Value.past added.gap)) (values eval scope arguments)
      (values eval (scope.past added.gap) arguments) := by
  induction arguments with
  | nil => exact tracks_pure rfl
  | cons e rest ih =>
    have later : ∀ other ∈ rest, (Policy.avoiding added.name).runs (.expr other) :=
      fun other member => runs other (List.mem_cons_of_mem _ member)
    apply tracks.valueOf_bind respects scope (runs e List.mem_cons_self)
    intro first _
    apply (ih later).bind (Policy.keeps_values respects trivial later)
    intro others _
    exact tracks_pure rfl

theorem tracks_condition {e : Expr} (runs : (Policy.avoiding added.name).runs (.expr e))
    (token : Token) :
    Action.Tracks added id (condition eval scope token e)
      (condition eval (scope.past added.gap) token e) := by
  apply tracks.valueOf_bind respects scope runs
  intro value _
  cases value with
  | boolean value => exact tracks_pure rfl
  | _ => exact tracks_failAt token rfl

theorem tracks_links {chain : List (Guarded Stmt)}
    (runs : ∀ link ∈ chain, ∀ part ∈ Stmt.expr link.condition :: link.body,
      (Policy.avoiding added.name).runs part) :
    Action.Tracks added (Value.past added.gap) (links eval scope chain)
      (links eval (scope.past added.gap) chain) := by
  induction chain with
  | nil => exact tracks_pure rfl
  | cons link rest ih =>
    have own := runs link List.mem_cons_self
    have test := own _ List.mem_cons_self
    apply (tracks_condition tracks respects scope test link.token).bind
      (Policy.keeps_condition respects trivial test link.token)
    intro holds _
    cases holds with
    | true =>
      exact tracks_body tracks respects scope fun part member => own part (List.mem_cons_of_mem _ member)
    | false => exact ih fun other member => runs other (List.mem_cons_of_mem _ member)

theorem tracks_round {token : Token} {test step : Expr} {statements : List Stmt}
    (inside : (Policy.avoiding added.name).Open scope)
    (tests : (Policy.avoiding added.name).runs (.expr test))
    (steps : ∀ given ∈ step.present, (Policy.avoiding added.name).runs (.expr given))
    (runs : ∀ statement ∈ statements, (Policy.avoiding added.name).runs statement) :
    Action.Tracks added id (round eval scope token test step statements)
      (round eval (scope.past added.gap) token test step statements) := by
  apply (tracks_condition tracks respects scope tests token).bind
    (Policy.keeps_condition respects trivial tests token)
  intro holds _
  cases holds with
  | false => exact tracks_pure rfl
  | true =>
    apply (tracks_body tracks respects scope runs).bind (Policy.keeps_body respects inside runs)
    intro _ _
    apply (tracks_optionalValue tracks scope steps).bind
      (Policy.keeps_optionalValue respects trivial steps)
    intro _ _
    exact tracks_pure rfl

omit tracks respects in
theorem tracks_rounds {first second : Action Bool} (each : Action.Tracks added id first second)
    (keeps : (Policy.avoiding added.name).Keeps first fun _ => True) (bound : Nat) :
    Action.Tracks added id (rounds first bound) (rounds second bound) := by
  induction bound with
  | zero =>
    intro store larger _ extended
    exact .stops (by simp) extended
  | succ bound ih =>
    apply each.bind keeps
    intro again _
    cases again with
    | true => exact ih
    | false => exact tracks_pure rfl

theorem tracks_loop {token : Token} {test step : Expr} {statements : List Stmt}
    (inside : (Policy.avoiding added.name).Open scope)
    (tests : (Policy.avoiding added.name).runs (.expr test))
    (steps : ∀ given ∈ step.present, (Policy.avoiding added.name).runs (.expr given))
    (runs : ∀ statement ∈ statements, (Policy.avoiding added.name).runs statement) (bound : Nat) :
    Action.Tracks added (Value.past added.gap) (loop eval bound scope token test step statements)
      (loop eval bound (scope.past added.gap) token test step statements) := by
  have one : (Policy.avoiding added.name).Keeps (round eval scope token test step statements) _ :=
    Policy.keeps_round respects inside tests steps runs
  apply (tracks_rounds (tracks_round tracks respects scope inside tests steps runs) one bound).bind
    (Policy.keeps_rounds one bound)
  intro _ _
  exact tracks_pure rfl

omit respects in
theorem tracks_opening {start : Option Declaration}
    (runs : ∀ d, start = some d → (Policy.avoiding added.name).runs (.declare d)) :
    Action.Tracks added (Value.past added.gap) (opening eval scope start)
      (opening eval (scope.past added.gap) start) := by
  cases start with
  | none => exact tracks_pure rfl
  | some d => exact tracks (.declare d) scope (runs d rfl)

omit respects in
theorem tracks_propertyValue {key : Ident} {e : Expr} (differ : key.text ≠ added.name)
    (runs : ∀ given ∈ e.present, (Policy.avoiding added.name).runs (.expr given)) :
    Action.Tracks added (Value.past added.gap) (propertyValue eval scope key e)
      (propertyValue eval (scope.past added.gap) key e) := by
  cases e with
  | absent => exact tracks_lookup differ key.token
  | _ => exact tracks (.expr _) scope (runs _ (Expr.mem_present (by simp)))

theorem tracks_properties {entries : List (Ident × Expr)}
    (differ : ∀ entry ∈ entries, entry.1.text ≠ added.name)
    (runs : ∀ entry ∈ entries, ∀ given ∈ entry.2.present,
      (Policy.avoiding added.name).runs (.expr given))
    (known : List (Text × Value)) :
    Action.Tracks added (mappedEntries id (Scope.past added.gap))
      (properties eval scope known entries)
      (properties eval (scope.past added.gap) (mappedEntries id (Scope.past added.gap) known)
        entries) := by
  induction entries generalizing known with
  | nil =>
    apply tracks_pure
    rw [mappedEntries_eq, mappedEntries_eq, List.map_reverse]
  | cons entry rest ih =>
    obtain ⟨key, e⟩ := entry
    have own := runs _ List.mem_cons_self
    apply (tracks_propertyValue tracks scope (differ _ List.mem_cons_self) own).bind
      (Policy.keeps_propertyValue respects trivial own)
    intro value _
    rw [lookup_mappedEntries, Option.isSome_map]
    split
    · exact tracks_failAt key.token rfl
    · exact ih (fun other member => differ other (List.mem_cons_of_mem _ member))
        (fun other member => runs other (List.mem_cons_of_mem _ member)) ((key.text, value) :: known)

theorem tracks_assignment {token : Token} {target e : Expr}
    (differ : ∀ name ∈ (Expr.assign token target e).names, name.text ≠ added.name)
    (runs : (Policy.avoiding added.name).runs (.expr e)) :
    Action.Tracks added (Value.past added.gap) (assignment eval scope token target e)
      (assignment eval (scope.past added.gap) token target e) := by
  cases target with
  | ident name =>
    apply tracks.valueOf_bind respects scope runs
    intro value _
    exact tracks_assign (differ name List.mem_cons_self) value name.token
  | _ => exact tracks_failAt token rfl

theorem tracks_unary {token : Token} {operator : Text} {operand : Expr}
    (differ : ∀ name ∈ (Expr.unary token operator operand).names, name.text ≠ added.name)
    (runs : ∀ given ∈ operand.present, (Policy.avoiding added.name).runs (.expr given)) :
    Action.Tracks added (Value.past added.gap) (unary eval scope token operator operand)
      (unary eval (scope.past added.gap) token operator operand) := by
  -- only a name is assigned to
  cases operand with
  | absent => exact tracks_failAt token rfl
  | _ =>
    apply tracks.valueOf_bind respects scope (runs _ (Expr.mem_present (by simp)))
    intro value _
    cases value with
    | number value =>
      simp only [Value.past, Value.mapped]
      split
      · exact tracks_failAt token rfl
      · first
          | exact tracks_assign (differ _ List.mem_cons_self) (.number _) _
          | exact tracks_pure rfl
    | _ => exact tracks_failAt token rfl

theorem tracks_memberName {token : Token} {key : Expr} {computed : Bool}
    (runs : computed = true → (Policy.avoiding added.name).runs (.expr key)) :
    Action.Tracks added id (memberName eval scope token key computed)
      (memberName eval (scope.past added.gap) token key computed) := by
  cases computed with
  | true =>
    apply tracks.valueOf_bind respects scope (runs rfl)
    intro value _
    cases value with
    | string name => exact tracks_pure rfl
    | _ => exact tracks_failAt token rfl
  | false =>
    cases key with
    | ident name => exact tracks_pure rfl
    | _ => exact tracks_failAt token rfl

theorem tracks_member {token : Token} {holder key : Expr} {computed : Bool}
    (holds : (Policy.avoiding added.name).runs (.expr holder))
    (runs : computed = true → (Policy.avoiding added.name).runs (.expr key)) :
    Action.Tracks added (Value.past added.gap) (member eval scope token holder key computed)
      (member eval (scope.past added.gap) token holder key computed) := by
  apply tracks.valueOf_bind respects scope holds
  intro value _
  cases value with
  | object properties =>
    apply (tracks_memberName tracks respects scope runs).bind
      (Policy.keeps_memberName respects trivial runs)
    intro name _
    rw [id, lookup_mappedEntries]
    cases properties.lookup name with
    | some value => exact tracks_pure rfl
    | none => exact tracks_failAt token rfl
  | _ => exact tracks_failAt token rfl

omit tracks respects in
theorem tracks_bindParameters {inside : Scope} (opened : (Policy.avoiding added.name).Open inside)
    (token : Token) (names : List Text) {given : List Value}
    (admitted : ∀ value ∈ given, (Policy.avoiding added.name).Admits value) :
    Action.Tracks added id (bindParameters inside token names given)
      (bindParameters (inside.past added.gap) token names (given.map (Value.past added.gap))) := by
  -- a parameter may have the name of the addition: its frame is not the global one
  induction names generalizing given with
  | nil => exact tracks_pure rfl
  | cons name names ih =>
    cases given with
    | nil => exact tracks_pure rfl
    | cons value rest =>
      apply (tracks_declare (opened.declares name) value false token).bind
        (Policy.keeps_declare trivial (opened.declares name) (admitted value List.mem_cons_self))
      intro _ _
      exact ih fun other member => admitted other (List.mem_cons_of_mem _ member)

omit scope in
theorem tracks_apply (token : Token) {callee : Value} {given : List Value}
    (callable : (Policy.avoiding added.name).Admits callee)
    (admitted : ∀ value ∈ given, (Policy.avoiding added.name).Admits value) :
    Action.Tracks added (Value.past added.gap) (apply eval token callee given)
      (apply eval token (callee.past added.gap) (given.map (Value.past added.gap))) := by
  cases callable with
  | native function => exact tracks_native function given
  | @function name parameters statements closure runs _ =>
    apply (tracks_enclosed closure).bind (Policy.keeps_enclosed trivial)
    intro inside opened
    apply (tracks_bindParameters opened token parameters admitted).bind
      (Policy.keeps_bindParameters opened admitted)
    intro _ _
    exact tracks_body tracks respects inside runs
  | _ => exact tracks_failAt token rfl

theorem tracks_expression {e : Expr} (runs : (Policy.avoiding added.name).runs (.expr e)) :
    Action.Tracks added (Value.past added.gap) (expression eval scope e)
      (expression eval (scope.past added.gap) e) := by
  have differ : ∀ name ∈ e.names, name.text ≠ added.name := Policy.names_ne runs
  have parts : ∀ part ∈ e.operands, (Policy.avoiding added.name).runs (.expr part) :=
    fun part member => (Policy.avoiding _).runs_parts runs _ (List.mem_map_of_mem member)
  cases e with
  | absent | number | string | boolean => exact tracks_pure rfl
  | ident name => exact tracks_lookup (differ name List.mem_cons_self) name.token
  | object token entries =>
    have keys : ∀ entry ∈ entries, entry.1.text ≠ added.name :=
      fun entry member => differ entry.1 (List.mem_map_of_mem member)
    have each : ∀ entry ∈ entries, ∀ given ∈ entry.2.present,
        (Policy.avoiding added.name).runs (.expr given) :=
      fun entry member given present => parts given (List.mem_flatMap.mpr ⟨entry, member, present⟩)
    apply (tracks_properties tracks respects scope keys each []).bind
      (Policy.keeps_properties respects trivial (by simp) each)
    intro all _
    exact tracks_pure rfl
  | assign token target e =>
    exact tracks_assignment tracks respects scope differ (parts e List.mem_cons_self)
  | binary token operator left right =>
    apply tracks.valueOf_bind respects scope (parts left (by simp [Expr.operands]))
    intro a _
    apply tracks.valueOf_bind respects scope (parts right (by simp [Expr.operands]))
    intro b _
    exact tracks_binary token operator a b
  | unary token operator operand => exact tracks_unary tracks respects scope differ parts
  | call token callee arguments =>
    have given_ : ∀ e ∈ arguments, (Policy.avoiding added.name).runs (.expr e) :=
      fun e member => parts e (List.mem_cons_of_mem _ member)
    apply tracks.valueOf_bind respects scope (parts callee List.mem_cons_self)
    intro function callable
    apply (tracks_values tracks respects scope given_).bind
      (Policy.keeps_values respects trivial given_)
    intro given admitted
    exact tracks_apply tracks respects token callable admitted
  | member token holder key computed =>
    refine tracks_member tracks respects scope (parts holder ?_) fun isComputed => parts key ?_
    · cases computed <;> simp [Expr.operands]
    · simp [Expr.operands, isComputed]

theorem tracks_rule {statement : Stmt} (runs : (Policy.avoiding added.name).runs statement)
    (bound : Nat) :
    Action.Tracks added (Value.past added.gap) (rule eval bound statement scope)
      (rule eval bound statement (scope.past added.gap)) := by
  have differ := Policy.names_ne runs
  have parts := (Policy.avoiding _).runs_parts runs
  cases statement with
  | expr e => exact tracks_expression tracks respects scope runs
  | declare d =>
    have present : ∀ given ∈ d.value.present, (Policy.avoiding added.name).runs (.expr given) :=
      fun given member => parts _ (List.mem_map_of_mem member)
    apply (tracks_optionalValue tracks scope present).bind
      (Policy.keeps_optionalValue respects trivial present)
    intro value _
    exact tracks_declare (.inr (differ d.name List.mem_cons_self)) value d.constant d.name.token
  | function token name parameters statements =>
    exact tracks_declare (.inr (differ name List.mem_cons_self))
      (.function name.text (parameters.map Ident.text) statements scope) true name.token
  | branch first others =>
    apply (tracks_enclosed scope).bind (Policy.keeps_enclosed trivial)
    intro inside _
    exact tracks_links tracks respects inside
      fun link member part inLink => parts part (List.mem_flatMap.mpr ⟨link, member, inLink⟩)
  | whileLoop token test statements =>
    apply (tracks_enclosed scope).bind (Policy.keeps_enclosed trivial)
    intro inside opened
    exact tracks_loop tracks respects inside opened (parts _ List.mem_cons_self)
      (by simp [Expr.present]) (fun part member => parts part (List.mem_cons_of_mem _ member)) bound
  | forLoop token start test step statements =>
    simp only [Stmt.parts, List.mem_append, List.mem_cons, List.mem_map] at parts
    have starts : ∀ d, start = some d → (Policy.avoiding added.name).runs (.declare d) :=
      fun d given => parts _ (by simp [given])
    apply (tracks_enclosed scope).bind (Policy.keeps_enclosed trivial)
    intro inside opened
    apply (tracks_opening tracks inside starts).bind (Policy.keeps_opening respects opened starts)
    intro _ _
    exact tracks_loop tracks respects inside opened (parts _ (by simp))
      (fun given present => parts _ (by simp [present]))
      (fun part member => parts part (by simp [member])) bound

end Rules

end Eval

theorem Stmt.tracks_eval (added : Addition) (bound : Nat) :
    Eval.Tracks added (Stmt.eval bound) := by
  induction bound with
  | zero =>
    intro statement scope _ store larger _ extended
    exact .stops (by simp) extended
  | succ bound ih =>
    intro statement scope runs
    exact Eval.tracks_rule ih (Policy.respects_eval bound) scope runs bound

/-- A program that avoids a name goes with the addition as it does without. -/
theorem Program.tracks_eval {added : Addition} {program : Program}
    (runs : ∀ statement ∈ program, (Policy.avoiding added.name).runs statement) (bound : Nat) :
    Action.Tracks added (Value.past added.gap) (program.eval bound Interpreter.globalScope)
      (program.eval bound Interpreter.globalScope) :=
  Eval.tracks_body (Stmt.tracks_eval added bound) (Policy.respects_eval bound) _ runs

/-- A program that a source is parsed to avoids the names that the source has no token of. -/
theorem Policy.avoiding_of_parseFresh {source name : Text} {program : Program}
    (parsed : Parser.parseFresh Keywords.default source = .ok program)
    (unused : ∀ token, source.HasToken token → token.Avoids name) :
    ∀ statement ∈ program, (avoiding name).runs statement := by
  intro statement member
  obtain ⟨tokens, scanned, marked⟩ := Parser.marked_of_parseFresh parsed
  refine ⟨.inl (wellFormed_of_parseFresh parsed statement member), ?_⟩
  exact (marked statement member).imp fun token inside => unused token ⟨tokens, scanned, inside⟩

/-- Two ends of runs that cannot be told apart but by hints. -/
inductive Outcome.Alike : Outcome → Outcome → Prop
  | failed {fault other : Diagnostic} :
      fault.unhinted = other.unhinted → Alike (.failed fault) (.failed other)
  | halted (halt : Halt) : Alike (.halted halt) (.halted halt)
  | empty : Alike (.finished none) (.finished none)
  | finished {value other : Value} :
      value.typeLabel = other.typeLabel → value.inspect = other.inspect →
        Alike (.finished (some value)) (.finished (some other))
  | exhausted : Alike .exhausted .exhausted

theorem Diagnostic.unhinted_orInFile (fault : Diagnostic) (file : Text) :
    (fault.orInFile file).unhinted = fault.unhinted.orInFile file := by
  unfold orInFile
  split <;> simp_all [unhinted, inFile]

namespace Interpreter

/-- A new interpreter with an addition. -/
def freshWith (added : Addition) (machine : Machine) (file : Text) : Interpreter :=
  { fresh machine file with store := { freshStore machine with frames := added.start } }

theorem standard_freshWith (added : Addition) (machine : Machine) (file : Text) :
    (freshWith added machine file).Standard :=
  ⟨(standard_fresh machine file).keywords, (standard_fresh machine file).faithful⟩

theorem alike_of_follows {i larger : Interpreter} (files : larger.file = i.file) {added : Addition}
    {ended other : Except Stop Value × Store}
    (follows : Action.Follows added (Value.past added.gap) ended other) :
    (i.conclude ended.1).1.Alike (larger.conclude other.1).1 := by
  cases follows with
  | gives value => exact .finished value.typeLabel_mapped.symm value.inspect_mapped.symm
  | fails same =>
    refine .failed ?_
    rw [Diagnostic.unhinted_orInFile, Diagnostic.unhinted_orInFile, same, files]
  | @stops stop other =>
    cases stop with
    | failed fault => exact absurd rfl (other fault)
    | halted halt => exact .halted halt
    | exhausted => exact .exhausted

section Runs
variable {program : Program} {added : Addition}
  (runs : ∀ statement ∈ program, (Policy.avoiding added.name).runs statement)
  (unbound : added.name ∉ Frame.predeclared.names) (machine : Machine) (file : Text) (bound : Nat)
include runs unbound

theorem follows_task :
    Action.Follows added (Value.past added.gap) ((fresh machine file).task bound program).outcome
      ((freshWith added machine file).task bound program).outcome := by
  have start : (freshStore machine).Extended added { freshStore machine with frames := added.start } :=
    ⟨added.extended_start unbound, rfl, rfl⟩
  exact Program.tracks_eval runs bound _ _ (ready_fresh (Nat.le_refl 1) machine) start

theorem alike_execute :
    (execute bound (fresh machine file) program).1.outcome.Alike
      (execute bound (freshWith added machine file) program).1.outcome := by
  cases program with
  | nil => exact .empty
  | cons statement rest =>
    rw [outcome_execute (List.cons_ne_nil _ _), outcome_execute (List.cons_ne_nil _ _)]
    exact alike_of_follows rfl (follows_task runs unbound machine file bound)

theorem extended_execute :
    (execute bound (fresh machine file) program).1.printed =
        (execute bound (freshWith added machine file) program).1.printed ∧
      (execute bound (fresh machine file) program).2.store.frames.Extended added
        (execute bound (freshWith added machine file) program).2.store.frames := by
  have quiet : (fresh machine file).Quiet := rfl
  have quietWith : (freshWith added machine file).Quiet := rfl
  have extended := (follows_task runs unbound machine file bound).extended
  rw [quiet.printed_execute, quietWith.printed_execute, quiet.store_execute,
    quietWith.store_execute]
  exact ⟨congrArg List.reverse extended.printed, extended.frames⟩

end Runs

end Interpreter

/-- Let a source be parsed that has no token of a name, and let no native function or constant have the
name. Then its run in a new interpreter cannot be told from its run in one where a variable of the
name was declared first, whatever its value is and whatever frames the value refers to: under each
bound both runs end alike, but for hints, and print the same. The global variables that are left differ
in this variable only, and it and its frames are as they were. -/
theorem unused_variable_unobservable {source : Text} {program : Program} {added : Addition}
    (parsed : Parser.parseFresh Keywords.default source = .ok program)
    (unused : ∀ token, source.HasToken token → token.kind = .name → token.literal ≠ added.name)
    (unbound : added.name ∉ Frame.predeclared.names) (machine : Machine) (file : Text) (bound : Nat) :
    let small := (Interpreter.fresh machine file).run bound source
    let large := (Interpreter.freshWith added machine file).run bound source
    small.1.outcome.Alike large.1.outcome ∧ small.1.printed = large.1.printed ∧
      ((large.2.userVariables.filter fun b => b.name != added.name).map Binding.row =
        small.2.userVariables.map Binding.row) ∧
      ((large.2.store.frames.frame 0).filter (fun b => b.name == added.name) = [added.binding]) ∧
      ((∀ function, added.binding.value ≠ .native function) →
        large.2.userVariables.filter (fun b => b.name == added.name) = [added.binding]) ∧
      ∀ id < added.behind.length, large.2.store.frames.frame (id + 1) = added.behind.getD id [] := by
  intro small large
  have runs := Policy.avoiding_of_parseFresh parsed unused
  obtain ⟨outcome, printed, store⟩ := Interpreter.seen_run_of_ok
    ((Interpreter.standard_fresh machine file).parse_of_parseFresh parsed) bound
  obtain ⟨outcomeWith, printedWith, storeWith⟩ := Interpreter.seen_run_of_ok
    ((Interpreter.standard_freshWith added machine file).parse_of_parseFresh parsed) bound
  obtain ⟨same, extended⟩ := Interpreter.extended_execute runs unbound machine file bound
  rw [← store, ← storeWith] at extended
  refine ⟨?_, printed.trans (same.trans printedWith.symm), extended.rows_rest, extended.own, ?_,
    extended.behind⟩
  · rw [outcome, outcomeWith]
    exact Interpreter.alike_execute runs unbound machine file bound
  · intro ordinary
    exact extended.userVariables_own (added.isPredeclared_eq_false unbound ordinary)

/-- The variable `helper`, a function that closes over a frame of its own. -/
def helper : Addition where
  binding := ⟨utf8 "helper", .function (utf8 "inner") [] [.expr .absent] ⟨1, [0]⟩, true⟩
  behind := [[⟨utf8 "hidden", .string (utf8 "x"), false⟩]]

/-- A new interpreter in which `helper` is declared. -/
def helped : Interpreter := .freshWith helper (.still ⟨2024, 3, 9, 14, 5, 7, 0⟩) []

/-- A program that does not mention `helper`. -/
def mentionsOther : Text := utf8 "func f(a) \x7b println(a); a; \x7d let o = f(true);"

-- The program calls a function in a new frame, which has another number where `helper` is declared.
theorem helper_unobservable :
    ((Interpreter.fresh (.still ⟨2024, 3, 9, 14, 5, 7, 0⟩) []).run 9 mentionsOther).1.outcome.Alike
        (helped.run 9 mentionsOther).1.outcome ∧
      (helped.run 9 mentionsOther).1.printed = [.line (utf8 "true")] ∧
      (helped.run 9 mentionsOther).2.userVariables.filter (fun b => b.name == utf8 "helper") =
        [helper.binding] := by
  have accepted : (Parser.parseFresh Keywords.default mentionsOther).toOption.isSome = true := by
    decide +kernel
  obtain ⟨program, parsed⟩ : ∃ program,
      Parser.parseFresh Keywords.default mentionsOther = .ok program := by
    rcases read : Parser.parseFresh Keywords.default mentionsOther with fault | program
    · rw [read] at accepted
      cases accepted
    · exact ⟨program, rfl⟩
  have avoids : ((scan Keywords.default mentionsOther).toOption.getD []).all
      (fun token => token.kind != .name || token.literal != helper.name) = true := by
    decide +kernel
  have unused : ∀ token, mentionsOther.HasToken token → token.kind = .name →
      token.literal ≠ helper.name := by
    rintro token ⟨tokens, scanned, member⟩ kind
    rw [scanned] at avoids
    have own := List.all_eq_true.mp avoids token member
    simpa [kind] using own
  obtain ⟨alike, printed, -, -, own, -⟩ := unused_variable_unobservable parsed unused (by decide)
    (.still ⟨2024, 3, 9, 14, 5, 7, 0⟩) [] 9
  refine ⟨alike, printed.symm.trans ?_, own nofun⟩
  decide +kernel

end Scriptlet
