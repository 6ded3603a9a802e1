import Mathlib.Data.List.Nodup
import Mathlib.Logic.Relation
import Scriptlet.Proofs.Frames
import Scriptlet.Proofs.Outcome
/-!
What evaluation does to the store. A policy says which statements an evaluation may come across,
which scopes it may enter, which names it may declare where, and which names an object may have. An
evaluation that starts within its policy stays within it: it changes the store by a series of
declarations, assignments, new frames and prints that the policy allows, and so keeps out of the store
what the policy does not admit.
-/
namespace Scriptlet

open Scriptlet.Action

/-- The expression, or none if it is left out. -/
def Expr.present : Expr → List Expr
  | .absent => []
  | e => [e]

theorem Expr.mem_present {e : Expr} (given : e ≠ .absent) : e ∈ e.present := by
  cases e <;> first | contradiction | exact List.mem_singleton.mpr rfl

theorem Expr.eq_of_mem_present {e given : Expr} (member : given ∈ e.present) :
    given = e ∧ e ≠ .absent := by
  cases e with
  | absent => cases member
  | _ => exact ⟨List.mem_singleton.mp member, by simp⟩

/-- The expressions that may be evaluated for the value of an expression. -/
def Expr.operands : Expr → List Expr
  | .object _ entries => entries.flatMap fun entry => entry.2.present
  | .assign _ _ e => [e]
  | .binary _ _ left right => [left, right]
  | .unary _ _ operand => operand.present
  | .call _ callee arguments => callee :: arguments
  | .member _ holder key computed => if computed then [holder, key] else [holder]
  | _ => []

/-- The statements inside a statement that it may evaluate or keep for later. -/
def Stmt.parts : Stmt → List Stmt
  | .expr e => e.operands.map .expr
  | .declare d => d.value.present.map .expr
  | .function _ _ _ statements => statements
  | .branch first others =>
    (first :: others).flatMap fun link => .expr link.condition :: link.body
  | .whileLoop _ test statements => .expr test :: statements
  | .forLoop _ start test step statements =>
    start.toList.map .declare ++ .expr test :: step.present.map .expr ++ statements

/-- The name that a statement declares in the scope it is evaluated in. -/
def Stmt.declared : Stmt → List Text
  | .declare d => [d.name.text]
  | .function _ name _ _ => [name.text]
  | _ => []

def Node.statements : Node → List Stmt
  | .program statements => statements
  | .statement single => [single]

/-- The names that a node declares in the scope it is evaluated in. -/
def Node.declared (node : Node) : List Text := node.statements.flatMap Stmt.declared

/-- What an evaluation may do. -/
structure Policy where
  /-- The statements that are evaluated or kept as bodies of functions. -/
  runs : Stmt → Prop
  /-- The scopes that statements are evaluated in. -/
  enters : Scope → Prop
  /-- The names that are declared in a frame. -/
  declares : FrameId → Text → Prop
  /-- The names that an object has. -/
  shapes : List Text → Prop := fun _ => True
  /-- The frames from this number on are the evaluation's own. -/
  base : FrameId
  runs_parts : ∀ {statement}, runs statement → ∀ part ∈ statement.parts, runs part
  enters_own : ∀ {scope id}, enters scope → base ≤ id → enters (scope.enclose id)
  declares_own : ∀ {id}, base ≤ id → ∀ name, declares id name
  shapes_distinct : ∀ {names : List Text}, names.Nodup → shapes names := by exact fun _ => trivial

namespace Policy

variable (policy : Policy)

/-- The values whose objects have names, and whose functions have bodies and scopes, that the policy
allows. -/
inductive Admits : Value → Prop where
  | null : Admits .null
  | boolean (value : Bool) : Admits (.boolean value)
  | number (value : Float) : Admits (.number value)
  | string (value : Text) : Admits (.string value)
  | native (function : Native) : Admits (.native function)
  | object {properties : List (Text × Value)} :
      policy.shapes (properties.map Prod.fst) → (∀ property ∈ properties, Admits property.2) →
        Admits (.object properties)
  | function {name parameters statements scope} :
      (∀ statement ∈ statements, policy.runs statement) → policy.enters scope →
        Admits (.function name parameters statements scope)

inductive Change : Store → Store → Prop where
  | declare {store scope name value constant} :
      policy.enters scope → policy.declares scope.innermost name → policy.Admits value →
        store.frames.declarationFault? scope name = none →
          Change store { store with frames := store.frames.bind scope name value constant }
  | assign {store scope name value} :
      policy.enters scope → policy.Admits value →
        store.frames.assignmentFault? scope name = none →
          Change store { store with frames := store.frames.rebind scope name value }
  | enclose {store} : Change store { store with frames := store.frames.grow }
  | print {store printed} : Change store { store with printed := printed :: store.printed }
  | read {store} : Change store { store with machine := store.machine.after 1 }

/-- A series of changes. -/
abbrev Changes : Store → Store → Prop := Relation.ReflTransGen policy.Change

/-- A store in which an evaluation under the policy may start. -/
structure Ready (store : Store) : Prop where
  base_le : policy.base ≤ store.frames.size
  admits : ∀ id, ∀ b ∈ store.frames.frame id, policy.Admits b.value

variable {policy} {α β : Type}

theorem Change.size_le {store after : Store} (change : policy.Change store after) :
    store.frames.size ≤ after.frames.size := by
  cases change with
  | declare => simp
  | assign => simp
  | enclose => simp
  | print => exact Nat.le_refl _
  | read => exact Nat.le_refl _

theorem Change.ready {store after : Store} (change : policy.Change store after)
    (ready : policy.Ready store) : policy.Ready after := by
  refine ⟨Nat.le_trans ready.base_le change.size_le, ?_⟩
  intro id b member
  -- a binding is either the one the change wrote, or was there before
  cases change with
  | declare _ _ admitted _ =>
    simp only [Frames.frame_bind] at member
    split at member
    · rcases List.mem_cons.mp member with rfl | old
      · exact admitted
      · exact ready.admits id b old
    · exact ready.admits id b member
  | assign _ admitted _ =>
    simp only [Frames.frame_rebind] at member
    split at member
    · rcases Frame.mem_update member with old | new
      · exact ready.admits id b old
      · exact new ▸ admitted
    · exact ready.admits id b member
  | enclose =>
    simp only [Frames.frame_grow] at member
    exact ready.admits id b member
  | print => exact ready.admits id b member
  | read => exact ready.admits id b member

theorem Changes.ready {store after : Store} (changes : policy.Changes store after)
    (ready : policy.Ready store) : policy.Ready after := by
  induction changes with
  | refl => exact ready
  | tail _ change ih => exact change.ready ih

theorem Changes.size_le {store after : Store} (changes : policy.Changes store after) :
    store.frames.size ≤ after.frames.size := by
  induction changes with
  | refl => exact Nat.le_refl _
  | tail _ change ih => exact Nat.le_trans ih change.size_le

/-- The action changes the store as the policy allows, and what it gives is as stated. -/
def Keeps (policy : Policy) (action : Action α) (ensures : α → Prop) : Prop :=
  ∀ store, policy.Ready store →
    policy.Changes store (action.outcome store).2 ∧
      ∀ value, (action.outcome store).1 = .ok value → ensures value

section Steps

theorem keeps_pure {ensures : α → Prop} {value : α} (holds : ensures value) :
    policy.Keeps (pure value) ensures := by
  intro store ready
  refine ⟨.refl, ?_⟩
  rintro _ ⟨⟩
  exact holds

theorem keeps_throw {ensures : α → Prop} (stop : Stop) :
    policy.Keeps (throw stop : Action α) ensures := by
  intro store ready
  refine ⟨.refl, ?_⟩
  rintro _ ⟨⟩

theorem keeps_failAt {ensures : α → Prop} (token : Token) (fault : Diagnostic) :
    policy.Keeps (failAt token fault : Action α) ensures :=
  keeps_throw _

theorem Keeps.bind {action : Action α} {next : α → Action β} {ensures : α → Prop}
    {finally_ : β → Prop} (first : policy.Keeps action ensures)
    (second : ∀ value, ensures value → policy.Keeps (next value) finally_) :
    policy.Keeps (action >>= next) finally_ := by
  intro store ready
  obtain ⟨changes, given⟩ := first store ready
  rcases gives_or_stops action store with ⟨value, between, gives⟩ | ⟨stop, between, stops⟩
  · rw [gives] at changes given
    -- the first action leaves a store that is ready for the second
    obtain ⟨more, last⟩ := second value (given value rfl) between (changes.ready ready)
    rw [gives.bind]
    exact ⟨changes.trans more, last⟩
  · rw [stops] at changes
    rw [stops.bind next]
    refine ⟨changes, ?_⟩
    rintro _ ⟨⟩

/-- What is given under a policy in a store that is ready for it, and the store after. -/
theorem Keeps.gives {action : Action α} {ensures : α → Prop} (keeps : policy.Keeps action ensures)
    {store after : Store} {value : α} (ready : policy.Ready store)
    (gives : action.Gives store value after) : ensures value ∧ policy.Ready after := by
  obtain ⟨changes, given⟩ := keeps store ready
  rw [gives] at changes given
  exact ⟨given value rfl, changes.ready ready⟩

theorem Keeps.changes {action : Action α} {ensures : α → Prop} (keeps : policy.Keeps action ensures)
    {store after : Store} {value : α} (ready : policy.Ready store)
    (gives : action.Gives store value after) : policy.Changes store after := by
  obtain ⟨changes, -⟩ := keeps store ready
  rw [gives] at changes
  exact changes

theorem keeps_lookup {scope : Scope} {name : Text} {token : Token} :
    policy.Keeps (lookup scope name token) policy.Admits := by
  intro store ready
  rw [outcome_lookup, Frames.lookup]
  rcases got : store.frames.get? scope name with _ | value
  · refine ⟨.refl, ?_⟩
    rintro _ ⟨⟩
  · refine ⟨.refl, ?_⟩
    rintro _ ⟨⟩
    obtain ⟨id, -, b, found, rfl⟩ := Frames.mem_of_get? got
    exact ready.admits id b (Frame.mem_of_find found)

theorem keeps_declare {scope : Scope} {name : Text} {value : Value} {constant : Bool} {token : Token}
    (enters : policy.enters scope) (declares : policy.declares scope.innermost name)
    (admitted : policy.Admits value) :
    policy.Keeps (declare scope name value constant token) policy.Admits := by
  intro store ready
  rw [outcome_declare]
  rcases allowed : store.frames.declarationFault? scope name with _ | fault
  · refine ⟨.single (.declare enters declares admitted allowed), ?_⟩
    rintro _ ⟨⟩
    exact admitted
  · refine ⟨.refl, ?_⟩
    rintro _ ⟨⟩

theorem keeps_assign {scope : Scope} {name : Text} {value : Value} {token : Token}
    (enters : policy.enters scope) (admitted : policy.Admits value) :
    policy.Keeps (assign scope name value token) policy.Admits := by
  intro store ready
  rw [outcome_assign]
  rcases allowed : store.frames.assignmentFault? scope name with _ | fault
  · refine ⟨.single (.assign enters admitted allowed), ?_⟩
    rintro _ ⟨⟩
    exact admitted
  · refine ⟨.refl, ?_⟩
    rintro _ ⟨⟩

/-- A scope in which the policy allows evaluation and any declaration. -/
structure Open (policy : Policy) (scope : Scope) : Prop where
  enters : policy.enters scope
  declares : ∀ name, policy.declares scope.innermost name

theorem keeps_enclosed {scope : Scope} (enters : policy.enters scope) :
    policy.Keeps (enclosed scope) policy.Open := by
  intro store ready
  refine ⟨.single .enclose, ?_⟩
  rintro _ ⟨⟩
  exact ⟨policy.enters_own enters ready.base_le, policy.declares_own ready.base_le⟩

theorem keeps_print (printed : Printed) : policy.Keeps (print printed) fun _ => True := by
  intro store ready
  exact ⟨.single .print, fun _ _ => trivial⟩

theorem keeps_readClock : policy.Keeps readClock fun _ => True := by
  intro store ready
  exact ⟨.single .read, fun _ _ => trivial⟩

end Steps

section Rules
open Eval
variable {eval : Evaluation} {scope : Scope}

/-- The evaluation stays within the policy if what it is given is. -/
def Respects (policy : Policy) (eval : Evaluation) : Prop :=
  ∀ statement scope, policy.runs statement → policy.enters scope →
    (∀ name ∈ statement.declared, policy.declares scope.innermost name) →
      policy.Keeps (eval statement scope) policy.Admits

theorem Respects.valueOf (respects : policy.Respects eval) (enters : policy.enters scope) {e : Expr}
    (runs : policy.runs (.expr e)) : policy.Keeps (valueOf eval e scope) policy.Admits := by
  refine respects _ _ runs enters ?_
  intro name member
  cases member

theorem keeps_sequence (respects : policy.Respects eval) (enters : policy.enters scope)
    {statements : List Stmt} (runs : ∀ statement ∈ statements, policy.runs statement)
    (declares : ∀ statement ∈ statements, ∀ name ∈ statement.declared,
      policy.declares scope.innermost name) {last : Value} (admitted : policy.Admits last) :
    policy.Keeps (sequence eval scope last statements) policy.Admits := by
  induction statements generalizing last with
  | nil => exact keeps_pure admitted
  | cons statement rest ih =>
    have head := respects statement scope (runs _ List.mem_cons_self) enters
      (declares _ List.mem_cons_self)
    apply head.bind
    intro value given
    exact ih (fun other member => runs other (List.mem_cons_of_mem _ member))
      (fun other member => declares other (List.mem_cons_of_mem _ member)) given

theorem keeps_body (respects : policy.Respects eval) (inside : policy.Open scope)
    {statements : List Stmt} (runs : ∀ statement ∈ statements, policy.runs statement) :
    policy.Keeps (body eval scope statements) policy.Admits :=
  keeps_sequence respects inside.enters runs (fun _ _ name _ => inside.declares name) .null

theorem keeps_values (respects : policy.Respects eval) (enters : policy.enters scope)
    {arguments : List Expr} (runs : ∀ e ∈ arguments, policy.runs (.expr e)) :
    policy.Keeps (values eval scope arguments) fun given => ∀ value ∈ given, policy.Admits value := by
  induction arguments with
  | nil => exact keeps_pure (by simp)
  | cons e rest ih =>
    apply (respects.valueOf enters (runs _ List.mem_cons_self)).bind
    intro first admitted
    apply (ih fun other member => runs other (List.mem_cons_of_mem _ member)).bind
    intro others all
    apply keeps_pure
    intro value member
    rcases List.mem_cons.mp member with rfl | later
    · exact admitted
    · exact all value later

theorem keeps_condition (respects : policy.Respects eval) (enters : policy.enters scope) {e : Expr}
    (runs : policy.runs (.expr e)) (token : Token) :
    policy.Keeps (condition eval scope token e) fun _ => True := by
  apply (respects.valueOf enters runs).bind
  intro value _
  cases value with
  | boolean value => exact keeps_pure trivial
  | _ => exact keeps_failAt _ _

theorem keeps_optionalValue (respects : policy.Respects eval) (enters : policy.enters scope)
    {e : Expr} (runs : ∀ given ∈ e.present, policy.runs (.expr given)) :
    policy.Keeps (optionalValue eval scope e) policy.Admits := by
  cases e with
  | absent => exact keeps_pure .null
  | _ => exact respects.valueOf enters (runs _ (Expr.mem_present (by simp)))

theorem keeps_links (respects : policy.Respects eval) (inside : policy.Open scope)
    {chain : List (Guarded Stmt)}
    (runs : ∀ link ∈ chain, ∀ part ∈ Stmt.expr link.condition :: link.body, policy.runs part) :
    policy.Keeps (links eval scope chain) policy.Admits := by
  induction chain with
  | nil => exact keeps_pure .null
  | cons link rest ih =>
    have own := runs link List.mem_cons_self
    apply (keeps_condition respects inside.enters (own _ List.mem_cons_self) _).bind
    intro holds _
    cases holds with
    | true =>
      exact keeps_body respects inside fun part member => own part (List.mem_cons_of_mem _ member)
    | false => exact ih fun other member => runs other (List.mem_cons_of_mem _ member)

theorem keeps_rounds {round : Action Bool} (one : policy.Keeps round fun _ => True) (bound : Nat) :
    policy.Keeps (rounds round bound) fun _ => True := by
  induction bound with
  | zero => exact keeps_throw _
  | succ bound ih =>
    apply one.bind
    intro again _
    cases again with
    | true => exact ih
    | false => exact keeps_pure trivial

theorem keeps_round (respects : policy.Respects eval) (inside : policy.Open scope) {token : Token}
    {test step : Expr} {statements : List Stmt} (tests : policy.runs (.expr test))
    (steps : ∀ given ∈ step.present, policy.runs (.expr given))
    (runs : ∀ statement ∈ statements, policy.runs statement) :
    policy.Keeps (round eval scope token test step statements) fun _ => True := by
  apply (keeps_condition respects inside.enters tests token).bind
  intro holds _
  cases holds with
  | false => exact keeps_pure trivial
  | true =>
    apply (keeps_body respects inside runs).bind
    intro _ _
    apply (keeps_optionalValue respects inside.enters steps).bind
    intro _ _
    exact keeps_pure trivial

theorem keeps_loop (respects : policy.Respects eval) (inside : policy.Open scope) {token : Token}
    {test step : Expr} {statements : List Stmt} (tests : policy.runs (.expr test))
    (steps : ∀ given ∈ step.present, policy.runs (.expr given))
    (runs : ∀ statement ∈ statements, policy.runs statement) (bound : Nat) :
    policy.Keeps (loop eval bound scope token test step statements) policy.Admits := by
  apply (keeps_rounds (keeps_round respects inside tests steps runs) bound).bind
  intro _ _
  exact keeps_pure (.boolean false)

theorem keeps_propertyValue (respects : policy.Respects eval) (enters : policy.enters scope)
    {key : Ident} {e : Expr} (runs : ∀ given ∈ e.present, policy.runs (.expr given)) :
    policy.Keeps (propertyValue eval scope key e) policy.Admits := by
  cases e with
  | absent => exact keeps_lookup
  | _ => exact respects.valueOf enters (runs _ (Expr.mem_present (by simp)))

theorem not_mem_names_of_lookup {properties : List (Text × Value)} {name : Text}
    (unknown : ¬ (properties.lookup name).isSome = true) : name ∉ properties.map Prod.fst := by
  intro member
  obtain ⟨property, inside, rfl⟩ := List.mem_map.mp member
  rw [Option.not_isSome_iff_eq_none, List.lookup_eq_none_iff] at unknown
  simpa using unknown property inside

theorem keeps_properties (respects : policy.Respects eval) (enters : policy.enters scope)
    {known : List (Text × Value)} {entries : List (Ident × Expr)}
    (admitted : (known.map Prod.fst).Nodup ∧ ∀ property ∈ known, policy.Admits property.2)
    (runs : ∀ entry ∈ entries, ∀ given ∈ entry.2.present, policy.runs (.expr given)) :
    policy.Keeps (properties eval scope known entries) fun all =>
      (all.map Prod.fst).Nodup ∧ ∀ property ∈ all, policy.Admits property.2 := by
  induction entries generalizing known with
  | nil =>
    apply keeps_pure
    rw [List.map_reverse, List.nodup_reverse]
    exact ⟨admitted.1, fun property member => admitted.2 property (List.mem_reverse.mp member)⟩
  | cons entry rest ih =>
    rcases entry with ⟨key, e⟩
    apply (keeps_propertyValue respects enters (runs _ List.mem_cons_self)).bind
    intro value given
    split
    · exact keeps_failAt _ _
    · rename_i unknown
      refine ih ⟨?_, ?_⟩ fun other member => runs other (List.mem_cons_of_mem _ member)
      · exact List.nodup_cons.mpr ⟨not_mem_names_of_lookup unknown, admitted.1⟩
      · intro property member
        rcases List.mem_cons.mp member with rfl | old
        · exact given
        · exact admitted.2 property old

theorem keeps_binary (token : Token) (operator : Text) (left right : Value) :
    policy.Keeps (binary token operator left right) policy.Admits := by
  unfold binary
  split
  · split
    · exact keeps_pure (.boolean _)
    · exact keeps_failAt _ _
  · apply keeps_pure
    unfold Arithmetic.onValues
    split
    · exact .number _
    · exact .null

theorem keeps_unary (respects : policy.Respects eval) (enters : policy.enters scope) {token : Token}
    {operator : Text} {operand : Expr}
    (runs : ∀ given ∈ operand.present, policy.runs (.expr given)) :
    policy.Keeps (unary eval scope token operator operand) policy.Admits := by
  by_cases absent : operand = .absent
  · subst absent
    exact keeps_failAt _ _
  · rw [unary]
    · apply (respects.valueOf enters (runs _ (Expr.mem_present absent))).bind
      intro value _
      split
      · split
        · exact keeps_failAt _ _
        · split
          · exact keeps_assign enters (.number _)
          · exact keeps_pure (.number _)
      · exact keeps_failAt _ _
    · exact absent

theorem keeps_memberName (respects : policy.Respects eval) (enters : policy.enters scope)
    {token : Token} {key : Expr} {computed : Bool}
    (runs : computed = true → policy.runs (.expr key)) :
    policy.Keeps (memberName eval scope token key computed) fun _ => True := by
  cases computed with
  | true =>
    apply (respects.valueOf enters (runs rfl)).bind
    intro value _
    cases value with
    | string name => exact keeps_pure trivial
    | _ => exact keeps_failAt _ _
  | false =>
    cases key with
    | ident name => exact keeps_pure trivial
    | _ => exact keeps_failAt _ _

theorem keeps_member (respects : policy.Respects eval) (enters : policy.enters scope)
    {token : Token} {holder key : Expr} {computed : Bool} (holds : policy.runs (.expr holder))
    (runs : computed = true → policy.runs (.expr key)) :
    policy.Keeps (member eval scope token holder key computed) policy.Admits := by
  apply (respects.valueOf enters holds).bind
  intro value admitted
  cases admitted with
  | object _ all =>
    apply (keeps_memberName respects enters runs).bind
    intro name _
    split
    · rename_i value found
      obtain ⟨before, after, rfl, -⟩ := List.lookup_eq_some_iff.mp found
      exact keeps_pure (all (name, value) (by simp))
    · exact keeps_failAt _ _
  | _ => exact keeps_failAt _ _

theorem keeps_bindParameters {token : Token} (inside : policy.Open scope) {names : List Text}
    {given : List Value} (admitted : ∀ value ∈ given, policy.Admits value) :
    policy.Keeps (bindParameters scope token names given) fun _ => True := by
  induction names generalizing given with
  | nil => exact keeps_pure trivial
  | cons name names ih =>
    cases given with
    | nil => exact keeps_pure trivial
    | cons value rest =>
      have first := admitted value List.mem_cons_self
      apply (keeps_declare inside.enters (inside.declares name) first).bind
      intro _ _
      exact ih fun other member => admitted other (List.mem_cons_of_mem _ member)

theorem admits_timeValue (reading : Reading) (given : List Value) :
    policy.Admits (Native.timeValue reading given) := by
  have distinct : [utf8 "hour", utf8 "minute", utf8 "second", utf8 "milisecond", utf8 "millisecond",
      utf8 "microsecond", utf8 "day", utf8 "month", utf8 "year"].Nodup := by decide +kernel
  have moment : ∀ m, policy.Admits (Native.momentValue m) := by
    intro m
    refine .object (policy.shapes_distinct distinct) ?_
    intro property member
    simp only [List.mem_cons, List.not_mem_nil, or_false] at member
    rcases member with rfl | rfl | rfl | rfl | rfl | rfl | rfl | rfl | rfl <;> exact .number _
  unfold Native.timeValue
  split
  · exact moment _
  · split
    · exact moment _
    · exact .null
  · exact .null

theorem keeps_native (function : Native) (given : List Value) :
    policy.Keeps (function.apply given) policy.Admits := by
  cases function with
  | print => exact (keeps_print _).bind fun _ _ => keeps_pure .null
  | println => exact (keeps_print _).bind fun _ _ => keeps_pure .null
  | time => exact keeps_readClock.bind fun _ _ => keeps_pure (admits_timeValue _ _)
  | exit =>
    intro store ready
    exact keeps_throw (.halted (Native.haltOf store.machine given)) store ready

theorem keeps_apply (respects : policy.Respects eval) {token : Token} {callee : Value}
    {given : List Value} (callable : policy.Admits callee)
    (admitted : ∀ value ∈ given, policy.Admits value) :
    policy.Keeps (apply eval token callee given) policy.Admits := by
  cases callable with
  | native function => exact keeps_native function given
  | function runs enters =>
    -- body and scope come from the value, so it is the value that answers for them
    apply (keeps_enclosed enters).bind
    intro inside isOpen
    apply (keeps_bindParameters isOpen admitted).bind
    intro _ _
    exact keeps_body respects isOpen runs
  | _ => exact keeps_failAt _ _

theorem keeps_opening (respects : policy.Respects eval) (inside : policy.Open scope)
    {start : Option Declaration} (runs : ∀ d, start = some d → policy.runs (.declare d)) :
    policy.Keeps (opening eval scope start) policy.Admits := by
  cases start with
  | none => exact keeps_pure .null
  | some d => exact respects _ _ (runs d rfl) inside.enters fun name _ => inside.declares name

theorem keeps_expression (respects : policy.Respects eval) (enters : policy.enters scope) {e : Expr}
    (runs : ∀ part ∈ e.operands, policy.runs (.expr part)) :
    policy.Keeps (expression eval scope e) policy.Admits := by
  cases e with
  | absent => exact keeps_pure .null
  | ident name => exact keeps_lookup
  | number token value text => exact keeps_pure (.number value)
  | string token value => exact keeps_pure (.string value)
  | boolean token value => exact keeps_pure (.boolean value)
  | object token entries =>
    have each : ∀ entry ∈ entries, ∀ given ∈ entry.2.present, policy.runs (.expr given) :=
      fun entry member given present => runs given (List.mem_flatMap.mpr ⟨entry, member, present⟩)
    apply (keeps_properties respects enters (by simp) each).bind
    intro all admitted
    exact keeps_pure (.object (policy.shapes_distinct admitted.1) admitted.2)
  | assign token target e =>
    cases target with
    | ident name =>
      apply (respects.valueOf enters (runs e List.mem_cons_self)).bind
      intro value admitted
      exact keeps_assign enters admitted
    | _ => exact keeps_failAt _ _
  | binary token operator left right =>
    apply (respects.valueOf enters (runs left (by simp [Expr.operands]))).bind
    intro a _
    apply (respects.valueOf enters (runs right (by simp [Expr.operands]))).bind
    intro b _
    exact keeps_binary token operator a b
  | unary token operator operand => exact keeps_unary respects enters runs
  | call token callee arguments =>
    apply (respects.valueOf enters (runs callee List.mem_cons_self)).bind
    intro function callable
    apply (keeps_values respects enters
      fun e member => runs e (List.mem_cons_of_mem _ member)).bind
    intro given admitted
    exact keeps_apply respects callable admitted
  | member token holder key computed =>
    refine keeps_member respects enters (runs holder ?_) fun isComputed => runs key ?_
    · cases computed <;> simp [Expr.operands]
    · simp [Expr.operands, isComputed]

theorem keeps_rule (respects : policy.Respects eval) {statement : Stmt}
    (runs : policy.runs statement) (enters : policy.enters scope)
    (declares : ∀ name ∈ statement.declared, policy.declares scope.innermost name) (bound : Nat) :
    policy.Keeps (rule eval bound statement scope) policy.Admits := by
  have parts := policy.runs_parts runs
  cases statement with
  | expr e =>
    exact keeps_expression respects enters fun part member => parts _ (List.mem_map_of_mem member)
  | declare d =>
    apply (keeps_optionalValue respects enters
      fun given present => parts _ (List.mem_map_of_mem present)).bind
    intro value admitted
    exact keeps_declare enters (declares _ List.mem_cons_self) admitted
  | function token name parameters statements =>
    exact keeps_declare enters (declares _ List.mem_cons_self) (.function parts enters)
  | branch first others =>
    apply (keeps_enclosed enters).bind
    intro inside isOpen
    exact keeps_links respects isOpen
      fun link member part inLink => parts part (List.mem_flatMap.mpr ⟨link, member, inLink⟩)
  | whileLoop token test statements =>
    apply (keeps_enclosed enters).bind
    intro inside isOpen
    exact keeps_loop respects isOpen (parts _ List.mem_cons_self) (by simp [Expr.present])
      (fun part member => parts part (List.mem_cons_of_mem _ member)) bound
  | forLoop token start test step statements =>
    simp only [Stmt.parts, List.mem_append, List.mem_cons, List.mem_map] at parts
    apply (keeps_enclosed enters).bind
    intro inside isOpen
    apply (keeps_opening respects isOpen fun d given => parts _ (by simp [given])).bind
    intro _ _
    exact keeps_loop respects isOpen (parts _ (by simp))
      (fun given present => parts _ (by simp [present]))
      (fun part member => parts part (by simp [member])) bound

end Rules

theorem respects_eval (bound : Nat) : policy.Respects (Stmt.eval bound) := by
  induction bound with
  | zero =>
    intro statement scope _ _ _
    exact keeps_throw _
  | succ bound ih =>
    intro statement scope runs enters declares
    exact keeps_rule ih runs enters declares bound

/-- An evaluation of a node that is within a policy stays within it. -/
theorem keeps_eval {node : Node} {scope : Scope} (enters : policy.enters scope)
    (runs : ∀ statement ∈ node.statements, policy.runs statement)
    (declares : ∀ name ∈ node.declared, policy.declares scope.innermost name) (bound : Nat) :
    policy.Keeps (node.eval bound scope) policy.Admits := by
  cases node with
  | program statements =>
    refine keeps_sequence (respects_eval bound) enters runs ?_ .null
    intro statement member name declared
    exact declares name (List.mem_flatMap.mpr ⟨statement, member, declared⟩)
  | statement single =>
    refine respects_eval bound single scope (runs single List.mem_cons_self) enters ?_
    intro name declared
    exact declares name (List.mem_flatMap.mpr ⟨single, List.mem_cons_self, declared⟩)

/-- A policy that restricts neither statements nor scopes nor objects admits every value. -/
theorem admits_all (runs : ∀ statement, policy.runs statement)
    (enters : ∀ scope, policy.enters scope) (shapes : ∀ names, policy.shapes names) (value : Value) :
    policy.Admits value := by
  induction value using Value.byParts with
  | null => exact .null
  | boolean b => exact .boolean b
  | number x => exact .number x
  | string text => exact .string text
  | function name parameters body scope =>
    exact .function (fun statement _ => runs statement) (enters scope)
  | native which => exact .native which
  | object properties inside => exact .object (shapes _) inside

end Policy

end Scriptlet
