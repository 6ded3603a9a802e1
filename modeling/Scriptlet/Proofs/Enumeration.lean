import Mathlib.Data.List.Forall2
import Scriptlet.Proofs.Outcome
import Scriptlet.Proofs.Reordering
/-!
Enumeration. Whenever evaluation goes through all bindings of a frame or all properties of an object it
may meet them in any order, and in another one each time. An evaluation may so go many ways, but what
can be seen of it is the same on each.
-/
namespace Scriptlet

/-- The second store keeps the bindings of each frame in another order. -/
structure Store.Rearranged (store other : Store) : Prop where
  frames : store.frames.Rearranged other.frames
  printed : store.printed = other.printed
  machine : store.machine = other.machine

namespace Action

open Eval

variable {α β : Type}

/-- The ends of an action that are possible. The bindings of every frame may change their order at
any point, and what goes through the properties of objects, which are the native functions and the
operators, may meet them in any order. -/
inductive Possible : {α : Type} → Action α → Store → Except Stop α × Store → Prop
  | pure {α : Type} (value : α) (store : Store) : Possible (pure value) store (.ok value, store)
  | throw {α : Type} (stop : Stop) (store : Store) :
      Possible (throw stop : Action α) store (.error stop, store)
  | goOn {α β : Type} {action : Action α} {next : α → Action β} {store between : Store} {value : α}
      {ended : Except Stop β × Store} (first : Possible action store (.ok value, between))
      (second : Possible (next value) between ended) : Possible (action >>= next) store ended
  | stop {α β : Type} {action : Action α} {next : α → Action β} {store after : Store} {stop : Stop}
      (first : Possible action store (.error stop, after)) :
      Possible (action >>= next) store (.error stop, after)
  | rearrange {α : Type} {action : Action α} {store other : Store} {ended : Except Stop α × Store}
      (rearranged : store.Rearranged other) (possible : Possible action other ended) :
      Possible action store ended
  | lookup (scope : Scope) (name : Text) (token : Token) (store : Store) :
      Possible (lookup scope name token) store ((lookup scope name token).outcome store)
  | declare (scope : Scope) (name : Text) (value : Value) (constant : Bool) (token : Token)
      (store : Store) :
      Possible (declare scope name value constant token) store
        ((declare scope name value constant token).outcome store)
  | assign (scope : Scope) (name : Text) (value : Value) (token : Token) (store : Store) :
      Possible (assign scope name value token) store ((assign scope name value token).outcome store)
  | enclosed (scope : Scope) (store : Store) :
      Possible (enclosed scope) store ((enclosed scope).outcome store)
  | native {given met : List Value} (function : Native) (store : Store)
      (rearranged : List.Forall₂ Value.Rearranged given met) :
      Possible (function.apply given) store ((function.apply met).outcome store)
  | binary {left right leftMet rightMet : Value} (token : Token) (operator : Text) (store : Store)
      (first : left.Rearranged leftMet) (second : right.Rearranged rightMet) :
      Possible (binary token operator left right) store
        ((binary token operator leftMet rightMet).outcome store)

end Action

namespace Store.Rearranged

variable {store other third : Store}

theorem symm (same : store.Rearranged other) : other.Rearranged store :=
  ⟨same.frames.symm, same.printed.symm, same.machine.symm⟩

theorem trans (first : store.Rearranged other) (second : other.Rearranged third) :
    store.Rearranged third :=
  ⟨first.frames.trans second.frames, first.printed.trans second.printed,
    first.machine.trans second.machine⟩

end Store.Rearranged

namespace Action

open Eval

variable {α β : Type}

/-- Two ends with the same result, in stores that differ in orders only. -/
def SameEnd (ended other : Except Stop α × Store) : Prop :=
  ended.1 = other.1 ∧ ended.2.Rearranged other.2

/-- Stores that differ in orders only make no difference to an action. -/
def Unordered (action : Action α) : Prop :=
  ∀ {store other : Store}, store.Rearranged other →
    SameEnd (action.outcome store) (action.outcome other)

theorem unordered_lookup (scope : Scope) (name : Text) (token : Token) :
    (lookup scope name token).Unordered := by
  intro store other same
  rw [outcome_lookup, outcome_lookup, same.frames.lookup_eq]
  cases other.frames.lookup scope name <;> exact ⟨rfl, same⟩

theorem unordered_declare (scope : Scope) (name : Text) (value : Value) (constant : Bool)
    (token : Token) : (declare scope name value constant token).Unordered := by
  intro store other same
  rw [outcome_declare, outcome_declare, same.frames.declarationFault?_eq]
  cases other.frames.declarationFault? scope name with
  | some fault => exact ⟨rfl, same⟩
  | none => exact ⟨rfl, { same with frames := same.frames.bind scope name value constant }⟩

theorem unordered_assign (scope : Scope) (name : Text) (value : Value) (token : Token) :
    (assign scope name value token).Unordered := by
  intro store other same
  rw [outcome_assign, outcome_assign, same.frames.assignmentFault?_eq]
  cases other.frames.assignmentFault? scope name with
  | some fault => exact ⟨rfl, same⟩
  | none => exact ⟨rfl, { same with frames := same.frames.rebind scope name value }⟩

theorem unordered_enclosed (scope : Scope) : (enclosed scope).Unordered := by
  intro store other same
  rw [outcome_enclosed, outcome_enclosed, same.frames.size]
  exact ⟨rfl, { same with frames := same.frames.grow }⟩

theorem unordered_native (function : Native) (given : List Value) :
    (function.apply given).Unordered := by
  intro store other same
  cases function with
  | print | println => exact ⟨rfl, { same with printed := congrArg (_ :: ·) same.printed }⟩
  | time =>
    rw [outcome_time, outcome_time, same.machine]
    exact ⟨rfl, { same with machine := rfl }⟩
  | exit =>
    rw [outcome_exit, outcome_exit, same.machine]
    exact ⟨rfl, same⟩

theorem unordered_binary (token : Token) (operator : Text) (left right : Value) :
    (binary token operator left right).Unordered := by
  intro store other same
  unfold binary
  split
  · split <;> exact ⟨rfl, same⟩
  · exact ⟨rfl, same⟩

end Action

namespace Value

variable {value other left right : Value} {given met : List Value}

theorem map_inspect_eq (rearranged : List.Forall₂ Rearranged given met) :
    given.map inspect = met.map inspect := by
  induction rearranged with
  | nil => rfl
  | cons first _ ih => rw [List.map_cons, List.map_cons, first.inspect_eq, ih]

theorem haltOf_eq (machine : Machine) (rearranged : List.Forall₂ Rearranged given met) :
    Native.haltOf machine given = Native.haltOf machine met := by
  cases rearranged with
  | nil => rfl
  | @cons code met₁ rest others first later =>
    have texts := congrArg List.head? (map_inspect_eq later)
    rw [List.head?_map, List.head?_map] at texts
    rcases first.eq_or_objects with rfl | ⟨⟨_, rfl⟩, _, rfl⟩
    · cases code with
      | number code => rw [Native.haltOf, Native.haltOf, texts]
      | _ => rfl
    · rfl

theorem timeValue_eq (reading : Reading) (rearranged : List.Forall₂ Rearranged given met) :
    Native.timeValue reading given = Native.timeValue reading met := by
  cases rearranged with
  | nil => rfl
  | cons first later =>
    rcases first.eq_or_objects with rfl | ⟨⟨_, rfl⟩, _, rfl⟩
    · cases ‹Value› <;> rfl
    · rfl

theorem native_eq (function : Native) (rearranged : List.Forall₂ Rearranged given met) :
    function.apply given = function.apply met := by
  cases function with
  | print | println => rw [Native.apply, Native.apply, map_inspect_eq rearranged]
  | time => simp only [Native.apply, timeValue_eq _ rearranged]
  | exit => simp only [Native.apply, haltOf_eq _ rearranged]

theorem onValues?_eq (operator : Text) (first : value.Rearranged left)
    (second : other.Rearranged right) :
    Comparison.onValues? operator value other = Comparison.onValues? operator left right := by
  unfold Comparison.onValues?
  rw [first.equal_eq second, first.inspect_eq, second.inspect_eq]
  rcases first.eq_or_objects with rfl | ⟨⟨_, rfl⟩, _, rfl⟩
  · rcases second.eq_or_objects with rfl | ⟨⟨_, rfl⟩, _, rfl⟩
    · rfl
    · cases value <;> rfl
  · rcases second.eq_or_objects with rfl | ⟨⟨_, rfl⟩, _, rfl⟩
    · cases other <;> rfl
    · rfl

theorem arithmetic_eq (operator : Text) (first : value.Rearranged left)
    (second : other.Rearranged right) :
    Arithmetic.onValues operator value other = Arithmetic.onValues operator left right := by
  unfold Arithmetic.onValues
  rcases first.eq_or_objects with rfl | ⟨⟨_, rfl⟩, _, rfl⟩
  · rcases second.eq_or_objects with rfl | ⟨⟨_, rfl⟩, _, rfl⟩
    · rfl
    · cases Arithmetic.ofText? operator <;> cases value <;> rfl
  · cases Arithmetic.ofText? operator <;> rfl

theorem binary_eq (token : Token) (operator : Text) (first : value.Rearranged left)
    (second : other.Rearranged right) :
    Eval.binary token operator value other = Eval.binary token operator left right := by
  unfold Eval.binary
  rw [onValues?_eq operator first second, arithmetic_eq operator first second,
    Comparison.unsupported, Comparison.unsupported, first.typeName_eq, second.typeName_eq]

end Value

namespace Action

open Eval

variable {α β : Type}

/-- However an action goes, it ends as it does from a store in another order. -/
theorem Possible.sameEnd {action : Action α} {store start : Store} {ended : Except Stop α × Store}
    (possible : action.Possible store ended) (same : store.Rearranged start) :
    SameEnd ended (action.outcome start) := by
  induction possible generalizing start with
  | pure | throw => exact ⟨rfl, same⟩
  | @goOn _ _ action next _ _ _ ended _ _ ihFirst ihSecond =>
    obtain ⟨gives, left⟩ := ihFirst same
    rw [outcome_bind]
    rcases there : action.outcome start with ⟨result, after⟩
    rw [there] at gives left
    subst gives
    exact ihSecond left
  | @stop _ _ action next _ _ _ _ ih =>
    obtain ⟨stops, left⟩ := ih same
    rw [outcome_bind]
    rcases there : action.outcome start with ⟨result, after⟩
    rw [there] at stops left
    subst stops
    exact ⟨rfl, left⟩
  | rearrange rearranged _ ih => exact ih (rearranged.symm.trans same)
  | lookup scope name token => exact unordered_lookup scope name token same
  | declare scope name value constant token =>
    exact unordered_declare scope name value constant token same
  | assign scope name value token => exact unordered_assign scope name value token same
  | enclosed scope => exact unordered_enclosed scope same
  | native function _ rearranged =>
    rw [← Value.native_eq function rearranged]
    exact unordered_native function _ same
  | binary token operator _ first second =>
    rw [← Value.binary_eq token operator first second]
    exact unordered_binary token operator _ _ same

/-- The end that an action has is one of those that are possible. -/
def Orderly (action : Action α) : Prop := ∀ store, action.Possible store (action.outcome store)

theorem orderly_pure (value : α) : (pure value : Action α).Orderly := Possible.pure value

theorem orderly_failAt (token : Token) (fault : Diagnostic) :
    (failAt token fault : Action α).Orderly :=
  fun store => .throw _ store

theorem Orderly.bind {action : Action α} {next : α → Action β} (first : action.Orderly)
    (second : ∀ value, (next value).Orderly) : (action >>= next).Orderly := by
  intro store
  have possible := first store
  rcases action.gives_or_stops store with ⟨value, between, gives⟩ | ⟨stop, after, stops⟩
  · rw [gives.bind next]
    rw [gives] at possible
    exact possible.goOn (second value between)
  · rw [stops.bind next]
    rw [stops] at possible
    exact possible.stop

theorem orderly_native (function : Native) (given : List Value) : (function.apply given).Orderly :=
  fun store => .native function store (List.forall₂_same.mpr fun _ _ => .refl)

theorem orderly_binary (token : Token) (operator : Text) (left right : Value) :
    (binary token operator left right).Orderly :=
  fun store => .binary token operator store .refl .refl

end Action

namespace Eval

open Scriptlet.Action

def Orderly (eval : Evaluation) : Prop := ∀ statement scope, (eval statement scope).Orderly

section Rules
variable {eval : Evaluation} (orderly : Orderly eval) (scope : Scope)
include orderly

theorem orderly_sequence (last : Value) (statements : List Stmt) :
    (sequence eval scope last statements).Orderly := by
  induction statements generalizing last with
  | nil => exact orderly_pure _
  | cons statement rest ih => exact (orderly statement scope).bind ih

theorem orderly_body (statements : List Stmt) : (body eval scope statements).Orderly :=
  orderly_sequence orderly scope .null statements

theorem orderly_values (arguments : List Expr) : (values eval scope arguments).Orderly := by
  induction arguments with
  | nil => exact orderly_pure _
  | cons e rest ih =>
    apply Action.Orderly.bind (orderly (.expr e) scope)
    intro first
    apply ih.bind
    intro others
    exact orderly_pure _

theorem orderly_condition (token : Token) (e : Expr) :
    (condition eval scope token e).Orderly := by
  apply Action.Orderly.bind (orderly (.expr e) scope)
  intro value
  cases value with
  | boolean value => exact orderly_pure _
  | _ => exact orderly_failAt token _

theorem orderly_optionalValue (e : Expr) : (optionalValue eval scope e).Orderly := by
  cases e with
  | absent => exact orderly_pure _
  | _ => exact orderly (.expr _) scope

theorem orderly_declaration (d : Declaration) : (declaration eval scope d).Orderly := by
  apply (orderly_optionalValue orderly scope d.value).bind
  intro value
  exact Possible.declare scope _ value _ _

theorem orderly_links (chain : List (Guarded Stmt)) : (links eval scope chain).Orderly := by
  induction chain with
  | nil => exact orderly_pure _
  | cons link rest ih =>
    apply (orderly_condition orderly scope link.token link.condition).bind
    intro holds
    cases holds with
    | true => exact orderly_body orderly scope link.body
    | false => exact ih

theorem orderly_round (token : Token) (test step : Expr) (statements : List Stmt) :
    (round eval scope token test step statements).Orderly := by
  apply (orderly_condition orderly scope token test).bind
  intro holds
  cases holds with
  | false => exact orderly_pure _
  | true =>
    apply (orderly_body orderly scope statements).bind
    intro _
    apply (orderly_optionalValue orderly scope step).bind
    intro _
    exact orderly_pure _

omit orderly in
theorem orderly_rounds {each : Action Bool} (orderly : each.Orderly) (bound : Nat) :
    (rounds each bound).Orderly := by
  induction bound with
  | zero => exact Possible.throw .exhausted
  | succ bound ih =>
    apply orderly.bind
    intro again
    cases again with
    | true => exact ih
    | false => exact orderly_pure _

theorem orderly_loop (bound : Nat) (token : Token) (test step : Expr) (statements : List Stmt) :
    (loop eval bound scope token test step statements).Orderly := by
  apply (orderly_rounds (orderly_round orderly scope token test step statements) bound).bind
  intro _
  exact orderly_pure _

theorem orderly_opening (start : Option Declaration) : (opening eval scope start).Orderly := by
  cases start with
  | none => exact orderly_pure _
  | some d => exact orderly (.declare d) scope

theorem orderly_propertyValue (key : Ident) (e : Expr) :
    (propertyValue eval scope key e).Orderly := by
  cases e with
  | absent => exact Possible.lookup scope key.text key.token
  | _ => exact orderly (.expr _) scope

theorem orderly_properties (known : List (Text × Value)) (entries : List (Ident × Expr)) :
    (properties eval scope known entries).Orderly := by
  induction entries generalizing known with
  | nil => exact orderly_pure _
  | cons entry rest ih =>
    obtain ⟨key, e⟩ := entry
    apply (orderly_propertyValue orderly scope key e).bind
    intro value
    split
    · exact orderly_failAt key.token _
    · exact ih ((key.text, value) :: known)

theorem orderly_assignment (token : Token) (target e : Expr) :
    (assignment eval scope token target e).Orderly := by
  cases target with
  | ident name =>
    apply Action.Orderly.bind (orderly (.expr e) scope)
    intro value
    exact Possible.assign scope name.text value name.token
  | _ => exact orderly_failAt token _

theorem orderly_unary (token : Token) (operator : Text) (operand : Expr) :
    (unary eval scope token operator operand).Orderly := by
  cases operand with
  | absent => exact orderly_failAt token _
  | _ =>
    apply Action.Orderly.bind (orderly (.expr _) scope)
    intro value
    cases value with
    | number value =>
      dsimp only
      split
      · exact orderly_failAt token _
      · first
          | exact Possible.assign scope _ _ _
          | exact orderly_pure _
    | _ => exact orderly_failAt token _

theorem orderly_memberName (token : Token) (key : Expr) (computed : Bool) :
    (memberName eval scope token key computed).Orderly := by
  cases computed with
  | true =>
    apply Action.Orderly.bind (orderly (.expr key) scope)
    intro value
    cases value with
    | string name => exact orderly_pure _
    | _ => exact orderly_failAt token _
  | false =>
    cases key with
    | ident name => exact orderly_pure _
    | _ => exact orderly_failAt token _

theorem orderly_member (token : Token) (holder key : Expr) (computed : Bool) :
    (member eval scope token holder key computed).Orderly := by
  apply Action.Orderly.bind (orderly (.expr holder) scope)
  intro value
  cases value with
  | object properties =>
    apply (orderly_memberName orderly scope token key computed).bind
    intro name
    cases properties.lookup name with
    | some value => exact orderly_pure _
    | none => exact orderly_failAt token _
  | _ => exact orderly_failAt token _

omit orderly in
theorem orderly_bindParameters (token : Token) (names : List Text) (given : List Value) :
    (bindParameters scope token names given).Orderly := by
  induction names generalizing given with
  | nil => exact orderly_pure _
  | cons name names ih =>
    cases given with
    | nil => exact orderly_pure _
    | cons value rest =>
      apply Action.Orderly.bind (Possible.declare scope name value false token)
      intro _
      exact ih rest

omit scope in
theorem orderly_apply (token : Token) (callee : Value) (given : List Value) :
    (apply eval token callee given).Orderly := by
  cases callee with
  | native function => exact orderly_native function given
  | function name parameters statements closure =>
    apply Action.Orderly.bind (Possible.enclosed closure)
    intro inside
    apply (orderly_bindParameters inside token parameters given).bind
    intro _
    exact orderly_body orderly inside statements
  | _ => exact orderly_failAt token _

theorem orderly_expression (e : Expr) : (expression eval scope e).Orderly := by
  cases e with
  | absent | number | string | boolean => exact orderly_pure _
  | ident name => exact Possible.lookup scope name.text name.token
  | object token entries =>
    apply (orderly_properties orderly scope [] entries).bind
    intro all
    exact orderly_pure _
  | assign token target e => exact orderly_assignment orderly scope token target e
  | binary token operator left right =>
    apply Action.Orderly.bind (orderly (.expr left) scope)
    intro a
    apply Action.Orderly.bind (orderly (.expr right) scope)
    intro b
    exact orderly_binary token operator a b
  | unary token operator operand => exact orderly_unary orderly scope token operator operand
  | call token callee arguments =>
    apply Action.Orderly.bind (orderly (.expr callee) scope)
    intro function
    apply (orderly_values orderly scope arguments).bind
    intro given
    exact orderly_apply orderly token function given
  | member token holder key computed => exact orderly_member orderly scope token holder key computed

theorem orderly_rule (bound : Nat) (statement : Stmt) :
    (rule eval bound statement scope).Orderly := by
  cases statement with
  | expr e => exact orderly_expression orderly scope e
  | declare d => exact orderly_declaration orderly scope d
  | function token name parameters statements =>
    exact Possible.declare scope name.text (.function ..) true name.token
  | branch first others =>
    apply Action.Orderly.bind (Possible.enclosed scope)
    intro inside
    exact orderly_links orderly inside (first :: others)
  | whileLoop token test statements =>
    apply Action.Orderly.bind (Possible.enclosed scope)
    intro inside
    exact orderly_loop orderly inside bound token test .absent statements
  | forLoop token start test step statements =>
    apply Action.Orderly.bind (Possible.enclosed scope)
    intro inside
    apply (orderly_opening orderly inside start).bind
    intro _
    exact orderly_loop orderly inside bound token test step statements

end Rules

end Eval

theorem Stmt.orderly_eval (bound : Nat) : Eval.Orderly (Stmt.eval bound) := by
  induction bound with
  | zero => exact fun _ _ => Action.Possible.throw .exhausted
  | succ bound ih => exact fun statement scope => Eval.orderly_rule ih scope bound statement

theorem Program.orderly_eval (bound : Nat) (program : Program) (scope : Scope) :
    (program.eval bound scope).Orderly :=
  Eval.orderly_body (Stmt.orderly_eval bound) scope program

end Scriptlet
