import Mathlib.Logic.Relation
import Scriptlet.Interpreter
import Scriptlet.Proofs.Outcome
/-!
The evaluations that an evaluation performs. `Performs` names every place where a rule asks for the
evaluation of a part, and when it comes to that. The list is complete: a rule depends on the
evaluation of parts at these places only. A stop at any of them is the stop of the whole, with the
store as the part left it; so a value of the whole means that all its parts gave values.
-/
namespace Scriptlet.Eval

open Scriptlet.Action

/-- A statement to be evaluated, its scope, and the store at that time. -/
structure Request where
  statement : Stmt
  scope : Scope
  store : Store

def Request.outcome (request : Request) (eval : Evaluation) : Except Stop Value × Store :=
  (eval request.statement request.scope).outcome request.store

section Places
variable (eval : Evaluation)

/-- A statement of a sequence, when those before it gave values. -/
inductive InSequence (scope : Scope) : List Stmt → Store → Request → Prop where
  | head {statement rest store} : InSequence scope (statement :: rest) store ⟨statement, scope, store⟩
  | tail {statement rest store value after request} :
      (eval statement scope).Gives store value after → InSequence scope rest after request →
        InSequence scope (statement :: rest) store request

/-- A property value that is not left out, when the properties before it could be added. -/
inductive InProperties (scope : Scope) :
    List (Text × Value) → List (Ident × Expr) → Store → Request → Prop where
  | value {known key e rest store} :
      e ≠ .absent → InProperties scope known ((key, e) :: rest) store ⟨.expr e, scope, store⟩
  | later {known key e rest store value after request} :
      (propertyValue eval scope key e).Gives store value after → known.lookup key.text = none →
        InProperties scope ((key.text, value) :: known) rest after request →
          InProperties scope known ((key, e) :: rest) store request

/-- The condition of a link when those before it did not hold, and a statement of its body when it
holds. -/
inductive InLinks (scope : Scope) : List (Guarded Stmt) → Store → Request → Prop where
  | condition {link rest store} :
      InLinks scope (link :: rest) store ⟨.expr link.condition, scope, store⟩
  | body {link rest store after request} :
      (condition eval scope link.token link.condition).Gives store true after →
        InSequence eval scope link.body after request →
          InLinks scope (link :: rest) store request
  | later {link rest store after request} :
      (condition eval scope link.token link.condition).Gives store false after →
        InLinks scope rest after request → InLinks scope (link :: rest) store request

/-- The condition of a loop, then a statement of its body, then its step, in the rounds that the
bound allows. -/
inductive InRounds (scope : Scope) (token : Token) (test step : Expr) (statements : List Stmt) :
    Nat → Store → Request → Prop where
  | condition {bound store} :
      InRounds scope token test step statements (bound + 1) store ⟨.expr test, scope, store⟩
  | body {bound store after request} :
      (condition eval scope token test).Gives store true after →
        InSequence eval scope statements after request →
          InRounds scope token test step statements (bound + 1) store request
  | step {bound store held value after} :
      (condition eval scope token test).Gives store true held →
        (body eval scope statements).Gives held value after → step ≠ .absent →
          InRounds scope token test step statements (bound + 1) store ⟨.expr step, scope, after⟩
  | again {bound store after request} :
      (round eval scope token test step statements).Gives store true after →
        InRounds scope token test step statements bound after request →
          InRounds scope token test step statements (bound + 1) store request

/-- The requests that the rule for a statement makes, one constructor for each place. -/
inductive Performs (bound : Nat) : Stmt → Scope → Store → Request → Prop where
  | initializer {d scope store} :
      d.value ≠ .absent → Performs bound (.declare d) scope store ⟨.expr d.value, scope, store⟩
  | link {first others scope store inside opened request} :
      (enclosed scope).Gives store inside opened →
        InLinks eval inside (first :: others) opened request →
          Performs bound (.branch first others) scope store request
  | whileRound {token test statements scope store inside opened request} :
      (enclosed scope).Gives store inside opened →
        InRounds eval inside token test .absent statements bound opened request →
          Performs bound (.whileLoop token test statements) scope store request
  | forStart {token d test step statements scope store inside opened} :
      (enclosed scope).Gives store inside opened →
        Performs bound (.forLoop token (some d) test step statements) scope store
          ⟨.declare d, inside, opened⟩
  | forRound {token start test step statements scope store inside opened value started request} :
      (enclosed scope).Gives store inside opened →
        (opening eval inside start).Gives opened value started →
          InRounds eval inside token test step statements bound started request →
            Performs bound (.forLoop token start test step statements) scope store request
  | property {token entries scope store request} :
      InProperties eval scope [] entries store request →
        Performs bound (.expr (.object token entries)) scope store request
  | assigned {token name e scope store} :
      Performs bound (.expr (.assign token (.ident name) e)) scope store ⟨.expr e, scope, store⟩
  | left {token operator left right scope store} :
      Performs bound (.expr (.binary token operator left right)) scope store
        ⟨.expr left, scope, store⟩
  | right {token operator left right scope store value after} :
      (valueOf eval left scope).Gives store value after →
        Performs bound (.expr (.binary token operator left right)) scope store
          ⟨.expr right, scope, after⟩
  | operand {token operator operand scope store} :
      operand ≠ .absent →
        Performs bound (.expr (.unary token operator operand)) scope store
          ⟨.expr operand, scope, store⟩
  | callee {token callee arguments scope store} :
      Performs bound (.expr (.call token callee arguments)) scope store ⟨.expr callee, scope, store⟩
  | argument {token callee arguments scope store function after request} :
      (valueOf eval callee scope).Gives store function after →
        InSequence eval scope (arguments.map .expr) after request →
          Performs bound (.expr (.call token callee arguments)) scope store request
  | called {token callee arguments scope store name parameters statements closure reached given
        passed inside opened entered request} :
      (valueOf eval callee scope).Gives store (.function name parameters statements closure) reached →
        (values eval scope arguments).Gives reached given passed →
          (enclosed closure).Gives passed inside opened →
            (bindParameters inside token parameters given).Gives opened () entered →
              InSequence eval inside statements entered request →
                Performs bound (.expr (.call token callee arguments)) scope store request
  | object {token object property computed scope store} :
      Performs bound (.expr (.member token object property computed)) scope store
        ⟨.expr object, scope, store⟩
  | key {token object property scope store properties after} :
      (valueOf eval object scope).Gives store (.object properties) after →
        Performs bound (.expr (.member token object property true)) scope store
          ⟨.expr property, scope, after⟩

end Places

section Unwinding
variable {eval : Evaluation} {scope : Scope} {store after : Store} {request : Request} {stop : Stop}

theorem optionalValue_of_present {e : Expr} (present : e ≠ .absent) :
    optionalValue eval scope e = valueOf eval e scope := by
  cases e <;> first | rfl | contradiction

theorem propertyValue_of_present {e : Expr} (present : e ≠ .absent) (key : Ident) :
    propertyValue eval scope key e = valueOf eval e scope := by
  cases e <;> first | rfl | contradiction

theorem sequence_stops {statements : List Stmt}
    (performed : InSequence eval scope statements store request)
    (stops : request.outcome eval = (.error stop, after)) (last : Value) :
    (sequence eval scope last statements).Stops store stop after := by
  induction performed generalizing last with
  | head => exact Stops.bind stops _
  | tail gives _ ih => exact (gives.bind _).trans (ih stops _)

theorem values_stops {arguments : List Expr}
    (performed : InSequence eval scope (arguments.map .expr) store request)
    (stops : request.outcome eval = (.error stop, after)) :
    (values eval scope arguments).Stops store stop after := by
  induction arguments generalizing store with
  | nil => cases performed
  | cons e rest ih =>
    cases performed with
    | head => exact Stops.bind stops _
    | tail gives later => exact (gives.bind _).trans ((ih later).bind _)

theorem condition_stops {e : Expr} (stops : (valueOf eval e scope).Stops store stop after)
    (token : Token) : (condition eval scope token e).Stops store stop after :=
  stops.bind _

theorem optionalValue_stops {e : Expr} (present : e ≠ .absent)
    (stops : (valueOf eval e scope).Stops store stop after) :
    (optionalValue eval scope e).Stops store stop after := by
  rw [optionalValue_of_present present]
  exact stops

theorem memberName_stops {e : Expr} (stops : (valueOf eval e scope).Stops store stop after)
    (token : Token) : (memberName eval scope token e true).Stops store stop after :=
  stops.bind _

theorem properties_stops {known : List (Text × Value)} {entries : List (Ident × Expr)}
    (performed : InProperties eval scope known entries store request)
    (stops : request.outcome eval = (.error stop, after)) :
    (properties eval scope known entries).Stops store stop after := by
  induction performed with
  | value present =>
    rw [properties, propertyValue_of_present present]
    exact Stops.bind stops _
  | later gives new _ ih =>
    rw [properties, Stops, gives.bind, new]
    exact ih stops

theorem links_stops {chain : List (Guarded Stmt)} (performed : InLinks eval scope chain store request)
    (stops : request.outcome eval = (.error stop, after)) :
    (links eval scope chain).Stops store stop after := by
  induction performed with
  | condition => exact (condition_stops stops _).bind _
  | body holds inside => exact (holds.bind _).trans (sequence_stops inside stops _)
  | later fails _ ih => exact (fails.bind _).trans (ih stops)

theorem rounds_stops {bound : Nat} {token : Token} {test step : Expr} {statements : List Stmt}
    (performed : InRounds eval scope token test step statements bound store request)
    (stops : request.outcome eval = (.error stop, after)) :
    (rounds (round eval scope token test step statements) bound).Stops store stop after := by
  induction performed with
  | condition => exact ((condition_stops stops _).bind _).bind _
  | body holds inside =>
    have ends : (round eval scope token test step statements).Stops _ stop after :=
      (holds.bind _).trans ((sequence_stops inside stops _).bind _)
    exact ends.bind _
  | step holds ran present =>
    have ends : (round eval scope token test step statements).Stops _ stop after :=
      (holds.bind _).trans ((ran.bind _).trans ((optionalValue_stops present stops).bind _))
    exact ends.bind _
  | again gives _ ih => exact (gives.bind _).trans (ih stops)

/-- A stop of a part is the stop of the rule, and nothing happens to the store in between. -/
theorem rule_stops {bound : Nat} {statement : Stmt}
    (performed : Performs eval bound statement scope store request)
    (stops : request.outcome eval = (.error stop, after)) :
    (rule eval bound statement scope).Stops store stop after := by
  cases performed with
  | initializer present =>
    rw [rule, declaration, optionalValue_of_present present]
    exact Stops.bind stops _
  | link opened inside => exact (opened.bind _).trans (links_stops inside stops)
  | whileRound opened inside => exact (opened.bind _).trans ((rounds_stops inside stops).bind _)
  | forStart opened => exact (opened.bind _).trans (Stops.bind stops _)
  | forRound opened started inside =>
    exact (opened.bind _).trans ((started.bind _).trans ((rounds_stops inside stops).bind _))
  | property inside => exact (properties_stops inside stops).bind _
  | assigned => exact Stops.bind stops _
  | left => exact Stops.bind stops _
  | right gives => exact (gives.bind _).trans (Stops.bind stops _)
  | @operand _ _ operand _ _ present =>
    cases operand with
    | absent => contradiction
    | _ => exact Stops.bind stops _
  | callee => exact Stops.bind stops _
  | argument gives inside => exact (gives.bind _).trans ((values_stops inside stops).bind _)
  | called reached passed opened entered inside =>
    exact (reached.bind _).trans ((passed.bind _).trans ((opened.bind _).trans
      ((entered.bind _).trans (sequence_stops inside stops _))))
  | object => exact Stops.bind stops _
  | key gives => exact (gives.bind _).trans ((memberName_stops stops _).bind _)

end Unwinding

section Agreement
variable {eval other : Evaluation} {scope : Scope} {store : Store}

theorem sequence_congr {statements : List Stmt}
    (agree : ∀ request, InSequence eval scope statements store request →
      request.outcome other = request.outcome eval) (last : Value) :
    (sequence other scope last statements).outcome store =
      (sequence eval scope last statements).outcome store := by
  induction statements generalizing store last with
  | nil => rfl
  | cons statement rest ih =>
    apply outcome_bind_congr (agree _ .head)
    intro value after gives
    exact ih (fun request later => agree request (.tail gives later)) value

theorem values_congr {arguments : List Expr}
    (agree : ∀ request, InSequence eval scope (arguments.map .expr) store request →
      request.outcome other = request.outcome eval) :
    (values other scope arguments).outcome store = (values eval scope arguments).outcome store := by
  induction arguments generalizing store with
  | nil => rfl
  | cons e rest ih =>
    apply outcome_bind_congr (agree _ .head)
    intro value after gives
    apply outcome_bind_congr (ih fun request later => agree request (.tail gives later))
    intros
    rfl

theorem condition_congr {e : Expr}
    (agree : (valueOf other e scope).outcome store = (valueOf eval e scope).outcome store)
    (token : Token) :
    (condition other scope token e).outcome store =
      (condition eval scope token e).outcome store :=
  outcome_bind_congr agree fun _ _ _ => rfl

theorem optionalValue_congr {e : Expr}
    (agree : e ≠ .absent →
      (valueOf other e scope).outcome store = (valueOf eval e scope).outcome store) :
    (optionalValue other scope e).outcome store = (optionalValue eval scope e).outcome store := by
  by_cases present : e = .absent
  · subst present
    rfl
  · rw [optionalValue_of_present present, optionalValue_of_present present]
    exact agree present

theorem properties_congr {known : List (Text × Value)} {entries : List (Ident × Expr)}
    (agree : ∀ request, InProperties eval scope known entries store request →
      request.outcome other = request.outcome eval) :
    (properties other scope known entries).outcome store =
      (properties eval scope known entries).outcome store := by
  induction entries generalizing store known with
  | nil => rfl
  | cons entry rest ih =>
    rcases entry with ⟨key, e⟩
    have value : (propertyValue other scope key e).outcome store =
        (propertyValue eval scope key e).outcome store := by
      by_cases present : e = .absent
      · subst present
        rfl
      · rw [propertyValue_of_present present, propertyValue_of_present present]
        exact agree _ (.value present)
    apply outcome_bind_congr value
    intro value after gives
    by_cases new : known.lookup key.text = none
    · simp only [new, Option.isSome_none, Bool.false_eq_true, if_false]
      exact ih fun request later => agree request (.later gives new later)
    · simp only [Option.isSome_iff_ne_none.mpr new, if_true]

theorem links_congr {chain : List (Guarded Stmt)}
    (agree : ∀ request, InLinks eval scope chain store request →
      request.outcome other = request.outcome eval) :
    (links other scope chain).outcome store = (links eval scope chain).outcome store := by
  induction chain generalizing store with
  | nil => rfl
  | cons link rest ih =>
    apply outcome_bind_congr (condition_congr (agree _ .condition) _)
    intro held after gives
    cases held with
    | true => exact sequence_congr (fun request inside => agree request (.body gives inside)) _
    | false => exact ih fun request later => agree request (.later gives later)

theorem rounds_congr {bound : Nat} {token : Token} {test step : Expr} {statements : List Stmt}
    (agree : ∀ request, InRounds eval scope token test step statements bound store request →
      request.outcome other = request.outcome eval) :
    (rounds (round other scope token test step statements) bound).outcome store =
      (rounds (round eval scope token test step statements) bound).outcome store := by
  induction bound generalizing store with
  | zero => rfl
  | succ bound ih =>
    have one : (round other scope token test step statements).outcome store =
        (round eval scope token test step statements).outcome store := by
      apply outcome_bind_congr (condition_congr (agree _ .condition) _)
      intro held after holds
      cases held with
      | false => rfl
      | true =>
        refine outcome_bind_congr
          (sequence_congr (fun request inside => agree request (.body holds inside)) _) ?_
        intro value last ran
        refine outcome_bind_congr
          (optionalValue_congr fun present => agree _ (.step holds ran present)) ?_
        intros
        rfl
    apply outcome_bind_congr one
    intro more after gives
    cases more with
    | true => exact ih fun request later => agree request (.again gives later)
    | false => rfl

theorem opening_congr {start : Option Declaration}
    (agree : ∀ d, start = some d →
      (other (.declare d) scope).outcome store = (eval (.declare d) scope).outcome store) :
    (opening other scope start).outcome store = (opening eval scope start).outcome store := by
  cases start with
  | none => rfl
  | some d => exact agree d rfl

theorem unary_congr {token : Token} {operator : Text} {operand : Expr}
    (agree : operand ≠ .absent →
      (valueOf other operand scope).outcome store = (valueOf eval operand scope).outcome store) :
    (unary other scope token operator operand).outcome store =
      (unary eval scope token operator operand).outcome store := by
  cases operand with
  | absent => rfl
  | _ => exact outcome_bind_congr (agree (by simp)) fun _ _ _ => rfl

theorem member_congr {token : Token} {object property : Expr} {computed : Bool}
    (holder : (valueOf other object scope).outcome store = (valueOf eval object scope).outcome store)
    (key : ∀ properties after, (valueOf eval object scope).Gives store (.object properties) after →
      computed = true →
        (valueOf other property scope).outcome after =
          (valueOf eval property scope).outcome after) :
    (member other scope token object property computed).outcome store =
      (member eval scope token object property computed).outcome store := by
  apply outcome_bind_congr holder
  intro value after gives
  cases value with
  | object properties =>
    refine outcome_bind_congr ?_ fun _ _ _ => rfl
    cases computed with
    | true => exact outcome_bind_congr (key properties after gives rfl) fun _ _ _ => rfl
    | false => rfl
  | _ => rfl

theorem apply_congr {token : Token} {callee : Value} {arguments : List Value}
    (agree : ∀ name parameters statements closure inside opened entered,
      callee = .function name parameters statements closure →
        (enclosed closure).Gives store inside opened →
          (bindParameters inside token parameters arguments).Gives opened () entered →
            ∀ request, InSequence eval inside statements entered request →
              request.outcome other = request.outcome eval) :
    (apply other token callee arguments).outcome store =
      (apply eval token callee arguments).outcome store := by
  cases callee with
  | function name parameters statements closure =>
    apply outcome_bind_congr rfl
    intro inside opened enters
    apply outcome_bind_congr rfl
    intro _ entered binds
    exact sequence_congr (agree _ _ _ _ _ _ _ rfl enters binds) _
  | _ => rfl

/-- The places are all there are: evaluations that agree on the requests a rule makes of one of them
are the same to the rule. -/
theorem rule_congr {bound : Nat} {statement : Stmt}
    (agree : ∀ request, Performs eval bound statement scope store request →
      request.outcome other = request.outcome eval) :
    (rule other bound statement scope).outcome store =
      (rule eval bound statement scope).outcome store := by
  cases statement with
  | declare d =>
    refine outcome_bind_congr ?_ fun _ _ _ => rfl
    exact optionalValue_congr fun present => agree _ (.initializer present)
  | function token name parameters statements => rfl
  | branch first others =>
    apply outcome_bind_congr rfl
    intro inside opened enters
    exact links_congr fun request within => agree request (.link enters within)
  | whileLoop token test statements =>
    apply outcome_bind_congr rfl
    intro inside opened enters
    refine outcome_bind_congr ?_ fun _ _ _ => rfl
    exact rounds_congr fun request within => agree request (.whileRound enters within)
  | forLoop token start test step statements =>
    apply outcome_bind_congr rfl
    intro inside opened enters
    refine outcome_bind_congr ?_ ?_
    · apply opening_congr
      rintro d rfl
      exact agree _ (.forStart enters)
    · intro _ started starts
      refine outcome_bind_congr ?_ fun _ _ _ => rfl
      exact rounds_congr fun request within => agree request (.forRound enters starts within)
  | expr e =>
    cases e with
    | object token entries =>
      refine outcome_bind_congr ?_ fun _ _ _ => rfl
      exact properties_congr fun request within => agree request (.property within)
    | assign token target e =>
      cases target with
      | ident name => exact outcome_bind_congr (agree _ .assigned) fun _ _ _ => rfl
      | _ => rfl
    | binary token operator left right =>
      apply outcome_bind_congr (agree _ .left)
      intro value after gives
      exact outcome_bind_congr (agree _ (.right gives)) fun _ _ _ => rfl
    | unary token operator operand =>
      exact unary_congr fun present => agree _ (.operand present)
    | call token callee arguments =>
      apply outcome_bind_congr (agree _ .callee)
      intro function reached gives
      refine outcome_bind_congr
        (values_congr fun request within => agree request (.argument gives within)) ?_
      intro given passed passes
      apply apply_congr
      rintro name parameters statements closure inside opened entered rfl enters binds request within
      exact agree request (.called gives passes enters binds within)
    | member token object property computed =>
      refine member_congr (agree _ .object) ?_
      rintro properties after gives rfl
      exact agree _ (.key gives)
    | _ => rfl

end Agreement

end Scriptlet.Eval
