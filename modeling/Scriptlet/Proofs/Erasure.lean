import Scriptlet.Proofs.Frames
import Scriptlet.Proofs.Layout
import Scriptlet.Proofs.Mapping
import Scriptlet.Proofs.Outcome
/-!
Evaluation does not look at places. Functions keep the trees of their bodies, so places get into the
store; erasing them from a statement and from the store erases them from the value, from the fault and
from the store that is left, and changes nothing else. Nor does evaluation look at what was printed
before: it only adds to it.
-/
namespace Scriptlet

mutual

/-- The value without the places in the bodies of its functions. -/
def Value.unplaced : Value → Value
  | .null => .null
  | .boolean value => .boolean value
  | .number value => .number value
  | .string value => .string value
  | .object properties => .object (unplacedEntries properties)
  | .function name parameters body scope => .function name parameters (unplacedBody body) scope
  | .native function => .native function

def unplacedEntries : List (Text × Value) → List (Text × Value)
  | [] => []
  | (name, value) :: rest => (name, value.unplaced) :: unplacedEntries rest

end

mutual

theorem Value.unplaced_eq_mapped (value : Value) : value.unplaced = value.mapped unplacedBody id := by
  cases value with
  | object properties => rw [Value.unplaced, Value.mapped, unplacedEntries_eq_mapped properties]
  | _ => rfl

theorem unplacedEntries_eq_mapped (properties : List (Text × Value)) :
    unplacedEntries properties = mappedEntries unplacedBody id properties := by
  cases properties with
  | nil => rfl
  | cons property rest =>
    obtain ⟨name, value⟩ := property
    rw [unplacedEntries, mappedEntries, Value.unplaced_eq_mapped value,
      unplacedEntries_eq_mapped rest]

end

theorem Value.unplaced_eq : Value.unplaced = Value.mapped unplacedBody id :=
  funext Value.unplaced_eq_mapped

theorem unplacedEntries_reverse (properties : List (Text × Value)) :
    unplacedEntries properties.reverse = (unplacedEntries properties).reverse := by
  simp only [unplacedEntries_eq_mapped, mappedEntries_eq, List.map_reverse]

theorem lookup_unplacedEntries (properties : List (Text × Value)) (name : Text) :
    (unplacedEntries properties).lookup name = (properties.lookup name).map Value.unplaced := by
  rw [unplacedEntries_eq_mapped, lookup_mappedEntries, Value.unplaced_eq]

namespace Value

theorem typeName_unplaced (value : Value) : value.unplaced.typeName = value.typeName := by
  rw [unplaced_eq, typeName_mapped]

theorem typeLabel_unplaced (value : Value) : value.unplaced.typeLabel = value.typeLabel := by
  rw [unplaced_eq, typeLabel_mapped]

theorem inspect_unplaced (value : Value) : value.unplaced.inspect = value.inspect := by
  rw [unplaced_eq, inspect_mapped]

end Value

/-- A binding without the places in its value. -/
def Binding.unplaced (b : Binding) : Binding := { b with value := b.value.unplaced }

def Frame.unplaced (frame : Frame) : Frame := frame.map Binding.unplaced

def Frames.unplaced (frames : Frames) : Frames := frames.map Frame.unplaced

namespace Frame

variable (frame : Frame) (name : Text)

theorem find_unplaced : frame.unplaced.find name = (frame.find name).map Binding.unplaced :=
  frame.find_mapped name

theorem binds_unplaced : frame.unplaced.binds name = frame.binds name := frame.binds_mapped name

theorem names_unplaced : frame.unplaced.names = frame.names := frame.names_mapped

theorem update_unplaced (value : Value) :
    (frame.update name value).unplaced = frame.unplaced.update name value.unplaced :=
  frame.update_mapped name value

end Frame

namespace Frames

variable (frames : Frames) (scope : Scope) (name : Text)

@[simp]
theorem size_unplaced : frames.unplaced.size = frames.size := Array.size_map ..

theorem frame_unplaced (id : FrameId) : frames.unplaced.frame id = (frames.frame id).unplaced := by
  unfold Frames.frame Frames.unplaced
  by_cases there : id < frames.size <;> simp [there, Frame.unplaced]

theorem owner?_unplaced : frames.unplaced.owner? scope name = frames.owner? scope name := by
  simp only [owner?, frame_unplaced, Frame.binds_unplaced]

theorem binding?_unplaced :
    frames.unplaced.binding? scope name = (frames.binding? scope name).map Binding.unplaced := by
  simp only [binding?, owner?_unplaced, frame_unplaced, Frame.find_unplaced]
  cases frames.owner? scope name <;> rfl

theorem get?_unplaced :
    frames.unplaced.get? scope name = (frames.get? scope name).map Value.unplaced := by
  simp only [get?, binding?_unplaced, Option.map_map]
  rfl

theorem visible_unplaced : frames.unplaced.visible scope = frames.visible scope := by
  simp only [visible, frame_unplaced, Frame.names_unplaced]

theorem declarationFault?_unplaced :
    frames.unplaced.declarationFault? scope name = frames.declarationFault? scope name := by
  simp only [declarationFault?, frame_unplaced, Frame.binds_unplaced]

theorem assignmentFault?_unplaced :
    frames.unplaced.assignmentFault? scope name = frames.assignmentFault? scope name := by
  simp only [assignmentFault?, binding?_unplaced]
  cases frames.binding? scope name <;> rfl

theorem bind_unplaced (value : Value) (constant : Bool) :
    (frames.bind scope name value constant).unplaced =
      frames.unplaced.bind scope name value.unplaced constant := by
  apply Array.ext
  · simp
  · intro id _ _
    simp only [bind, Frames.unplaced, Array.getElem_map, Array.getElem_modify]
    split <;> rfl

theorem rebind_unplaced (value : Value) :
    (frames.rebind scope name value).unplaced =
      frames.unplaced.rebind scope name value.unplaced := by
  rw [rebind, rebind, owner?_unplaced]
  cases frames.owner? scope name with
  | none => rfl
  | some owner =>
    apply Array.ext
    · simp
    · intro id _ _
      simp only [Frames.unplaced, Array.getElem_map, Array.getElem_modify]
      split
      · exact Frame.update_unplaced _ name value
      · rfl

theorem grow_unplaced : frames.grow.unplaced = frames.unplaced.grow := Array.map_push ..

end Frames

def Stop.unplaced : Stop → Stop
  | .failed fault => .failed fault.unplaced
  | .halted halt => .halted halt
  | .exhausted => .exhausted

/-- The store without the places in its functions, and with earlier prints behind its own. -/
def Store.unplaced (earlier : List Printed) (store : Store) : Store :=
  { frames := store.frames.unplaced, printed := store.printed ++ earlier, machine := store.machine }

namespace Action

variable {α β γ δ : Type} {view : α → β} {sight : γ → δ}

/-- How an action ended, without the places that it mentions. -/
def seen (view : α → β) (earlier : List Printed) :
    Except Stop α × Store → Except Stop β × Store
  | (.ok value, after) => (.ok (view value), after.unplaced earlier)
  | (.error stop, after) => (.error stop.unplaced, after.unplaced earlier)

/-- The second action does on stores without places what the first does on all. -/
def Erases (view : α → β) (placed : Action α) (bare : Action β) : Prop :=
  ∀ earlier store, bare.outcome (store.unplaced earlier) = seen view earlier (placed.outcome store)

theorem erases_pure {value : α} {bare : β} (same : bare = view value) :
    Erases view (pure value) (pure bare) := by
  subst same
  intro earlier store
  rfl

theorem erases_throw {stop bare : Stop} (same : bare = stop.unplaced) :
    Erases view (throw stop : Action α) (throw bare) := by
  subst same
  intro earlier store
  rfl

theorem erases_failAt (token : Token) {fault bare : Diagnostic} (same : bare = fault) :
    Erases view (failAt token fault : Action α) (failAt token.unplaced bare) := by
  subst same
  exact erases_throw rfl

theorem Erases.bind {placed : Action α} {bare : Action β} {next : α → Action γ}
    {rest : β → Action δ} (first : Erases view placed bare)
    (second : ∀ value, Erases sight (next value) (rest (view value))) :
    Erases sight (placed >>= next) (bare >>= rest) := by
  intro earlier store
  rw [outcome_bind, outcome_bind, first earlier store]
  rcases placed.outcome store with ⟨stop | value, after⟩
  · rfl
  · exact second value earlier after

theorem erases_lookup (scope : Scope) (name : Text) (token : Token) :
    Erases Value.unplaced (lookup scope name token) (lookup scope name token.unplaced) := by
  intro earlier store
  have frames : (store.unplaced earlier).frames = store.frames.unplaced := rfl
  rw [outcome_lookup, outcome_lookup, Frames.lookup, Frames.lookup, frames, Frames.get?_unplaced,
    Frames.visible_unplaced]
  cases store.frames.get? scope name <;> rfl

theorem erases_declare (scope : Scope) (name : Text) (value : Value) (constant : Bool)
    (token : Token) :
    Erases Value.unplaced (declare scope name value constant token)
      (declare scope name value.unplaced constant token.unplaced) := by
  intro earlier store
  have frames : (store.unplaced earlier).frames = store.frames.unplaced := rfl
  rw [outcome_declare, outcome_declare, frames, Frames.declarationFault?_unplaced]
  cases store.frames.declarationFault? scope name with
  | some fault => rfl
  | none => simp only [seen, Store.unplaced, Frames.bind_unplaced]

theorem erases_assign (scope : Scope) (name : Text) (value : Value) (token : Token) :
    Erases Value.unplaced (assign scope name value token)
      (assign scope name value.unplaced token.unplaced) := by
  intro earlier store
  have frames : (store.unplaced earlier).frames = store.frames.unplaced := rfl
  rw [outcome_assign, outcome_assign, frames, Frames.assignmentFault?_unplaced]
  cases store.frames.assignmentFault? scope name with
  | some fault => rfl
  | none => simp only [seen, Store.unplaced, Frames.rebind_unplaced]

theorem erases_enclosed (scope : Scope) : Erases id (enclosed scope) (enclosed scope) := by
  intro earlier store
  simp only [outcome_enclosed, seen, Store.unplaced, Frames.grow_unplaced, Frames.size_unplaced, id]

theorem erases_print (printed : Printed) : Erases id (print printed) (print printed) :=
  fun _ _ => rfl

end Action

namespace Eval

open Scriptlet.Action

/-- The second evaluation does on statements without places what the first does on all. -/
def Erases (placed bare : Evaluation) : Prop :=
  ∀ statement scope,
    Action.Erases Value.unplaced (placed statement scope) (bare statement.unplaced scope)

section Rules
variable {placed bare : Evaluation} (erases : Erases placed bare) (scope : Scope)
include erases

theorem Erases.valueOf (e : Expr) :
    Action.Erases Value.unplaced (valueOf placed e scope) (valueOf bare e.unplaced scope) :=
  erases (.expr e) scope

theorem erases_sequence (last : Value) (statements : List Stmt) :
    Action.Erases Value.unplaced (sequence placed scope last statements)
      (sequence bare scope last.unplaced (unplacedBody statements)) := by
  induction statements generalizing last with
  | nil => exact erases_pure rfl
  | cons statement rest ih => exact (erases statement scope).bind ih

theorem erases_body (statements : List Stmt) :
    Action.Erases Value.unplaced (body placed scope statements)
      (body bare scope (unplacedBody statements)) :=
  erases_sequence erases scope .null statements

theorem erases_values (arguments : List Expr) :
    Action.Erases (List.map Value.unplaced) (values placed scope arguments)
      (values bare scope (unplacedArguments arguments)) := by
  induction arguments with
  | nil => exact erases_pure rfl
  | cons e rest ih =>
    apply (erases.valueOf scope e).bind
    intro first
    apply ih.bind
    intro others
    exact erases_pure rfl

theorem erases_condition (token : Token) (e : Expr) :
    Action.Erases id (condition placed scope token e)
      (condition bare scope token.unplaced e.unplaced) := by
  apply (erases.valueOf scope e).bind
  intro value
  cases value with
  | boolean value => exact erases_pure rfl
  | _ => exact erases_failAt token rfl

theorem erases_optionalValue (e : Expr) :
    Action.Erases Value.unplaced (optionalValue placed scope e)
      (optionalValue bare scope e.unplaced) := by
  cases e with
  | absent => exact erases_pure rfl
  | _ => exact erases.valueOf scope _

theorem erases_declaration (d : Declaration) :
    Action.Erases Value.unplaced (declaration placed scope d)
      (declaration bare scope d.unplaced) := by
  apply (erases_optionalValue erases scope d.value).bind
  intro value
  exact erases_declare scope _ value _ _

theorem erases_links (chain : List (Guarded Stmt)) :
    Action.Erases Value.unplaced (links placed scope chain)
      (links bare scope (unplacedLinks chain)) := by
  induction chain with
  | nil => exact erases_pure rfl
  | cons link rest ih =>
    apply (erases_condition erases scope link.token link.condition).bind
    intro holds
    cases holds with
    | true => exact erases_body erases scope link.body
    | false => exact ih

theorem erases_round (token : Token) (test step : Expr) (statements : List Stmt) :
    Action.Erases id (round placed scope token test step statements)
      (round bare scope token.unplaced test.unplaced step.unplaced (unplacedBody statements)) := by
  apply (erases_condition erases scope token test).bind
  intro holds
  cases holds with
  | false => exact erases_pure rfl
  | true =>
    apply (erases_body erases scope statements).bind
    intro _
    apply (erases_optionalValue erases scope step).bind
    intro _
    exact erases_pure rfl

omit erases in
theorem erases_rounds {first second : Action Bool} (each : Action.Erases id first second)
    (bound : Nat) : Action.Erases id (rounds first bound) (rounds second bound) := by
  induction bound with
  | zero => exact erases_throw rfl
  | succ bound ih =>
    apply each.bind
    intro again
    cases again with
    | true => exact ih
    | false => exact erases_pure rfl

theorem erases_loop (bound : Nat) (token : Token) (test step : Expr) (statements : List Stmt) :
    Action.Erases Value.unplaced (loop placed bound scope token test step statements)
      (loop bare bound scope token.unplaced test.unplaced step.unplaced (unplacedBody statements)) := by
  apply (erases_rounds (erases_round erases scope token test step statements) bound).bind
  intro _
  exact erases_pure rfl

theorem erases_opening (start : Option Declaration) :
    Action.Erases Value.unplaced (opening placed scope start)
      (opening bare scope (start.map Declaration.unplaced)) := by
  cases start with
  | none => exact erases_pure rfl
  | some d => exact erases (.declare d) scope

theorem erases_propertyValue (key : Ident) (e : Expr) :
    Action.Erases Value.unplaced (propertyValue placed scope key e)
      (propertyValue bare scope key.unplaced e.unplaced) := by
  cases e with
  | absent => exact erases_lookup scope key.text key.token
  | _ => exact erases.valueOf scope _

theorem erases_properties (known : List (Text × Value)) (entries : List (Ident × Expr)) :
    Action.Erases unplacedEntries (properties placed scope known entries)
      (properties bare scope (unplacedEntries known) (unplacedProperties entries)) := by
  induction entries generalizing known with
  | nil =>
    apply erases_pure
    rw [unplacedEntries_reverse]
  | cons entry rest ih =>
    obtain ⟨key, e⟩ := entry
    apply (erases_propertyValue erases scope key e).bind
    intro value
    have text : key.unplaced.text = key.text := rfl
    rw [text, lookup_unplacedEntries, Option.isSome_map]
    split
    · exact erases_failAt key.token rfl
    · exact ih ((key.text, value) :: known)

theorem erases_assignment (token : Token) (target e : Expr) :
    Action.Erases Value.unplaced (assignment placed scope token target e)
      (assignment bare scope token.unplaced target.unplaced e.unplaced) := by
  cases target with
  | ident name =>
    apply (erases.valueOf scope e).bind
    intro value
    exact erases_assign scope name.text value name.token
  | _ => exact erases_failAt token (congrArg (Fault.targetNotName.about "Got") (Expr.text_unplaced _))

omit erases in
theorem erases_binary (token : Token) (operator : Text) (left right : Value) :
    Action.Erases Value.unplaced (binary token operator left right)
      (binary token.unplaced operator left.unplaced right.unplaced) := by
  have compared : Comparison.onValues? operator left.unplaced right.unplaced =
      Comparison.onValues? operator left right := by
    rw [Value.unplaced_eq, Comparison.onValues?_mapped]
  have computed : Arithmetic.onValues operator left.unplaced right.unplaced =
      (Arithmetic.onValues operator left right).unplaced := by
    rw [Value.unplaced_eq, Arithmetic.onValues_mapped]
  have kind : token.unplaced.kind = token.kind := rfl
  unfold binary
  rw [kind, compared, computed]
  split
  · split
    · exact erases_pure rfl
    · apply erases_failAt
      simp only [Comparison.unsupported, Value.typeName_unplaced]
  · exact erases_pure rfl

theorem erases_unary (token : Token) (operator : Text) (operand : Expr) :
    Action.Erases Value.unplaced (unary placed scope token operator operand)
      (unary bare scope token.unplaced operator operand.unplaced) := by
  -- only a name is assigned to, and erasing places makes no other expression a name
  cases operand with
  | absent => exact erases_failAt token rfl
  | _ =>
    apply (erases.valueOf scope _).bind
    intro value
    cases value with
    | number value =>
      simp only [Value.unplaced]
      split
      · exact erases_failAt token rfl
      · first
          | exact erases_assign scope _ (.number _) _
          | exact erases_pure rfl
    | _ => exact erases_failAt token rfl

theorem erases_memberName (token : Token) (key : Expr) (computed : Bool) :
    Action.Erases id (memberName placed scope token key computed)
      (memberName bare scope token.unplaced key.unplaced computed) := by
  cases computed with
  | true =>
    apply (erases.valueOf scope key).bind
    intro value
    cases value with
    | string name => exact erases_pure rfl
    | _ => exact erases_failAt token rfl
  | false =>
    cases key with
    | ident name => exact erases_pure rfl
    | _ =>
      exact erases_failAt token (congrArg (Fault.keyNotString.about "Got") (Expr.text_unplaced _))

theorem erases_member (token : Token) (holder key : Expr) (computed : Bool) :
    Action.Erases Value.unplaced (member placed scope token holder key computed)
      (member bare scope token.unplaced holder.unplaced key.unplaced computed) := by
  apply (erases.valueOf scope holder).bind
  intro value
  cases value with
  | object properties =>
    apply (erases_memberName erases scope token key computed).bind
    intro name
    rw [id, lookup_unplacedEntries]
    cases properties.lookup name with
    | some value => exact erases_pure rfl
    | none => exact erases_failAt token rfl
  | _ => exact erases_failAt token rfl

omit erases in
theorem erases_bindParameters (token : Token) (names : List Text) (given : List Value) :
    Action.Erases id (bindParameters scope token names given)
      (bindParameters scope token.unplaced names (given.map Value.unplaced)) := by
  induction names generalizing given with
  | nil => exact erases_pure rfl
  | cons name names ih =>
    cases given with
    | nil => exact erases_pure rfl
    | cons value rest =>
      apply (erases_declare scope name value false token).bind
      intro _
      exact ih rest

omit erases scope in
theorem erases_native (function : Native) (given : List Value) :
    Action.Erases Value.unplaced (function.apply given)
      (function.apply (given.map Value.unplaced)) := by
  have texts : (given.map Value.unplaced).map Value.inspect = given.map Value.inspect := by
    rw [Value.unplaced_eq, Value.inspect_map_mapped]
  have printing (printed : Printed) :
      Action.Erases Value.unplaced (do Action.print printed; return .null)
        (do Action.print printed; return .null) :=
    (erases_print printed).bind fun _ => erases_pure rfl
  cases function with
  | print =>
    rw [Native.apply, Native.apply, texts]
    exact printing _
  | println =>
    rw [Native.apply, Native.apply, texts]
    exact printing _
  | time =>
    intro earlier store
    rw [outcome_time, outcome_time, Store.unplaced, Value.unplaced_eq, Native.timeValue_mapped]
    rfl
  | exit =>
    intro earlier store
    rw [outcome_exit, outcome_exit, Store.unplaced, Value.unplaced_eq, Native.haltOf_mapped]
    rfl

omit scope in
theorem erases_apply (token : Token) (callee : Value) (given : List Value) :
    Action.Erases Value.unplaced (apply placed token callee given)
      (apply bare token.unplaced callee.unplaced (given.map Value.unplaced)) := by
  cases callee with
  | native function => exact erases_native function given
  | function name parameters statements closure =>
    apply (erases_enclosed closure).bind
    intro inside
    apply (erases_bindParameters inside token parameters given).bind
    intro _
    exact erases_body erases inside statements
  | _ => exact erases_failAt token rfl

theorem erases_expression (e : Expr) :
    Action.Erases Value.unplaced (expression placed scope e) (expression bare scope e.unplaced) := by
  cases e with
  | absent | number | string | boolean => exact erases_pure rfl
  | ident name => exact erases_lookup scope name.text name.token
  | object token entries =>
    apply (erases_properties erases scope [] entries).bind
    intro all
    exact erases_pure rfl
  | assign token target e => exact erases_assignment erases scope token target e
  | binary token operator left right =>
    apply (erases.valueOf scope left).bind
    intro a
    apply (erases.valueOf scope right).bind
    intro b
    exact erases_binary token operator a b
  | unary token operator operand => exact erases_unary erases scope token operator operand
  | call token callee arguments =>
    apply (erases.valueOf scope callee).bind
    intro function
    apply (erases_values erases scope arguments).bind
    intro given
    exact erases_apply erases token function given
  | member token holder key computed => exact erases_member erases scope token holder key computed

theorem erases_rule (bound : Nat) (statement : Stmt) :
    Action.Erases Value.unplaced (rule placed bound statement scope)
      (rule bare bound statement.unplaced scope) := by
  cases statement with
  | expr e => exact erases_expression erases scope e
  | declare d => exact erases_declaration erases scope d
  | function token name parameters statements =>
    have names : (parameters.map Ident.unplaced).map Ident.text = parameters.map Ident.text := by
      rw [List.map_map]
      rfl
    simp only [Stmt.unplaced, rule, names]
    exact erases_declare scope name.text (.function ..) true name.token
  | branch first others =>
    apply (erases_enclosed scope).bind
    intro inside
    exact erases_links erases inside (first :: others)
  | whileLoop token test statements =>
    apply (erases_enclosed scope).bind
    intro inside
    exact erases_loop erases inside bound token test .absent statements
  | forLoop token start test step statements =>
    apply (erases_enclosed scope).bind
    intro inside
    apply (erases_opening erases inside start).bind
    intro _
    exact erases_loop erases inside bound token test step statements

end Rules

end Eval

theorem Stmt.erases_eval (bound : Nat) : Eval.Erases (Stmt.eval bound) (Stmt.eval bound) := by
  induction bound with
  | zero => exact fun _ _ => Action.erases_throw rfl
  | succ bound ih => exact fun statement scope => Eval.erases_rule ih scope bound statement

theorem Program.erases_eval (bound : Nat) (program : Program) (scope : Scope) :
    Action.Erases Value.unplaced (program.eval bound scope)
      (Program.eval bound (Program.unplaced program) scope) :=
  Eval.erases_body (Stmt.erases_eval bound) scope program

end Scriptlet
