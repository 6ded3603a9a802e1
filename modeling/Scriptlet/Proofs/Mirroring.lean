import Scriptlet.Proofs.Blame
import Scriptlet.Proofs.DirectStyle
/-!
Evaluation in direct style does on the objects of values what evaluation does on values, and comes to
the object of its value or to its stop. So it binds and passes only objects of values, whatever else
there might be.
-/
namespace Scriptlet.Direct

open Scriptlet.Action

variable {α β γ δ : Type}

/-- What comes of a verdict. -/
def verdict : Except Stop α → Except Object α
  | .ok value => .ok value
  | .error stop => .error (.stop stop)

/-- The first does on the objects of values what the second does on values, and comes to what `shown`
makes of its end. -/
def Mirrors (shown : Except Stop α → β) (direct : Direct β) (action : Action α) : Prop :=
  ∀ objects store, objects.Shows store →
    (direct.run objects).1 = shown (action.outcome store).1 ∧
      (direct.run objects).2.Shows (action.outcome store).2

variable {shown : Except Stop α → β} {sight : Except Stop γ → δ}

theorem mirrors_pure {object : β} {value : α} (same : object = shown (.ok value)) :
    Mirrors shown (pure object) (pure value) :=
  fun _ _ shows => ⟨same, shows⟩

theorem mirrors_stop {object : β} {stop : Stop} (same : object = shown (.error stop)) :
    Mirrors shown (pure object) (throw stop) :=
  fun _ _ shows => ⟨same, shows⟩

theorem mirrors_failure (token : Token) (found : Diagnostic) :
    Mirrors Object.ofResult (pure (failure token found)) (failAt token found) :=
  mirrors_stop rfl

theorem mirrors_refusal (token : Token) (found : Diagnostic) :
    Mirrors verdict (pure (.error (failure token found))) (failAt token found : Action α) :=
  mirrors_stop rfl

theorem Mirrors.congr {direct : Direct β} {action other : Action α}
    (mirrors : Mirrors shown direct action)
    (same : ∀ store, action.outcome store = other.outcome store) : Mirrors shown direct other := by
  intro objects store shows
  rw [← same]
  exact mirrors objects store shows

theorem Mirrors.bind {direct : Direct β} {action : Action α} {next : β → Direct δ}
    {rest : α → Action γ} (first : Mirrors shown direct action)
    (goes : ∀ value, Mirrors sight (next (shown (.ok value))) (rest value))
    (stops : ∀ stop, next (shown (.error stop)) = pure (sight (.error stop))) :
    Mirrors sight (direct >>= next) (action >>= rest) := by
  intro objects store shows
  obtain ⟨result, after⟩ := first objects store shows
  rw [outcome_bind, StateT.run_bind]
  change ((next (direct.run objects).1).run (direct.run objects).2).1 = _ ∧
    ((next (direct.run objects).1).run (direct.run objects).2).2.Shows _
  rw [result]
  rcases ended : action.outcome store with ⟨stop | value, left⟩
  · rw [ended] at after
    rw [stops]
    exact ⟨rfl, after⟩
  · rw [ended] at after
    exact goes value _ _ after

/-- What is done to the values in the end does not show if it only changes how they are put. -/
theorem Mirrors.then_pure {direct : Direct δ} {action : Action γ} {shown : Except Stop α → δ}
    {change : γ → α} (first : Mirrors sight direct action)
    (goes : ∀ value, sight (.ok value) = shown (.ok (change value)))
    (stops : ∀ stop, sight (.error stop) = shown (.error stop)) :
    Mirrors shown direct (do return change (← action)) := by
  rw [← bind_pure direct]
  apply first.bind
  · exact fun value => mirrors_pure (goes value)
  · exact fun stop => congrArg pure (stops stop)

theorem Mirrors.settle {stopped : Object → δ} {direct : Direct Object} {action : Action Value}
    {next : Object → Direct δ} {rest : Value → Action γ} (first : Mirrors Object.ofResult direct action)
    (goes : ∀ value, Mirrors sight (next (.ofValue value)) (rest value))
    (stops : ∀ stop, stopped (.stop stop) = sight (.error stop)) :
    Mirrors sight (settle stopped direct next) (action >>= rest) := by
  apply first.bind
  · intro value
    simp only [Object.ofResult, Object.unwinds_ofValue]
    exact goes value
  · intro stop
    exact congrArg pure (stops stop)

theorem Mirrors.attempt {direct : Direct (Except Object α)} {action : Action α}
    {next : α → Direct Object} {rest : α → Action Value} (first : Mirrors verdict direct action)
    (goes : ∀ value, Mirrors Object.ofResult (next value) (rest value)) :
    Mirrors Object.ofResult (attempt direct next) (action >>= rest) :=
  first.bind goes fun _ => rfl

/-- The object of a value, or a fault that the token will be the place of. -/
inductive Unplaced (token : Token) : Object → Except Stop Value → Prop where
  | value (value : Value) : Unplaced token (.ofValue value) (.ok value)
  | fault {found : Diagnostic} :
      found.position = .unknown →
        Unplaced token (.fault found) (.error (.failed (found.placedAt token.position)))

/-- The first does what the second does, but for the place of its fault. -/
def Drafts (token : Token) (direct : Direct Object) (action : Action Value) : Prop :=
  ∀ objects store, objects.Shows store →
    Unplaced token (direct.run objects).1 (action.outcome store).1 ∧
      (direct.run objects).2.Shows (action.outcome store).2

theorem Drafts.bind {token : Token} {direct : Direct Object} {action : Action Value}
    {next : Object → Direct δ} {rest : Value → Action γ} (drafts : Drafts token direct action)
    (goes : ∀ value, Mirrors sight (next (.ofValue value)) (rest value))
    (fails : ∀ found : Diagnostic, found.position = .unknown →
      next (.fault found) = pure (sight (.error (.failed (found.placedAt token.position))))) :
    Mirrors sight (direct >>= next) (action >>= rest) := by
  intro objects store shows
  obtain ⟨unplaced, after⟩ := drafts objects store shows
  rw [outcome_bind, StateT.run_bind]
  change ((next (direct.run objects).1).run (direct.run objects).2).1 = _ ∧
    ((next (direct.run objects).1).run (direct.run objects).2).2.Shows _
  generalize direct.run objects = ran at unplaced after
  generalize action.outcome store = ended at unplaced after
  obtain ⟨object, left⟩ := ran
  obtain ⟨result, behind⟩ := ended
  cases unplaced with
  | value value => exact goes value _ _ after
  | @fault found nowhere =>
    have stopped : next (.stop (.failed found)) = pure _ := fails found nowhere
    dsimp only
    rw [stopped]
    exact ⟨rfl, after⟩

theorem Drafts.placed {token : Token} {direct : Direct Object} {action : Action Value}
    (drafts : Drafts token direct action) :
    Mirrors Object.ofResult (placed token direct) action := by
  rw [← bind_pure action]
  apply drafts.bind
  · intro value
    exact mirrors_pure (Object.placedAt_ofValue token value)
  · intro found nowhere
    exact congrArg pure (Object.placedAt_fault token nowhere)

theorem position_undeclared (name : Text) (available : List Text) :
    (Diagnostic.undeclared name available).position = .unknown := by
  obtain ⟨hints, same⟩ := Diagnostic.exists_hints_undeclared name available
  rw [same]
  rfl

theorem drafts_lookup (scope : Scope) (name : Text) (token : Token) :
    Drafts token (lookup scope name) (Action.lookup scope name token) := by
  intro objects store shows
  have nearest := Heap.slot?_ofFrames scope name store.frames
  rw [← shows.heap] at nearest
  rw [outcome_lookup, Frames.lookup, Frames.get?, lookup]
  simp only [StateT.run_bind, StateT.run_get, pure_bind, nearest]
  rcases store.frames.binding? scope name with _ | b
  · have visible : objects.heap.visible scope = store.frames.visible scope := by
      rw [shows.heap, Heap.visible_ofFrames]
    refine ⟨?_, shows⟩
    rw [← visible]
    exact .fault (position_undeclared _ _)
  · exact ⟨.value b.value, shows⟩

theorem drafts_declare (scope : Scope) (name : Text) (value : Value) (constant : Bool)
    (token : Token) :
    Drafts token (declare scope name (.ofValue value) constant)
      (Action.declare scope name value constant token) := by
  intro objects store shows
  have there := Heap.find_ofFrames name store.frames scope.innermost
  rw [← shows.heap] at there
  rw [outcome_declare, Frames.declarationFault?, declare]
  simp only [StateT.run_bind, StateT.run_get, pure_bind, there, Option.isSome_map]
  rw [Frame.binds]
  split
  · exact ⟨.fault rfl, shows⟩
  · refine ⟨.value value, ?_, shows.printed, shows.machine, shows.passed⟩
    exact (congrArg (Heap.bind · scope _) shows.heap).trans (Heap.bind_ofFrames ..)

theorem drafts_assign (scope : Scope) (name : Text) (value : Value) (token : Token) :
    Drafts token (assign scope name (.ofValue value)) (Action.assign scope name value token) := by
  intro objects store shows
  have nearest := Heap.slot?_ofFrames scope name store.frames
  rw [← shows.heap] at nearest
  rw [outcome_assign, Frames.assignmentFault?, assign]
  simp only [StateT.run_bind, StateT.run_get, pure_bind, nearest]
  rcases store.frames.binding? scope name with _ | b
  · exact ⟨.fault rfl, shows⟩
  · have kept : (Slot.ofBinding b).constant = b.constant := rfl
    simp only [Option.map_some, kept]
    split
    · exact ⟨.fault rfl, shows⟩
    · refine ⟨.value value, ?_, shows.printed, shows.machine, shows.passed⟩
      exact (congrArg (Heap.rebind · scope name _) shows.heap).trans (Heap.rebind_ofFrames ..)

theorem Mirrors.inside {scope : Scope} {next : Scope → Direct δ} {rest : Scope → Action γ}
    (goes : ∀ inside, Mirrors sight (next inside) (rest inside)) :
    Mirrors sight (enclosed scope >>= next) (Action.enclosed scope >>= rest) := by
  intro objects store shows
  have size : objects.heap.size = store.frames.size := by rw [shows.heap, Heap.size_ofFrames]
  rw [outcome_bind, outcome_enclosed, ← size]
  refine goes _ _ _ ⟨?_, shows.printed, shows.machine, shows.passed⟩
  exact (congrArg Heap.grow shows.heap).trans (Heap.grow_ofFrames store.frames)

theorem mirrors_print (printed : Printed) :
    Mirrors Object.ofResult (print printed) (do Action.print printed; return .null) :=
  fun _ _ shows => ⟨rfl, shows.heap, congrArg (printed :: ·) shows.printed, shows.machine, shows.passed⟩

theorem mirrors_native (function : Native) (given : List Value) :
    Mirrors Object.ofResult (native function (given.map .ofValue)) (function.apply given) := by
  unfold native
  rw [Object.map_read_ofValue]
  cases function with
  | print | println => exact mirrors_print _
  | time =>
    intro objects store shows
    refine ⟨?_, shows.heap, shows.printed, congrArg (·.after 1) shows.machine, shows.passed⟩
    change Object.ofValue (Native.timeValue objects.machine.now given) = _
    rw [shows.machine, outcome_time]
    rfl
  | exit =>
    intro objects store shows
    refine ⟨?_, shows⟩
    change Object.stop (.halted (Native.haltOf objects.machine given)) = _
    rw [shows.machine, outcome_exit]
    rfl

theorem Mirrors.passing {direct : Direct δ} {action : Action γ} (mirrors : Mirrors sight direct action)
    (given : List Value) :
    Mirrors sight (do pass (given.map .ofValue); direct) action := by
  intro objects store shows
  refine mirrors _ store ⟨shows.heap, shows.printed, shows.machine, ?_⟩
  intro object member
  rcases List.mem_append.mp member with new | old
  · obtain ⟨value, -, rfl⟩ := List.mem_map.mp new
    exact Object.not_holds_ofValue value
  · exact shows.passed object old

section Rules
variable {eval : Evaluation} {other : Eval.Evaluation}
  (parts : ∀ statement scope, Mirrors Object.ofResult (eval statement scope) (other statement scope))
  (scope : Scope)
include parts

theorem mirrors_sequence (last : Value) (statements : List Stmt) :
    Mirrors Object.ofResult (sequence eval scope (.ofValue last) statements)
      (Eval.sequence other scope last statements) := by
  induction statements generalizing last with
  | nil => exact mirrors_pure rfl
  | cons statement rest ih => exact (parts statement scope).settle ih fun _ => rfl

theorem mirrors_body (statements : List Stmt) :
    Mirrors Object.ofResult (sequence eval scope .null statements)
      (Eval.body other scope statements) :=
  mirrors_sequence parts scope .null statements

/-- The objects of values behind those before them, or the one that unwinds. -/
def listed (before : List Object) : Except Stop (List Value) → List Object
  | .ok values => before.reverse ++ values.map .ofValue
  | .error stop => [.stop stop]

theorem mirrors_objects (before : List Object) (arguments : List Expr) :
    Mirrors (listed before) (objects eval scope before arguments)
      (Eval.values other scope arguments) := by
  induction arguments generalizing before with
  | nil => exact mirrors_pure (List.append_nil _).symm
  | cons e rest ih =>
    refine (parts (.expr e) scope).settle ?_ fun _ => rfl
    intro first
    apply (ih (.ofValue first :: before)).then_pure
    · intro others
      simp [listed]
    · exact fun _ => rfl

theorem mirrors_condition (token : Token) (e : Expr) :
    Mirrors verdict (condition eval scope token e) (Eval.condition other scope token e) := by
  refine (parts (.expr e) scope).settle ?_ fun _ => rfl
  intro value
  cases value with
  | boolean value => exact mirrors_pure rfl
  | _ => exact mirrors_refusal token _

theorem mirrors_optionalObject (e : Expr) :
    Mirrors Object.ofResult (optionalObject eval scope e) (Eval.optionalValue other scope e) := by
  cases e with
  | absent => exact mirrors_pure rfl
  | _ => exact parts (.expr _) scope

theorem mirrors_declaration (d : Declaration) :
    Mirrors Object.ofResult (declaration eval scope d) (Eval.declaration other scope d) := by
  refine (mirrors_optionalObject parts scope d.value).settle ?_ fun _ => rfl
  intro value
  exact (drafts_declare scope d.name.text value d.constant d.name.token).placed

theorem mirrors_links (chain : List (Guarded Stmt)) :
    Mirrors Object.ofResult (links eval scope chain) (Eval.links other scope chain) := by
  induction chain with
  | nil => exact mirrors_pure rfl
  | cons link rest ih =>
    apply (mirrors_condition parts scope link.token link.condition).attempt
    intro holds
    cases holds with
    | true => exact mirrors_body parts scope link.body
    | false => exact ih

theorem mirrors_loop (token : Token) (test step : Expr) (statements : List Stmt) (bound : Nat) :
    Mirrors Object.ofResult (loop eval scope token test step statements bound)
      (Eval.loop other bound scope token test step statements) := by
  induction bound with
  | zero => exact mirrors_stop rfl
  | succ bound ih =>
    -- the condition comes first in the loop, in its rounds and in the first of these
    rw [Eval.loop, Eval.rounds, Eval.round]
    simp only [bind_assoc]
    apply (mirrors_condition parts scope token test).attempt
    intro holds
    cases holds with
    | false => exact mirrors_pure rfl
    | true =>
      simp only [if_true, bind_assoc, pure_bind]
      refine (mirrors_body parts scope statements).settle ?_ fun _ => rfl
      intro _
      refine (mirrors_optionalObject parts scope step).settle ?_ fun _ => rfl
      intro _
      exact ih

theorem mirrors_opening (start : Option Declaration) :
    Mirrors Object.ofResult (opening eval scope start) (Eval.opening other scope start) := by
  cases start with
  | none => exact mirrors_pure rfl
  | some d => exact parts (.declare d) scope

theorem mirrors_propertyObject (key : Ident) (e : Expr) :
    Mirrors Object.ofResult (propertyObject eval scope key e)
      (Eval.propertyValue other scope key e) := by
  cases e with
  | absent => exact (drafts_lookup scope key.text key.token).placed
  | _ => exact parts (.expr _) scope

/-- The object with properties, or the stop. -/
def assembled : Except Stop (List (Text × Value)) → Object
  | .ok all => .object (Object.ofProperties all)
  | .error stop => .stop stop

theorem mirrors_properties (known : List (Text × Value)) (entries : List (Ident × Expr)) :
    Mirrors assembled (properties eval scope (Object.ofProperties known) entries)
      (Eval.properties other scope known entries) := by
  induction entries generalizing known with
  | nil =>
    apply mirrors_pure
    rw [assembled, Object.ofProperties_eq, Object.ofProperties_eq, List.map_reverse]
  | cons entry rest ih =>
    obtain ⟨key, e⟩ := entry
    refine (mirrors_propertyObject parts scope key e).settle ?_ fun _ => rfl
    intro value
    rw [Object.lookup_ofProperties, Option.isSome_map]
    split
    · exact mirrors_stop rfl
    · exact ih ((key.text, value) :: known)

theorem mirrors_assignment (token : Token) (target e : Expr) :
    Mirrors Object.ofResult (assignment eval scope token target e)
      (Eval.assignment other scope token target e) := by
  cases target with
  | ident name =>
    refine (parts (.expr e) scope).settle ?_ fun _ => rfl
    intro value
    exact (drafts_assign scope name.text value name.token).placed
  | _ => exact mirrors_failure token _

omit parts in
theorem mirrors_binary (token : Token) (operator : Text) (left right : Value) :
    Mirrors Object.ofResult (pure (binary token operator (.ofValue left) (.ofValue right)))
      (Eval.binary token operator left right) := by
  unfold binary Eval.binary
  rw [Object.read_ofValue, Object.read_ofValue]
  by_cases compares : token.kind = .booleanOperator
  · rw [if_pos compares, if_pos compares]
    cases Comparison.onValues? operator left right with
    | some result => exact mirrors_pure rfl
    | none => exact mirrors_failure token _
  · rw [if_neg compares, if_neg compares]
    exact mirrors_pure rfl

omit parts in
/-- An operator behind a name looks whether the assignment failed, and gives the number either way if it
did not. -/
theorem mirrors_changed (name : Ident) (result : Float) :
    Mirrors Object.ofResult
      (do
        let changed ← assign scope name.text (.number result)
        if changed.isFault then return changed.placedAt name.token else return .number result)
      (Action.assign scope name.text (.number result) name.token) := by
  -- what an assignment gives is what was assigned
  have same (store : Store) : (do
      let _ ← Action.assign scope name.text (.number result) name.token
      return .number result : Action Value).outcome store =
        (Action.assign scope name.text (.number result) name.token).outcome store := by
    rw [outcome_bind, outcome_assign]
    cases store.frames.assignmentFault? scope name.text <;> rfl
  refine Mirrors.congr ?_ same
  apply (drafts_assign scope name.text (.number result) name.token).bind
  · intro value
    simp only [Object.isFault_ofValue]
    exact mirrors_pure rfl
  · intro found nowhere
    exact congrArg pure (Object.placedAt_fault name.token nowhere)

theorem mirrors_unary (token : Token) (operator : Text) (operand : Expr) :
    Mirrors Object.ofResult (unary eval scope token operator operand)
      (Eval.unary other scope token operator operand) := by
  cases operand with
  | absent => exact mirrors_failure token _
  | _ =>
    refine (parts (.expr _) scope).settle ?_ fun _ => rfl
    intro value
    cases value with
    | number value =>
      simp only [Object.ofValue]
      cases increment? operator value with
      | none => exact mirrors_failure token _
      | some result =>
        first
          | exact mirrors_changed scope _ result
          | exact mirrors_pure rfl
    | _ => exact mirrors_failure token _

theorem mirrors_memberName (token : Token) (key : Expr) (computed : Bool) :
    Mirrors verdict (memberName eval scope token key computed)
      (Eval.memberName other scope token key computed) := by
  cases computed with
  | true =>
    refine (parts (.expr key) scope).settle ?_ fun _ => rfl
    intro value
    cases value with
    | string name => exact mirrors_pure rfl
    | _ => exact mirrors_refusal token _
  | false =>
    cases key with
    | ident name => exact mirrors_pure rfl
    | _ => exact mirrors_refusal token _

theorem mirrors_member (token : Token) (holder key : Expr) (computed : Bool) :
    Mirrors Object.ofResult (member eval scope token holder key computed)
      (Eval.member other scope token holder key computed) := by
  refine (parts (.expr holder) scope).settle ?_ fun _ => rfl
  intro value
  cases value with
  | object properties =>
    apply (mirrors_memberName parts scope token key computed).attempt
    intro name
    rw [Object.lookup_ofProperties]
    cases properties.lookup name with
    | some value => exact mirrors_pure rfl
    | none => exact mirrors_failure token _
  | _ => exact mirrors_failure token _

omit parts in
theorem mirrors_bindParameters (token : Token) (names : List Text) (given : List Value) :
    Mirrors verdict (bindParameters scope token names (given.map .ofValue))
      (Eval.bindParameters scope token names given) := by
  induction names generalizing given with
  | nil => exact mirrors_pure rfl
  | cons name names ih =>
    cases given with
    | nil => exact mirrors_pure rfl
    | cons value rest =>
      apply (drafts_declare scope name value false token).bind
      · intro declared
        simp only [Object.isFault_ofValue]
        exact ih rest
      · intro found nowhere
        exact congrArg (pure ∘ Except.error) (Object.placedAt_fault token nowhere)

omit scope in
theorem mirrors_apply (token : Token) (callee : Value) (given : List Value) :
    Mirrors Object.ofResult (apply eval token (.ofValue callee) (given.map .ofValue))
      (Eval.apply other token callee given) := by
  cases callee with
  | native function => exact (mirrors_native function given).passing given
  | function name parameters statements closure =>
    refine Mirrors.passing ?_ given
    apply Mirrors.inside
    intro inside
    apply (mirrors_bindParameters inside token parameters given).attempt
    intro _
    exact mirrors_body parts inside statements
  | _ => exact mirrors_failure token _

theorem mirrors_call (token : Token) (callee : Value) (arguments : List Expr) :
    Mirrors Object.ofResult
      (do call eval token (.ofValue callee) (← objects eval scope [] arguments))
      (do Eval.apply other token callee (← Eval.values other scope arguments)) := by
  apply (mirrors_objects parts scope [] arguments).bind
  · intro given
    have called : call eval token (.ofValue callee) (listed [] (.ok given)) =
        apply eval token (.ofValue callee) (given.map .ofValue) := by
      rcases given with _ | ⟨value, _ | ⟨second, rest⟩⟩
      · rfl
      · simp [listed, call]
      · rfl
    rw [called]
    exact mirrors_apply parts token callee given
  · exact fun _ => rfl

theorem mirrors_expression (e : Expr) :
    Mirrors Object.ofResult (expression eval scope e) (Eval.expression other scope e) := by
  cases e with
  | absent | number | string | boolean => exact mirrors_pure rfl
  | ident name => exact (drafts_lookup scope name.text name.token).placed
  | object token entries =>
    apply (mirrors_properties parts scope [] entries).then_pure
    · exact fun _ => rfl
    · exact fun _ => rfl
  | assign token target e => exact mirrors_assignment parts scope token target e
  | binary token operator left right =>
    refine (parts (.expr left) scope).settle ?_ fun _ => rfl
    intro a
    refine (parts (.expr right) scope).settle ?_ fun _ => rfl
    intro b
    exact mirrors_binary token operator a b
  | unary token operator operand => exact mirrors_unary parts scope token operator operand
  | call token callee arguments =>
    refine (parts (.expr callee) scope).settle ?_ fun _ => rfl
    intro function
    exact mirrors_call parts scope token function arguments
  | member token holder key computed =>
    exact mirrors_member parts scope token holder key computed

theorem mirrors_rule (bound : Nat) (statement : Stmt) :
    Mirrors Object.ofResult (rule eval bound statement scope)
      (Eval.rule other bound statement scope) := by
  cases statement with
  | expr e => exact mirrors_expression parts scope e
  | declare d => exact mirrors_declaration parts scope d
  | function token name parameters statements =>
    exact (drafts_declare scope name.text (.function ..) true name.token).placed
  | branch first others =>
    apply Mirrors.inside
    intro inside
    exact mirrors_links parts inside (first :: others)
  | whileLoop token test statements =>
    apply Mirrors.inside
    intro inside
    exact mirrors_loop parts inside token test .absent statements bound
  | forLoop token start test step statements =>
    apply Mirrors.inside
    intro inside
    refine (mirrors_opening parts inside start).settle ?_ fun _ => rfl
    intro _
    exact mirrors_loop parts inside token test step statements bound

end Rules

theorem mirrors_statement (bound : Nat) (single : Stmt) (scope : Scope) :
    Mirrors Object.ofResult (statement bound single scope) (single.eval bound scope) := by
  induction bound generalizing single scope with
  | zero => exact mirrors_stop rfl
  | succ bound ih => exact mirrors_rule ih scope bound single

theorem mirrors_node (bound : Nat) (single : Node) (scope : Scope) :
    Mirrors Object.ofResult (node bound single scope) (single.eval bound scope) := by
  cases single with
  | program statements => exact mirrors_body (mirrors_statement bound) scope statements
  | statement single => exact mirrors_statement bound single scope

end Scriptlet.Direct
