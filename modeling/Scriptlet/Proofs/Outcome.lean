import Scriptlet.Eval.Basic
/-!
How actions end. An action started in a store gives a value or stops, and leaves a store either way;
the outcome of a composed action follows from those of its parts.
-/
namespace Scriptlet

namespace Action

variable {α β : Type}

/-- How an action that starts in a store ends, and the store it leaves. -/
def outcome (action : Action α) (store : Store) : Except Stop α × Store := action.run.run store

def Gives (action : Action α) (store : Store) (value : α) (after : Store) : Prop :=
  action.outcome store = (.ok value, after)

def Stops (action : Action α) (store : Store) (stop : Stop) (after : Store) : Prop :=
  action.outcome store = (.error stop, after)

@[simp]
theorem outcome_pure (value : α) (store : Store) :
    (pure value : Action α).outcome store = (.ok value, store) := rfl

@[simp]
theorem outcome_throw (stop : Stop) (store : Store) :
    (throw stop : Action α).outcome store = (.error stop, store) := rfl

@[simp]
theorem outcome_failAt (token : Token) (fault : Diagnostic) (store : Store) :
    (failAt token fault : Action α).outcome store =
      (.error (.failed (fault.placedAt token.position)), store) := rfl

@[simp]
theorem outcome_get (store : Store) : (get : Action Store).outcome store = (.ok store, store) := rfl

@[simp]
theorem outcome_modify (change : Store → Store) (store : Store) :
    (modify change : Action Unit).outcome store = (.ok (), change store) := rfl

theorem outcome_bind (action : Action α) (next : α → Action β) (store : Store) :
    (action >>= next).outcome store =
      match action.outcome store with
      | (.ok value, after) => (next value).outcome after
      | (.error stop, after) => (.error stop, after) := by
  simp only [outcome, ExceptT.run_bind, StateT.run_bind]
  rcases StateT.run action.run store with ⟨result, after⟩
  cases result <;> rfl

theorem outcome_allow (token : Token) (fault : Option Diagnostic) (store : Store) :
    (allow token fault).outcome store =
      match fault with
      | some fault => (.error (.failed (fault.placedAt token.position)), store)
      | none => (.ok (), store) := by
  cases fault <;> rfl

theorem outcome_lookup (scope : Scope) (name : Text) (token : Token) (store : Store) :
    (lookup scope name token).outcome store =
      match store.frames.lookup scope name with
      | .ok value => (.ok value, store)
      | .error fault => (.error (.failed (fault.placedAt token.position)), store) := by
  simp only [lookup, outcome_bind, outcome_get]
  cases store.frames.lookup scope name <;> rfl

theorem outcome_declare (scope : Scope) (name : Text) (value : Value) (constant : Bool)
    (token : Token) (store : Store) :
    (declare scope name value constant token).outcome store =
      match store.frames.declarationFault? scope name with
      | some fault => (.error (.failed (fault.placedAt token.position)), store)
      | none => (.ok value, { store with frames := store.frames.bind scope name value constant }) := by
  simp only [declare, outcome_bind, outcome_get, outcome_allow]
  cases store.frames.declarationFault? scope name <;> rfl

theorem outcome_assign (scope : Scope) (name : Text) (value : Value) (token : Token)
    (store : Store) :
    (assign scope name value token).outcome store =
      match store.frames.assignmentFault? scope name with
      | some fault => (.error (.failed (fault.placedAt token.position)), store)
      | none => (.ok value, { store with frames := store.frames.rebind scope name value }) := by
  simp only [assign, outcome_bind, outcome_get, outcome_allow]
  cases store.frames.assignmentFault? scope name <;> rfl

@[simp]
theorem outcome_enclosed (scope : Scope) (store : Store) :
    (enclosed scope).outcome store =
      (.ok (scope.enclose store.frames.size), { store with frames := store.frames.grow }) := rfl

@[simp]
theorem outcome_print (printed : Printed) (store : Store) :
    (print printed).outcome store =
      (.ok (), { store with printed := printed :: store.printed }) := rfl

@[simp]
theorem outcome_readClock (store : Store) :
    readClock.outcome store =
      (.ok store.machine.now, { store with machine := store.machine.after 1 }) := rfl

@[simp]
theorem outcome_time (given : List Value) (store : Store) :
    (Native.time.apply given).outcome store =
      (.ok (Native.timeValue store.machine.now given),
        { store with machine := store.machine.after 1 }) := rfl

@[simp]
theorem outcome_exit (given : List Value) (store : Store) :
    (Native.exit.apply given).outcome store =
      (.error (.halted (Native.haltOf store.machine given)), store) := rfl

theorem Gives.bind {action : Action α} {store : Store} {value : α} {after : Store}
    (gives : action.Gives store value after) (next : α → Action β) :
    (action >>= next).outcome store = (next value).outcome after := by
  rw [outcome_bind, gives]

theorem Stops.bind {action : Action α} {store : Store} {stop : Stop} {after : Store}
    (stops : action.Stops store stop after) (next : α → Action β) :
    (action >>= next).Stops store stop after := by
  rw [Stops, outcome_bind, stops]

theorem gives_or_stops (action : Action α) (store : Store) :
    (∃ value after, action.Gives store value after) ∨
      ∃ stop after, action.Stops store stop after := by
  rcases ended : action.outcome store with ⟨result, after⟩
  cases result with
  | ok value => exact Or.inl ⟨value, after, ended⟩
  | error stop => exact Or.inr ⟨stop, after, ended⟩

theorem Gives.not_stops {action : Action α} {store : Store} {value : α} {stop : Stop}
    {after other : Store} (gives : action.Gives store value after) :
    ¬ action.Stops store stop other := by
  intro stops
  rw [Stops, gives] at stops
  simp at stops

/-- What a sequence of two actions needs in order to give a value. -/
theorem gives_bind_iff {action : Action α} {next : α → Action β} {store after : Store} {value : β} :
    (action >>= next).Gives store value after ↔
      ∃ first between, action.Gives store first between ∧
        (next first).Gives between value after := by
  constructor
  · intro gives
    rcases gives_or_stops action store with ⟨first, between, head⟩ | ⟨stop, between, head⟩
    · exact ⟨first, between, head, (head.bind next).symm.trans gives⟩
    · exact absurd (head.bind next) gives.not_stops
  · rintro ⟨first, between, head, tail⟩
    exact (head.bind next).trans tail

/-- Two sequences end alike if their first actions do and then the rest does. -/
theorem outcome_bind_congr {action other : Action α} {next rest : α → Action β} {store : Store}
    (first : other.outcome store = action.outcome store)
    (then_ : ∀ value after, action.Gives store value after →
      (rest value).outcome after = (next value).outcome after) :
    (other >>= rest).outcome store = (action >>= next).outcome store := by
  rcases gives_or_stops action store with ⟨value, after, head⟩ | ⟨stop, after, head⟩
  · have head' : other.Gives store value after := first.trans head
    rw [head.bind, head'.bind, then_ value after head]
  · have head' : other.Stops store stop after := first.trans head
    rw [head.bind next, head'.bind rest]

/-- The action is not cut short by the bound on its steps. -/
def Ends (action : Action α) (store : Store) : Prop :=
  ∀ after, ¬ action.Stops store .exhausted after

theorem Ends.first {action : Action α} {next : α → Action β} {store : Store}
    (ends : (action >>= next).Ends store) : action.Ends store :=
  fun after stops => ends after (stops.bind next)

theorem Ends.second {action : Action α} {next : α → Action β} {store between : Store} {value : α}
    (ends : (action >>= next).Ends store) (gives : action.Gives store value between) :
    (next value).Ends between :=
  fun after stops => ends after ((gives.bind next).trans stops)

end Action

theorem Eval.outcome_sequence_append {eval : Eval.Evaluation} {scope : Scope} {first : List Stmt}
    {last value : Value} {store after : Store}
    (gives : (Eval.sequence eval scope last first).Gives store value after)
    (second : List Stmt) :
    (Eval.sequence eval scope last (first ++ second)).outcome store =
      (Eval.sequence eval scope value second).outcome after := by
  induction first generalizing last store with
  | nil =>
    cases gives
    rfl
  | cons statement rest ih =>
    obtain ⟨given, between, head, tail⟩ := Action.gives_bind_iff.mp gives
    exact (head.bind _).trans (ih tail)

/-- What can be evaluated on its own. -/
inductive Node where
  | program (statements : Program)
  | statement (single : Stmt)

def Node.eval (bound : Nat) : Node → Scope → Action Value
  | .program statements, scope => statements.eval bound scope
  | .statement single, scope => single.eval bound scope

end Scriptlet
