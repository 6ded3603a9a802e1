import Scriptlet.Proofs.Blame
import Scriptlet.Proofs.Containment
import Scriptlet.Proofs.Locality
/-!
Parameters without an argument. A call declares the parameters that there are arguments for, and the
body runs in a scope inside that of the function; so any other parameter that the body does not
declare means in the body what it means around the function. Reading and assigning it fail as for an
undeclared name exactly if no frame around the function binds it.
-/
namespace Scriptlet

open Scriptlet.Action Eval

/-- A call of a function reaches its body: the scope of the body, and the store at that time. -/
structure Enters (store : Store) (closure : Scope) (parameters : List Text) (given : List Value)
    (inside : Scope) (entered : Store) : Prop where
  inside_eq : inside = closure.enclose store.frames.size
  binds : ∃ token, (bindParameters inside token parameters given).Gives
    { store with frames := store.frames.grow } () entered

section Binding
variable {scope : Scope} {token : Token} {names : List Text} {given : List Value}
  {store after : Store}

theorem changes_of_bindParameters (binds : (bindParameters scope token names given).Gives store () after) :
    Policy.unrestricted.Changes store after := by
  have keeps : Policy.unrestricted.Keeps (bindParameters scope token names given) fun _ => True :=
    Policy.keeps_bindParameters ⟨trivial, fun _ => trivial⟩
      fun value _ => Policy.admits_all (fun _ => trivial) (fun _ => trivial) (fun _ => trivial) value
  exact keeps.changes (Policy.unrestricted_ready store) binds

/-- Only names that there are arguments for come to be bound, in the innermost frame of the scope. -/
theorem binds_of_bindParameters
    (binds : (bindParameters scope token names given).Gives store () after) {id : FrameId}
    {name : Text} (now : (after.frames.frame id).binds name = true) :
    (store.frames.frame id).binds name = true ∨
      (id = scope.innermost ∧ name ∈ names.take given.length) := by
  induction names generalizing given store with
  | nil =>
    cases binds
    exact Or.inl now
  | cons first names ih =>
    cases given with
    | nil =>
      cases binds
      exact Or.inl now
    | cons value given =>
      obtain ⟨_, between, declares, later⟩ := gives_bind_iff.mp binds
      rcases ih later with before | ⟨here, member⟩
      · rw [Gives, outcome_declare] at declares
        split at declares
        · cases declares
        · cases declares
          simp only [Frames.frame_bind] at before
          by_cases here : scope.innermost = id ∧ id < store.frames.size
          · rw [if_pos here, Frame.binds, Frame.find_declare] at before
            by_cases same : first = name
            · exact Or.inr ⟨here.1.symm, by simp [same]⟩
            · rw [if_neg same] at before
              exact Or.inl before
          · rw [if_neg here] at before
            exact Or.inl before
      · exact Or.inr ⟨here, by simp [member]⟩

end Binding

namespace Frames

variable {frames : Frames} {scope outer : Scope} {name : Text}

theorem owner?_of_front {front : List FrameId} (nested : scope.chain = front ++ outer.chain)
    (plain : ∀ id ∈ front, (frames.frame id).binds name = false) :
    frames.owner? scope name = frames.owner? outer name := by
  have none_ : (front.find? fun id => (frames.frame id).binds name) = none := by
    apply List.find?_eq_none.mpr
    intro id member
    rw [plain id member]
    exact Bool.false_ne_true
  rw [owner?, nested, List.find?_append, none_]
  rfl

end Frames

/-- The action stops with a fault of a code and changes nothing. -/
def Action.FailsWith {α : Type} (action : Action α) (store : Store) (code : Text) : Prop :=
  ∃ fault, action.Stops store (.failed fault) store ∧ fault.code = code

theorem Diagnostic.code_undeclared (name : Text) (available : List Text) :
    (Diagnostic.undeclared name available).code = utf8 "RESOLVE-0001" := by
  obtain ⟨hints, same⟩ := exists_hints_undeclared name available
  rw [same]
  rfl

section Names
variable {scope : Scope} {name : Text} {store : Store}

theorem lookup_failsWith_iff (token : Token) :
    (lookup scope name token).FailsWith store (utf8 "RESOLVE-0001") ↔
      store.frames.owner? scope name = none := by
  rw [← Frames.binding?_eq_none_iff]
  unfold FailsWith Stops
  rw [outcome_lookup, Frames.lookup, Frames.get?]
  rcases store.frames.binding? scope name with _ | b
  · simp [Diagnostic.placedAt, Diagnostic.code_undeclared]
  · simp

theorem assign_failsWith_iff (value : Value) (token : Token) :
    (assign scope name value token).FailsWith store (utf8 "RESOLVE-0004") ↔
      store.frames.owner? scope name = none := by
  rw [← Frames.binding?_eq_none_iff]
  unfold FailsWith Stops
  rw [outcome_assign, Frames.assignmentFault?]
  rcases store.frames.binding? scope name with _ | ⟨_, _, constant⟩
  · simp only [Prod.mk.injEq, Except.error.injEq, Stop.failed.injEq, and_true, exists_eq_left',
      iff_true]
    rfl
  · -- a constant is refused too, with a code of its own
    have differ : Fault.assignedConstant.entry.code ≠ utf8 "RESOLVE-0004" := by decide
    cases constant <;> simp [Diagnostic.placedAt, Fault.about, Fault.diagnose, differ]

end Names

section Body
variable {store entered : Store} {closure inside : Scope} {parameters : List Text}
  {given : List Value} {statements : List Stmt} {bound : Nat}

/-- The body of a call, from the store in which it starts. -/
abbrev bodyTask (bound : Nat) (statements : List Stmt) (inside : Scope) (entered : Store) : Task :=
  ⟨bound, .program statements, inside, entered⟩

/-- A time at which a name of the task is read or assigned: at its start, or when it has ended. -/
def Task.Moment (task : Task) (now : Store) : Prop := now = task.store ∨ now = task.outcome.2

theorem Task.changes_of_moment {policy : Policy} {whole part : Task} {now : Store}
    (within : whole.Within policy) (performed : Relation.ReflTransGen Performs whole part)
    (moment : part.Moment now) : policy.Changes whole.store now := by
  have reached := changes_of_reflTransGen within performed
  rcases moment with rfl | rfl
  · exact reached
  · have inner := within_of_reflTransGen within performed
    have keeps := Policy.keeps_eval inner.enters inner.runs inner.declares part.bound
    exact reached.trans (keeps part.store inner.ready).1

namespace Enters

theorem size_lt (enters : Enters store closure parameters given inside entered) :
    inside.innermost = store.frames.size ∧ store.frames.size < entered.frames.size := by
  obtain ⟨rfl, token, binds⟩ := enters
  refine ⟨rfl, ?_⟩
  have grown := (changes_of_bindParameters binds).size_le
  rw [Frames.size_grow] at grown
  exact grown

variable (enters : Enters store closure parameters given inside entered) {part : Task}
  (performed : Relation.ReflTransGen Task.Performs (bodyTask bound statements inside entered) part)
  {now : Store} (moment : part.Moment now) {name : Text}
include performed moment

theorem changes_declaring :
    (Policy.declaring entered.frames.size inside.innermost (Node.program statements).declared).Changes
      entered now := by
  have within : (bodyTask bound statements inside entered).Within (Policy.declaring
      entered.frames.size inside.innermost (Node.program statements).declared) :=
    ⟨fun _ _ => trivial, trivial, fun _ declared => Or.inr ⟨rfl, declared⟩,
      Policy.declaring_ready (Nat.le_refl _)⟩
  exact Task.changes_of_moment within performed moment

include enters

/-- While the body runs, a frame that was there before the call binds the names that it bound then. -/
theorem binds_eq {id : FrameId} (existing : id < store.frames.size) :
    (now.frames.frame id).binds name = (store.frames.frame id).binds name := by
  have changes := changes_declaring performed moment
  obtain ⟨innermost, below⟩ := enters.size_lt
  obtain ⟨-, token, binds⟩ := enters
  apply Bool.eq_iff_iff.mpr
  constructor
  · intro bound
    rcases changes.declares bound with before | own | ⟨here, -⟩
    · rcases binds_of_bindParameters binds before with before | ⟨here, -⟩
      · simpa only [Frames.frame_grow] using before
      · exact absurd (here.trans innermost) (Nat.ne_of_lt existing)
    · exact absurd own (Nat.not_le.mpr (Nat.lt_trans existing below))
    · exact absurd (here.trans innermost) (Nat.ne_of_lt existing)
  · intro bound
    apply changes.persist.binds
    apply (changes_of_bindParameters binds).persist.binds
    simpa only [Frames.frame_grow] using bound

/-- The frame of the call binds arguments and what the body declares. -/
theorem binds_eq_false (unbound : name ∉ parameters.take given.length)
    (undeclared : name ∉ (Node.program statements).declared) :
    (now.frames.frame inside.innermost).binds name = false := by
  have changes := changes_declaring performed moment
  obtain ⟨innermost, below⟩ := enters.size_lt
  obtain ⟨-, token, binds⟩ := enters
  apply Bool.eq_false_iff.mpr
  intro bound
  rcases changes.declares bound with before | own | ⟨-, declared⟩
  · rcases binds_of_bindParameters binds before with fresh | ⟨-, argument⟩
    · simp [innermost, Frames.frame, Frame.binds, Frame.find, Frames.grow] at fresh
    · exact unbound argument
  · exact absurd own (Nat.not_le.mpr (innermost ▸ below))
  · exact undeclared declared

/-- A name that is neither bound to an argument nor declared by the body means in the body what it
meant around the function. -/
theorem owner?_eq (existing : ∀ id ∈ closure.chain, id < store.frames.size)
    (unbound : name ∉ parameters.take given.length)
    (undeclared : name ∉ (Node.program statements).declared) {blocks : List FrameId}
    (nested : part.scope.chain = blocks ++ inside.chain)
    (plain : ∀ id ∈ blocks, (now.frames.frame id).binds name = false) :
    now.frames.owner? part.scope name = store.frames.owner? closure name := by
  have around : inside.chain = [inside.innermost] ++ closure.chain := by
    rw [enters.inside_eq]
    rfl
  have own := enters.binds_eq_false performed moment unbound undeclared
  calc now.frames.owner? part.scope name
    _ = now.frames.owner? inside name := Frames.owner?_of_front nested plain
    _ = now.frames.owner? closure name := by
      apply Frames.owner?_of_front around
      intro id member
      rw [List.mem_singleton.mp member]
      exact own
    _ = store.frames.owner? closure name := by
      apply Frames.owner?_congr
      intro id member
      exact enters.binds_eq performed moment (existing id member)

end Enters

end Body

/-- While the body of a call runs, a parameter without an argument that the body does not declare is
the variable that it is around the function: where the body itself, or a block or a function in it
that does not declare the name either, reads or assigns it, that fails as for an undeclared name,
with nothing changed, exactly if no frame around the function bound the name at the call. -/
theorem missing_parameter_undeclared_iff {store entered : Store} {closure inside : Scope}
    {parameters : List Text} {given : List Value} {statements : List Stmt} {bound : Nat}
    (existing : ∀ id ∈ closure.chain, id < store.frames.size)
    (enters : Enters store closure parameters given inside entered) {part : Task}
    (performed : Relation.ReflTransGen Task.Performs (bodyTask bound statements inside entered) part)
    {now : Store} (moment : part.Moment now) {blocks : List FrameId}
    (nested : part.scope.chain = blocks ++ inside.chain) :
    ∀ name ∈ parameters.drop given.length, name ∉ parameters.take given.length →
      name ∉ (Node.program statements).declared →
        (∀ id ∈ blocks, (now.frames.frame id).binds name = false) →
          now.frames.owner? part.scope name = store.frames.owner? closure name ∧
            (∀ token, (lookup part.scope name token).FailsWith now (utf8 "RESOLVE-0001") ↔
              ∀ id ∈ closure.chain, (store.frames.frame id).binds name = false) ∧
            ∀ value token,
              (assign part.scope name value token).FailsWith now (utf8 "RESOLVE-0004") ↔
                ∀ id ∈ closure.chain, (store.frames.frame id).binds name = false := by
  intro name _ unbound undeclared plain
  have owner := enters.owner?_eq performed moment existing unbound undeclared nested plain
  have nowhere : now.frames.owner? part.scope name = none ↔
      ∀ id ∈ closure.chain, (store.frames.frame id).binds name = false := by
    rw [owner, Frames.owner?, List.find?_eq_none]
    simp only [Bool.not_eq_true]
  refine ⟨owner, ?_, ?_⟩
  · intro token
    rw [lookup_failsWith_iff, nowhere]
  · intro value token
    rw [assign_failsWith_iff, nowhere]

/-- A new interpreter's store in which some names are declared. -/
def globalStore (bindings : List Binding) : Store :=
  { Interpreter.freshStore (.still ⟨2024, 3, 9, 14, 5, 7, 0⟩) with
    frames := #[bindings ++ Frame.predeclared] }

/-- The store when the body of `f(a, b)` is reached by the call `f("x")`. -/
def calledStore (bindings : List Binding) : Store :=
  { globalStore bindings with
    frames := #[bindings ++ Frame.predeclared, [⟨utf8 "a", .string (utf8 "x"), false⟩]] }

theorem calledStore_enters (bindings : List Binding) :
    Enters (globalStore bindings) Interpreter.globalScope [utf8 "a", utf8 "b"]
      [.string (utf8 "x")] ⟨1, [0]⟩ (calledStore bindings) :=
  ⟨rfl, .none, rfl⟩

/-- The identifier `b` as a statement. -/
def readsB : Stmt := .expr (.ident ⟨.none, utf8 "b"⟩)

/-- `if (true) { b; }` -/
def readsBInside : Stmt := .branch ⟨.none, .ident ⟨.none, utf8 "true"⟩, [readsB]⟩ []

-- The name is read in a block inside the body, and no frame around the function binds it.
theorem readsBInside_undeclared :
    ∃ part : Task, part.node = .statement readsB ∧
      Relation.ReflTransGen Task.Performs
        (bodyTask 3 [readsBInside] ⟨1, [0]⟩ (calledStore [])) part ∧
      (lookup part.scope (utf8 "b") .none).FailsWith part.store (utf8 "RESOLVE-0001") ∧
      (assign part.scope (utf8 "b") .null .none).FailsWith part.store (utf8 "RESOLVE-0004") := by
  have first := @Task.Performs.program 3 [readsBInside] ⟨1, [0]⟩ (calledStore []) _ .head
  have second := Relation.ReflTransGen.tail (.single first) (.statement (.link rfl (.body rfl .head)))
  have nested : Scope.chain ⟨2, [1, 0]⟩ = [2] ++ Scope.chain ⟨1, [0]⟩ := rfl
  obtain ⟨-, lookupFails, assignFails⟩ := missing_parameter_undeclared_iff (by decide)
    (calledStore_enters []) second (.inl rfl) nested (utf8 "b") (by decide) (by decide) (by decide)
    (by decide)
  exact ⟨_, rfl, second, (lookupFails .none).mpr (by decide),
    (assignFails .null .none).mpr (by decide)⟩

/-- A parameter without an argument can be read in the body: as the variable of its name around the
function. -/
theorem missing_parameter_not_always_undeclared :
    ¬ ∀ (store entered : Store) (closure inside : Scope) (parameters : List Text)
      (given : List Value) (statements : List Stmt) (bound : Nat) (part : Task) (name : Text)
      (token : Token), (∀ id ∈ closure.chain, id < store.frames.size) →
        Enters store closure parameters given inside entered → name ∈ parameters.drop given.length →
          name ∉ parameters.take given.length → name ∉ (Node.program statements).declared →
            Relation.ReflTransGen Task.Performs (bodyTask bound statements inside entered) part →
              part.scope = inside →
                (lookup part.scope name token).FailsWith part.store (utf8 "RESOLVE-0001") := by
  intro always
  have performed := @Task.Performs.program 3 [readsB] ⟨1, [0]⟩
    (calledStore [⟨utf8 "b", .string (utf8 "outer"), false⟩]) _ .head
  have failed := always _ _ _ _ _ _ _ _ _ (utf8 "b") .none (by decide) (calledStore_enters _)
    (by decide) (by decide) (by decide) (.single performed) rfl
  exact absurd ((lookup_failsWith_iff _).mp failed) (by decide)

end Scriptlet
