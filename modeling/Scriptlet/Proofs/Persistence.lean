import Scriptlet.Interpreter
import Scriptlet.Proofs.Effects
/-!
Bindings persist. Whatever is evaluated, in whatever scope and to whatever end, a name stays bound
in the frame that binds it, and it stays constant or not constant; a constant keeps its value. So the
names that programs start with always stand for the same values.
-/
namespace Scriptlet

open Scriptlet.Action

/-- The policy that allows everything. -/
def Policy.unrestricted : Policy where
  runs _ := True
  enters _ := True
  declares _ _ := True
  base := 0
  runs_parts _ _ _ := trivial
  enters_own _ _ := trivial
  declares_own _ _ := trivial

theorem Policy.unrestricted_ready (store : Store) : Policy.unrestricted.Ready store :=
  ⟨Nat.zero_le _, fun _ b _ =>
    Policy.admits_all (fun _ => trivial) (fun _ => trivial) (fun _ => trivial) b.value⟩

/-- What may become of a binding: its value may change unless it is constant. -/
structure Binding.Follows (later earlier : Binding) : Prop where
  constant : later.constant = earlier.constant
  value : earlier.constant = true → later.value = earlier.value

theorem Binding.Follows.refl (b : Binding) : b.Follows b := ⟨rfl, fun _ => rfl⟩

theorem Binding.Follows.trans {last later earlier : Binding} (second : last.Follows later)
    (first : later.Follows earlier) : last.Follows earlier := by
  refine ⟨second.constant.trans first.constant, ?_⟩
  intro constant
  have kept := second.value (first.constant.trans constant)
  exact kept.trans (first.value constant)

namespace Frames

/-- Every binding is still there, as itself or as what may become of it. -/
def Persist (before after : Frames) : Prop :=
  ∀ id name b, (before.frame id).find name = some b →
    ∃ later, (after.frame id).find name = some later ∧ later.Follows b

variable {frames : Frames} {scope : Scope} {name : Text} {value : Value} {constant : Bool}

theorem Persist.refl (frames : Frames) : frames.Persist frames :=
  fun _ _ b found => ⟨b, found, .refl b⟩

theorem Persist.trans {before between after : Frames} (first : before.Persist between)
    (second : between.Persist after) : before.Persist after := by
  intro id name b found
  obtain ⟨later, foundLater, follows⟩ := first id name b found
  obtain ⟨last, foundLast, more⟩ := second id name later foundLater
  exact ⟨last, foundLast, more.trans follows⟩

-- A declaration is refused where the name is bound, so it hides no binding of its frame.
theorem persist_bind (allowed : frames.declarationFault? scope name = none) :
    frames.Persist (frames.bind scope name value constant) := by
  intro id other b found
  have free := declarationFault?_eq_none_iff.mp allowed
  refine ⟨b, ?_, .refl b⟩
  rw [frame_bind]
  split
  · rename_i here
    have different : name ≠ other := by
      rintro rfl
      rw [here.1, found] at free
      cases free
    rw [Frame.find_declare, if_neg different]
    exact found
  · exact found

theorem persist_rebind (allowed : frames.assignmentFault? scope name = none) :
    frames.Persist (frames.rebind scope name value) := by
  intro id other b found
  rw [frame_rebind]
  split
  · rename_i owned
    rw [Frame.find_update, found]
    by_cases same : other = name
    · subst same
      have variable_ := not_constant_of_assignmentFault? allowed owned found
      refine ⟨{ b with value }, by simp, rfl, ?_⟩
      intro constant
      rw [variable_] at constant
      cases constant
    · exact ⟨b, by simp [same], .refl b⟩
  · exact ⟨b, found, .refl b⟩

theorem persist_grow (frames : Frames) : frames.Persist frames.grow := by
  intro id name b found
  exact ⟨b, by rw [frame_grow]; exact found, .refl b⟩

theorem Persist.binds {before after : Frames} (persist : before.Persist after) {id : FrameId}
    (bound : (before.frame id).binds name = true) : (after.frame id).binds name = true := by
  obtain ⟨b, found⟩ := Frame.binds_iff.mp bound
  obtain ⟨later, foundLater, -⟩ := persist id name b found
  exact Frame.binds_iff.mpr ⟨later, foundLater⟩

end Frames

theorem Policy.Change.persist {policy : Policy} {store after : Store}
    (change : policy.Change store after) : store.frames.Persist after.frames := by
  cases change with
  | declare _ _ _ allowed => exact Frames.persist_bind allowed
  | assign _ _ allowed => exact Frames.persist_rebind allowed
  | enclose => exact Frames.persist_grow _
  | print | read => exact .refl _

theorem Policy.Changes.persist {policy : Policy} {store after : Store}
    (changes : policy.Changes store after) : store.frames.Persist after.frames := by
  induction changes with
  | refl => exact .refl _
  | tail _ change ih => exact ih.trans change.persist

/-- One evaluation after another: of any nodes, in any scopes, however they end. -/
inductive Store.Evaluates : Store → Store → Prop where
  | step (store : Store) (bound : Nat) (node : Node) (scope : Scope) :
      Evaluates store ((node.eval bound scope).outcome store).2

abbrev Store.Reaches : Store → Store → Prop := Relation.ReflTransGen Store.Evaluates

theorem Store.Evaluates.changes {store after : Store} (evaluates : store.Evaluates after) :
    Policy.unrestricted.Changes store after := by
  cases evaluates with
  | step bound node scope =>
    have keeps : Policy.unrestricted.Keeps (node.eval bound scope) Policy.unrestricted.Admits :=
      Policy.keeps_eval trivial (fun _ _ => trivial) (fun _ _ => trivial) bound
    exact (keeps store (Policy.unrestricted_ready store)).1

theorem Store.Reaches.persist {store after : Store} (reaches : store.Reaches after) :
    store.frames.Persist after.frames := by
  induction reaches with
  | refl => exact .refl _
  | tail _ evaluates ih => exact ih.trans evaluates.changes.persist

/-- The name that a statement declares as a constant. -/
def Stmt.constants : Stmt → List Text
  | .declare d => if d.constant then [d.name.text] else []
  | .function _ name _ _ => [name.text]
  | _ => []

/-- What could be declared was free, and is bound to the value that was given. -/
theorem find_of_declare {scope : Scope} {name : Text} {value given : Value} {constant : Bool}
    {token : Token} {store after : Store} (there : scope.innermost < store.frames.size)
    (gives : (declare scope name value constant token).Gives store given after) :
    (store.frames.frame scope.innermost).find name = none ∧
      (after.frames.frame scope.innermost).find name = some ⟨name, given, constant⟩ := by
  rw [Gives, outcome_declare] at gives
  split at gives
  · cases gives
  · rename_i allowed
    cases gives
    refine ⟨Frames.declarationFault?_eq_none_iff.mp allowed, ?_⟩
    rw [Frames.frame_bind, if_pos ⟨rfl, there⟩, Frame.find_declare, if_pos rfl]

/-- A name that could be declared was free in the innermost frame, and is bound there to the value of
its declaration. -/
theorem Stmt.find_of_declared {bound : Nat} {single : Stmt} {scope : Scope} {store after : Store}
    {value : Value} (there : scope.innermost < store.frames.size)
    (gives : (single.eval bound scope).Gives store value after) {name : Text}
    (declared : name ∈ single.declared) :
    (store.frames.frame scope.innermost).find name = none ∧
      (after.frames.frame scope.innermost).find name =
        some ⟨name, value, decide (name ∈ single.constants)⟩ := by
  cases bound with
  | zero => cases gives
  | succ bound =>
    cases single with
    | function token ident parameters statements =>
      obtain rfl := List.mem_singleton.mp declared
      simpa [Stmt.constants] using find_of_declare there gives
    | declare d =>
      obtain rfl := List.mem_singleton.mp declared
      obtain ⟨initial, between, computed, declares⟩ := gives_bind_iff.mp gives
      have keeps : Policy.unrestricted.Keeps (Eval.optionalValue (Stmt.eval bound) scope d.value)
          Policy.unrestricted.Admits :=
        Policy.keeps_optionalValue (Policy.respects_eval bound) trivial fun _ _ => trivial
      have changes := keeps.changes (Policy.unrestricted_ready store) computed
      have mark : decide (d.name.text ∈ (Stmt.declare d).constants) = d.constant := by
        cases isConstant : d.constant <;> simp [Stmt.constants, isConstant]
      obtain ⟨free, found⟩ := find_of_declare (Nat.lt_of_lt_of_le there changes.size_le) declares
      -- the name was free when the value had been computed, so it was free before that
      refine ⟨Option.eq_none_iff_forall_ne_some.mpr fun b earlier => ?_, mark ▸ found⟩
      obtain ⟨later, foundLater, -⟩ := changes.persist scope.innermost d.name.text b earlier
      rw [free] at foundLater
      cases foundLater
    | _ => cases declared

/-- A constant that could be declared is bound in the innermost frame, to the value of its
declaration. -/
theorem Stmt.find_of_constants {bound : Nat} {single : Stmt} {scope : Scope} {store after : Store}
    {value : Value} (there : scope.innermost < store.frames.size)
    (gives : (single.eval bound scope).Gives store value after) {name : Text}
    (constant : name ∈ single.constants) :
    (after.frames.frame scope.innermost).find name = some ⟨name, value, true⟩ := by
  have declared : name ∈ single.declared := by
    cases single with
    | declare d =>
      rcases isConstant : d.constant with _ | _ <;> simp [Stmt.constants, isConstant] at constant
      exact List.mem_singleton.mpr constant
    | function => exact constant
    | _ => cases constant
  have found := (Stmt.find_of_declared there gives declared).2
  rwa [decide_eq_true constant] at found

/-- In every store that evaluations reach from a new interpreter, and after any further evaluations:
what is bound is still bound, constant if and only if it was, and to the same value if it is
constant. The names that programs start with are as in the beginning, and what `const` and `func`
declare is constant. -/
theorem bindings_persist {machine : Machine} {store after : Store}
    (reached : (Interpreter.freshStore machine).Reaches store) (further : store.Reaches after) :
    (∀ id name b, (store.frames.frame id).find name = some b →
        ∃ later, (after.frames.frame id).find name = some later ∧
          later.constant = b.constant ∧ (b.constant = true → later.value = b.value)) ∧
      (∀ b ∈ Frame.predeclared,
        (after.frames.frame Interpreter.globalScope.innermost).find b.name = some b) ∧
      (∀ bound single scope value ended, scope.innermost < store.frames.size →
        (Stmt.eval bound single scope).Gives store value ended → ∀ name ∈ single.constants,
          (ended.frames.frame scope.innermost).find name = some ⟨name, value, true⟩) := by
  refine ⟨?_, ?_, ?_⟩
  · intro id name b found
    obtain ⟨later, foundLater, follows⟩ := further.persist id name b found
    exact ⟨later, foundLater, follows.constant, follows.value⟩
  · intro b member
    have first : ((Interpreter.freshStore machine).frames.frame 0).find b.name = some b ∧
        b.constant = true := by
      simp only [Frame.predeclared, List.mem_cons, List.not_mem_nil, or_false] at member
      rcases member with rfl | rfl | rfl | rfl | rfl | rfl | rfl <;> exact ⟨rfl, rfl⟩
    have all : (Interpreter.freshStore machine).Reaches after := reached.trans further
    obtain ⟨later, foundLater, follows⟩ := all.persist 0 b.name b first.1
    have sameName : later.name = b.name := Frame.name_of_find foundLater
    have sameValue := follows.value first.2
    have sameMark := follows.constant
    rcases later with ⟨name, value, constant⟩
    subst sameName sameValue sameMark
    exact foundLater
  · intro bound single scope value ended there gives name declared
    exact Stmt.find_of_constants there gives declared

/-- `const k = true;` -/
def constantK : Stmt := .declare ⟨.none, ⟨.none, utf8 "k"⟩, true, .ident ⟨.none, utf8 "true"⟩⟩

/-- `k = null;` -/
def assignmentToK : Stmt :=
  .expr (.assign .none (.ident ⟨.none, utf8 "k"⟩) (.ident ⟨.none, utf8 "null"⟩))

/-- The store with the constant. -/
def storeWithK : Store :=
  ((constantK.eval 2 Interpreter.globalScope).outcome
    (Interpreter.freshStore (.still ⟨2024, 3, 9, 14, 5, 7, 0⟩))).2

theorem constant_survives_assignment :
    (∃ later, ((((assignmentToK.eval 2 Interpreter.globalScope).outcome storeWithK).2.frames.frame
        0).find (utf8 "k")) = some later ∧ later.constant = true ∧ later.value = .boolean true) ∧
      (storeWithK.frames.frame 0).find (utf8 "exit") = some ⟨utf8 "exit", .native .exit, true⟩ ∧
      (storeWithK.frames.frame 0).find (utf8 "k") = some ⟨utf8 "k", .boolean true, true⟩ := by
  have declares : (Interpreter.freshStore (.still ⟨2024, 3, 9, 14, 5, 7, 0⟩)).Reaches storeWithK :=
    .single (.step _ 2 (.statement constantK) Interpreter.globalScope)
  have attempts := Relation.ReflTransGen.single
    (Store.Evaluates.step storeWithK 2 (.statement assignmentToK) Interpreter.globalScope)
  obtain ⟨later, found, constant, value⟩ :=
    (bindings_persist declares attempts).1 0 (utf8 "k") ⟨utf8 "k", .boolean true, true⟩ rfl
  have exit_ := (bindings_persist .refl declares).2.1 ⟨utf8 "exit", .native .exit, true⟩
    (by simp [Frame.predeclared])
  have declared := (bindings_persist .refl declares).2.2 2 constantK Interpreter.globalScope
    (.boolean true) storeWithK (by decide) rfl (utf8 "k") List.mem_cons_self
  exact ⟨⟨later, found, constant, value rfl⟩, exit_, declared⟩

end Scriptlet
