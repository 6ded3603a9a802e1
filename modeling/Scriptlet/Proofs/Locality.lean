import Scriptlet.Proofs.Persistence
/-!
Declarations are local. Of the frames that exist when a node is evaluated, only the innermost one of
its scope can come to bind further names, and only those that the node itself declares: bodies of
conditionals, loops and functions declare theirs in frames of their own.
-/
namespace Scriptlet

open Scriptlet.Action

/-- Declarations of some names in one frame, and of any name in frames from a number on. -/
def Policy.declaring (base frame : FrameId) (names : List Text) : Policy where
  runs _ := True
  enters _ := True
  declares id name := base ≤ id ∨ (id = frame ∧ name ∈ names)
  base := base
  runs_parts _ _ _ := trivial
  enters_own _ _ := trivial
  declares_own own _ := Or.inl own

theorem Policy.declaring_ready {base frame : FrameId} {names : List Text} {store : Store}
    (base_le : base ≤ store.frames.size) : (Policy.declaring base frame names).Ready store :=
  ⟨base_le, fun _ b _ => Policy.admits_all (fun _ => trivial) (fun _ => trivial) (fun _ => trivial) b.value⟩

/-- A name that comes to be bound is one that the policy lets be declared there. -/
theorem Policy.Change.declares {policy : Policy} {store after : Store}
    (change : policy.Change store after) {id : FrameId} {name : Text}
    (bound : (after.frames.frame id).binds name = true) :
    (store.frames.frame id).binds name = true ∨ policy.declares id name := by
  cases change with
  | @declare scope declared _ _ _ declares _ _ =>
    simp only [Frames.frame_bind] at bound
    split at bound
    · rename_i here
      by_cases same : declared = name
      · subst same
        exact Or.inr (here.1 ▸ declares)
      · rw [Frame.binds, Frame.find_declare, if_neg same] at bound
        exact Or.inl bound
    · exact Or.inl bound
  | assign =>
    simp only [Frames.frame_rebind] at bound
    split at bound
    · rw [Frame.binds, Frame.find_update, Option.isSome_map] at bound
      exact Or.inl bound
    · exact Or.inl bound
  | enclose =>
    simp only [Frames.frame_grow] at bound
    exact Or.inl bound
  | print | read => exact Or.inl bound

theorem Policy.Changes.declares {policy : Policy} {store after : Store}
    (changes : policy.Changes store after) {id : FrameId} {name : Text}
    (bound : (after.frames.frame id).binds name = true) :
    (store.frames.frame id).binds name = true ∨ policy.declares id name := by
  induction changes with
  | refl => exact Or.inl bound
  | tail _ change ih =>
    rcases change.declares bound with before | new
    · exact ih before
    · exact Or.inr new

theorem Node.changes_declaring (bound : Nat) (node : Node) (scope : Scope) (store : Store) :
    (Policy.declaring store.frames.size scope.innermost node.declared).Changes store
      ((node.eval bound scope).outcome store).2 := by
  have keeps : (Policy.declaring store.frames.size scope.innermost node.declared).Keeps
      (node.eval bound scope) (Policy.declaring _ _ _).Admits :=
    Policy.keeps_eval trivial (fun _ _ => trivial) (fun _ member => Or.inr ⟨rfl, member⟩) bound
  exact (keeps store (Policy.declaring_ready (Nat.le_refl _))).1

/-- Of the frames there were before, a name is bound in one of them after an evaluation if it was
before, or if it is declared by the node itself in the innermost frame of its scope. -/
theorem Node.binds_after {bound : Nat} {node : Node} {scope : Scope} {store : Store} {id : FrameId}
    (existing : id < store.frames.size) {name : Text}
    (now : (((node.eval bound scope).outcome store).2.frames.frame id).binds name = true) :
    (store.frames.frame id).binds name = true ∨ (id = scope.innermost ∧ name ∈ node.declared) := by
  rcases (Node.changes_declaring bound node scope store).declares now with before | own | declared
  · exact Or.inl before
  · exact absurd own (Nat.not_le.mpr existing)
  · exact Or.inr declared

theorem Node.binds_of_before {bound : Nat} {node : Node} {scope : Scope} {store : Store}
    {id : FrameId} {name : Text} (before : (store.frames.frame id).binds name = true) :
    (((node.eval bound scope).outcome store).2.frames.frame id).binds name = true :=
  (Node.changes_declaring bound node scope store).persist.binds before

/-- A frame in which the node declares nothing binds the same names after its evaluation. -/
theorem Node.binds_eq {bound : Nat} {node : Node} {scope : Scope} {store : Store} {id : FrameId}
    (existing : id < store.frames.size)
    (elsewhere : id = scope.innermost → node.declared = []) (name : Text) :
    (((node.eval bound scope).outcome store).2.frames.frame id).binds name =
      (store.frames.frame id).binds name := by
  apply Bool.eq_iff_iff.mpr
  constructor
  · intro now
    rcases Node.binds_after existing now with before | ⟨innermost, declared⟩
    · exact before
    · rw [elsewhere innermost] at declared
      cases declared
  · exact Node.binds_of_before

/-- Of the frames there were before, all but the innermost of the scope bind the same names after any
evaluation. That one binds the same and at most those that the node declares itself: none unless it
is a declaration, or a program with declarations among its statements. -/
theorem declarations_local (bound : Nat) (node : Node) (scope : Scope) (store : Store) :
    (∀ id < store.frames.size, id ≠ scope.innermost → ∀ name,
        (((node.eval bound scope).outcome store).2.frames.frame id).binds name =
          (store.frames.frame id).binds name) ∧
      (scope.innermost < store.frames.size → ∀ name,
        ((store.frames.frame scope.innermost).binds name = true →
          (((node.eval bound scope).outcome store).2.frames.frame scope.innermost).binds name =
            true) ∧
        ((((node.eval bound scope).outcome store).2.frames.frame scope.innermost).binds name =
            true →
          (store.frames.frame scope.innermost).binds name = true ∨ name ∈ node.declared)) ∧
      (scope.innermost < store.frames.size → ∀ single, node = .statement single →
        (∀ d, single ≠ .declare d) → (∀ token ident parameters statements,
          single ≠ .function token ident parameters statements) → ∀ name,
            (((node.eval bound scope).outcome store).2.frames.frame scope.innermost).binds name =
              (store.frames.frame scope.innermost).binds name) := by
  refine ⟨?_, ?_, ?_⟩
  · intro id existing other name
    exact Node.binds_eq existing (fun same => absurd same other) name
  · intro existing name
    refine ⟨Node.binds_of_before, ?_⟩
    intro now
    rcases Node.binds_after existing now with before | ⟨-, declared⟩
    · exact Or.inl before
    · exact Or.inr declared
  · rintro existing single rfl notVariable notFunction name
    refine Node.binds_eq existing (fun _ => ?_) name
    cases single with
    | declare d => exact absurd rfl (notVariable d)
    | function token ident parameters statements => exact absurd rfl (notFunction _ _ _ _)
    | _ => rfl

/-- `if (true) { let y; }` -/
def declaringBranch : Stmt :=
  .branch ⟨.none, .ident ⟨.none, utf8 "true"⟩, [.declare ⟨.none, ⟨.none, utf8 "y"⟩, false, .absent⟩]⟩
    []

/-- A store with a global frame and an empty one, which is the innermost of a scope. -/
def twoFrames : Store :=
  { Interpreter.freshStore (.still ⟨2024, 3, 9, 14, 5, 7, 0⟩) with frames := #[Frame.predeclared, []] }

theorem declaringBranch_local :
    (((declaringBranch.eval 3 ⟨1, [0]⟩).outcome twoFrames).2.frames.frame 0).binds (utf8 "y") =
        false ∧
      (((declaringBranch.eval 3 ⟨1, [0]⟩).outcome twoFrames).2.frames.frame 1).binds (utf8 "y") =
        false ∧
      ((((declaringBranch.eval 3 ⟨1, [0]⟩).outcome twoFrames).2.frames.frame 2).binds (utf8 "y") =
        true) ∧
      ((((Node.program [declaringBranch]).eval 3 ⟨1, [0]⟩).outcome twoFrames).2.frames.frame
        1).binds (utf8 "y") = false := by
  have single := declarations_local 3 (.statement declaringBranch) ⟨1, [0]⟩ twoFrames
  have program := declarations_local 3 (.program [declaringBranch]) ⟨1, [0]⟩ twoFrames
  refine ⟨?_, ?_, rfl, ?_⟩
  · exact (single.1 0 (by decide) (by decide) (utf8 "y")).trans rfl
  · exact (single.2.2 (by decide) declaringBranch rfl (by simp [declaringBranch])
      (by simp [declaringBranch]) (utf8 "y")).trans rfl
  · have atMost := ((program.2.1 (by decide) (utf8 "y")).2)
    apply Bool.eq_false_iff.mpr
    intro now
    rcases atMost now with before | declared
    · exact absurd before (by decide)
    · cases declared

end Scriptlet
