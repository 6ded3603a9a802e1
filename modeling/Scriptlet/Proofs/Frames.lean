import Mathlib.Data.List.Find
import Scriptlet.Value.Frame
/-!
What the operations on frames do to the bindings that are found: a declaration adds one where there
was none, an assignment changes the value of one that is not constant, and a new frame is empty.
-/
namespace Scriptlet

theorem Text.nodup_eraseDups : (texts : List Text) → texts.eraseDups.Nodup
  | [] => List.nodup_nil
  | text :: rest => by
    rw [List.eraseDups_cons, List.nodup_cons]
    exact ⟨by simp [List.mem_eraseDups], nodup_eraseDups _⟩
termination_by texts => texts.length
decreasing_by exact Nat.lt_succ_of_le (List.length_filter_le ..)

namespace Frame

variable {frame : Frame} {name other : Text} {value : Value}

theorem name_of_find {b : Binding} (found : frame.find name = some b) : b.name = name := by
  have matched := List.find?_some found
  exact beq_iff_eq.mp matched

theorem mem_of_find {b : Binding} (found : frame.find name = some b) : b ∈ frame :=
  List.mem_of_find?_eq_some found

theorem binds_iff : frame.binds name = true ↔ ∃ b, frame.find name = some b :=
  Option.isSome_iff_exists

theorem mem_names_iff : name ∈ frame.names ↔ frame.binds name = true := by
  unfold names binds find
  rw [List.find?_isSome, List.mem_map]
  simp

theorem find_declare (constant : Bool) :
    (frame.declare name value constant).find other =
      if name = other then some ⟨name, value, constant⟩ else frame.find other := by
  unfold declare find
  by_cases same : name = other <;> simp [same]

theorem name_comp_update (p : Text → Bool) :
    ((fun b : Binding => p b.name) ∘
        fun b : Binding => if b.name = name then { b with value } else b) = fun b => p b.name := by
  funext b
  by_cases same : b.name = name <;> simp [same]

theorem find_update :
    (frame.update name value).find other =
      (frame.find other).map fun b => if other = name then { b with value } else b := by
  unfold update find
  rw [List.find?_map, name_comp_update (· == other)]
  apply Option.map_congr
  intro b found
  have called : b.name = other := name_of_find found
  rw [called]

theorem binds_update : (frame.update name value).binds other = frame.binds other := by
  rw [binds, find_update, Option.isSome_map, binds]

theorem mem_update {b : Binding} (member : b ∈ frame.update name value) :
    b ∈ frame ∨ b.value = value := by
  obtain ⟨old, there, rfl⟩ := List.mem_map.mp member
  by_cases same : old.name = name
  · exact Or.inr (by simp [same])
  · exact Or.inl (by simpa [same] using there)

end Frame

namespace Frames

variable {frames : Frames} {scope : Scope} {name : Text} {value : Value} {constant : Bool}

theorem frame_modify (id other : FrameId) (change : Frame → Frame) :
    Frames.frame (Array.modify frames id change) other =
      if id = other ∧ id < frames.size then change (frames.frame other) else frames.frame other := by
  unfold Frames.frame
  by_cases there : other < frames.size
  · by_cases same : id = other
    · subst same
      simp [there, Array.getElem_modify]
    · simp [there, same, Array.getElem_modify]
  · have outside : ¬ (id = other ∧ id < frames.size) := by
      rintro ⟨rfl, inside⟩
      exact there inside
    simp [there, outside]

@[simp]
theorem size_bind : (frames.bind scope name value constant).size = frames.size :=
  Array.size_modify

theorem frame_bind (id : FrameId) :
    (frames.bind scope name value constant).frame id =
      if scope.innermost = id ∧ id < frames.size
      then (frames.frame id).declare name value constant else frames.frame id := by
  rw [bind, frame_modify]
  by_cases same : scope.innermost = id <;> simp [same]

@[simp]
theorem size_rebind : (frames.rebind scope name value).size = frames.size := by
  unfold rebind
  split
  · exact Array.size_modify
  · rfl

theorem frame_rebind (id : FrameId) :
    (frames.rebind scope name value).frame id =
      if frames.owner? scope name = some id then (frames.frame id).update name value
      else frames.frame id := by
  unfold rebind
  rcases owned : frames.owner? scope name with _ | owner
  · simp
  · simp only [frame_modify, Option.some.injEq]
    by_cases same : owner = id
    · subst same
      by_cases there : owner < frames.size
      · simp [there]
      · have empty : frames.frame owner = [] := by simp [Frames.frame, there]
        simp [there, empty, Frame.update]
    · simp [same]

@[simp]
theorem size_grow : frames.grow.size = frames.size + 1 :=
  Array.size_push ..

@[simp]
theorem frame_grow (id : FrameId) : frames.grow.frame id = frames.frame id := by
  unfold grow Frames.frame
  rcases Nat.lt_trichotomy id frames.size with below | rfl | above
  · simp [below, Array.getElem_push, Nat.lt_succ_of_lt below]
  · simp
  · simp [Nat.not_lt_of_lt above, Nat.not_lt.mpr above]

theorem declarationFault?_eq_none_iff :
    frames.declarationFault? scope name = none ↔
      (frames.frame scope.innermost).find name = none := by
  unfold declarationFault? Frame.binds
  cases (frames.frame scope.innermost).find name <;> simp

/-- The frame that owns a name is one of the scope's and binds the name. -/
theorem owner?_eq_some {id : FrameId} (owned : frames.owner? scope name = some id) :
    id ∈ scope.chain ∧ ∃ b, (frames.frame id).find name = some b := by
  have bound := @List.find?_some _ (fun id => (frames.frame id).binds name) _ _ owned
  exact ⟨List.mem_of_find?_eq_some owned, Frame.binds_iff.mp bound⟩

theorem owner?_of_binds (binds : (frames.frame scope.innermost).binds name = true) :
    frames.owner? scope name = some scope.innermost :=
  List.find?_cons_of_pos binds

theorem owner?_of_not_binds (unbound : ¬ (frames.frame scope.innermost).binds name = true) :
    frames.owner? scope name = scope.around.find? fun id => (frames.frame id).binds name :=
  List.find?_cons_of_neg unbound

theorem owner?_congr {later : Frames} (same : ∀ id ∈ scope.chain,
    (later.frame id).binds name = (frames.frame id).binds name) :
    later.owner? scope name = frames.owner? scope name :=
  List.find?_congr same

theorem binding?_eq_none_iff :
    frames.binding? scope name = none ↔ frames.owner? scope name = none := by
  unfold binding?
  constructor
  · intro nothing
    rcases owned : frames.owner? scope name with _ | id
    · rfl
    · obtain ⟨-, b, found⟩ := owner?_eq_some owned
      rw [owned, Option.bind_some, found] at nothing
      cases nothing
  · intro unowned
    rw [unowned]
    rfl

theorem owner?_rebind (scope : Scope) (name : Text) (value : Value) (inner : Scope) (other : Text) :
    (frames.rebind scope name value).owner? inner other = frames.owner? inner other := by
  refine owner?_congr fun id _ => ?_
  rw [frame_rebind]
  split
  · exact Frame.binds_update
  · rfl

/-- An assignment shows from every scope that has the same nearest binding. -/
theorem get?_rebind {owner : FrameId} {b : Binding} {inner : Scope} (value : Value)
    (owned : frames.owner? scope name = some owner)
    (found : (frames.frame owner).find name = some b)
    (there : frames.owner? inner name = some owner) :
    (frames.rebind scope name value).get? inner name = some value := by
  rw [get?, binding?, owner?_rebind, there, Option.bind_some, frame_rebind, if_pos owned,
    Frame.find_update, found, Option.map_some, if_pos rfl, Option.map_some]

/-- An assignment is allowed if the nearest binding of the name is not constant. -/
theorem not_constant_of_assignmentFault? {id : FrameId} {b : Binding}
    (allowed : frames.assignmentFault? scope name = none)
    (owned : frames.owner? scope name = some id) (found : (frames.frame id).find name = some b) :
    b.constant = false := by
  have nearest : frames.binding? scope name = some b := by
    rw [binding?, owned]
    exact found
  simpa [assignmentFault?, nearest] using allowed

theorem nodup_visible (frames : Frames) (scope : Scope) : (frames.visible scope).Nodup :=
  Text.nodup_eraseDups _

theorem mem_visible : name ∈ frames.visible scope ↔ ∃ id, frames.owner? scope name = some id := by
  rw [visible, List.mem_eraseDups, List.mem_flatMap, owner?, ← Option.isSome_iff_exists,
    List.find?_isSome]
  simp only [Frame.mem_names_iff]

/-- A binding counts as one of the program's unless it has a name that is there from the start, or is
to a native function. -/
theorem isPredeclared_eq_false {b : Binding} (unbound : b.name ∉ Frame.predeclared.names)
    (ordinary : ∀ function, b.value ≠ .native function) (scope : Scope) :
    isPredeclared scope b = false := by
  have names : b.name ≠ utf8 "true" ∧ b.name ≠ utf8 "false" ∧ b.name ≠ utf8 "null" := by
    simp only [Frame.names, Frame.predeclared, List.map_cons, List.mem_cons, not_or] at unbound
    exact ⟨unbound.1, unbound.2.1, unbound.2.2.1⟩
  unfold isPredeclared
  split
  · rename_i function native
    exact absurd native (ordinary function)
  · simp [names]

theorem mem_of_get? (got : frames.get? scope name = some value) :
    ∃ id, id ∈ scope.chain ∧ ∃ b, (frames.frame id).find name = some b ∧ b.value = value := by
  obtain ⟨b, nearest, rfl⟩ := Option.map_eq_some_iff.mp got
  obtain ⟨id, owned, found⟩ := Option.bind_eq_some_iff.mp nearest
  exact ⟨id, (owner?_eq_some owned).1, b, found, rfl⟩

end Frames

end Scriptlet
