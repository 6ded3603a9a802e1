import Mathlib.Data.List.Find
import Scriptlet.Interpreter
import Scriptlet.Proofs.Frames
import Scriptlet.Proofs.Mapping
import Scriptlet.Proofs.Reordering
/-!
Frames with an addition. Some frames may hold what others hold and more: one more global variable, and
behind the global frame the frames that its value refers to. The numbers of all other frames are higher
then. Names are found as before, all but the one that was added, and what declares or assigns other
names leaves the addition as it is.
-/
namespace Scriptlet

/-- A global variable and the frames that its value may refer to. -/
structure Addition where
  binding : Binding
  behind : List Frame

/-- The number of a frame behind so many others that were added. -/
def FrameId.past (gap : Nat) : Nat → Nat
  | 0 => 0
  | id + 1 => id + 1 + gap

theorem FrameId.past_zero (gap : Nat) : FrameId.past gap 0 = 0 := rfl

theorem FrameId.past_succ (gap id : Nat) : FrameId.past gap (id + 1) = id + 1 + gap := rfl

theorem FrameId.past_inj {gap id other : Nat} :
    FrameId.past gap id = FrameId.past gap other ↔ id = other := by
  cases id <;> cases other <;> simp only [past] <;> omega

theorem FrameId.past_ne_behind {gap id other : Nat} (below : other < gap) :
    FrameId.past gap id ≠ other + 1 := by
  cases id <;> simp only [past] <;> omega

def Scope.past (gap : Nat) (scope : Scope) : Scope :=
  ⟨FrameId.past gap scope.innermost, scope.around.map (FrameId.past gap)⟩

theorem Scope.chain_past (gap : Nat) (scope : Scope) :
    (scope.past gap).chain = scope.chain.map (FrameId.past gap) := rfl

/-- The value whose functions refer to the frames by their numbers behind so many others. -/
def Value.past (gap : Nat) : Value → Value := Value.mapped id (Scope.past gap)

def Binding.past (gap : Nat) : Binding → Binding := Binding.mapped (Value.past gap)

namespace Addition

def gap (added : Addition) : Nat := added.behind.length

def name (added : Addition) : Text := added.binding.name

/-- A name that can be used in a frame and is not the one added to it. -/
def Leaves (added : Addition) (id : FrameId) (name : Text) : Prop := 1 ≤ id ∨ name ≠ added.name

end Addition

/-- The second frames hold what the first hold, and the addition. -/
structure Frames.Extended (added : Addition) (frames others : Frames) : Prop where
  global : 0 < frames.size
  size : others.size = frames.size + added.gap
  rest : (others.frame 0).filter (fun b => b.name != added.name) =
    (frames.frame 0).map (Binding.past added.gap)
  own : (others.frame 0).filter (fun b => b.name == added.name) = [added.binding]
  inner : ∀ id, others.frame (id + 1 + added.gap) = (frames.frame (id + 1)).map (Binding.past added.gap)
  behind : ∀ id < added.gap, others.frame (id + 1) = added.behind.getD id []

namespace Frame

variable {frame : Frame} {name other : Text}

theorem find_filter_ne (differ : name ≠ other) :
    Frame.find (frame.filter fun b => b.name != other) name = frame.find name := by
  unfold find
  rw [List.find?_filter]
  apply List.find?_congr
  intro b _
  by_cases called : b.name = name <;> simp [called, differ]

/-- A change of a binding does not change which bindings have a name. -/
theorem filter_update (value : Value) (p : Text → Bool) :
    (frame.update name value).filter (fun b => p b.name) =
      Frame.update (frame.filter fun b => p b.name) name value := by
  unfold update
  rw [List.filter_map, name_comp_update]

theorem update_of_ne {b : Binding} (differ : b.name ≠ name) (value : Value) :
    Frame.update [b] name value = [b] := by
  simp [update, differ]

end Frame

namespace Frames.Extended

variable {added : Addition} {frames others : Frames} (extended : frames.Extended added others)
  {scope : Scope} {name : Text}

include extended

theorem lt_size_iff (id : Nat) : FrameId.past added.gap id < others.size ↔ id < frames.size := by
  have := extended.global
  rw [extended.size]
  cases id <;> simp only [FrameId.past] <;> omega

theorem find_eq {id : FrameId} (leaves : added.Leaves id name) :
    (others.frame (FrameId.past added.gap id)).find name =
      ((frames.frame id).find name).map (Binding.past added.gap) := by
  cases id with
  | zero =>
    have differ : name ≠ added.name := leaves.resolve_left (Nat.not_succ_le_zero 0)
    rw [FrameId.past_zero, ← Frame.find_filter_ne differ, extended.rest]
    exact Frame.find_mapped _ name
  | succ id =>
    rw [FrameId.past_succ, extended.inner]
    exact Frame.find_mapped _ name

theorem binds_eq {id : FrameId} (leaves : added.Leaves id name) :
    (others.frame (FrameId.past added.gap id)).binds name = (frames.frame id).binds name := by
  rw [Frame.binds, extended.find_eq leaves, Option.isSome_map, Frame.binds]

theorem owner?_eq (differ : name ≠ added.name) :
    others.owner? (scope.past added.gap) name =
      (frames.owner? scope name).map (FrameId.past added.gap) := by
  rw [owner?, Scope.chain_past, List.find?_map, owner?]
  apply congrArg (Option.map _)
  apply List.find?_congr
  intro id _
  exact extended.binds_eq (.inr differ)

theorem binding?_eq (differ : name ≠ added.name) :
    others.binding? (scope.past added.gap) name =
      (frames.binding? scope name).map (Binding.past added.gap) := by
  rw [binding?, extended.owner?_eq differ, binding?]
  cases frames.owner? scope name with
  | none => rfl
  | some id => exact extended.find_eq (.inr differ)

theorem get?_eq (differ : name ≠ added.name) :
    others.get? (scope.past added.gap) name =
      (frames.get? scope name).map (Value.past added.gap) := by
  rw [get?, extended.binding?_eq differ, get?]
  cases frames.binding? scope name <;> rfl

theorem declarationFault?_eq (leaves : added.Leaves scope.innermost name) :
    others.declarationFault? (scope.past added.gap) name = frames.declarationFault? scope name := by
  rw [declarationFault?, declarationFault?, Scope.past, extended.binds_eq leaves]

theorem assignmentFault?_eq (differ : name ≠ added.name) :
    others.assignmentFault? (scope.past added.gap) name = frames.assignmentFault? scope name := by
  rw [assignmentFault?, extended.binding?_eq differ, assignmentFault?]
  cases frames.binding? scope name <;> rfl

/-- A frame of both may change in ways that correspond and, if it is the global one, leave the addition
as it is. -/
theorem modify (id : Nat) {change larger : Frame → Frame}
    (maps : ∀ frame, larger (frame.map (Binding.past added.gap)) =
      (change frame).map (Binding.past added.gap))
    (rest : id = 0 → ∀ frame, (larger frame).filter (fun b => b.name != added.name) =
      larger (frame.filter fun b => b.name != added.name))
    (own : id = 0 → ∀ frame, frame.filter (fun b => b.name == added.name) = [added.binding] →
      (larger frame).filter (fun b => b.name == added.name) = [added.binding]) :
    Frames.Extended added (Array.modify frames id change)
      (Array.modify others (FrameId.past added.gap id) larger) := by
  have reached (other : Nat) :
      (FrameId.past added.gap id = FrameId.past added.gap other ∧
          FrameId.past added.gap id < others.size) ↔ id = other ∧ id < frames.size := by
    rw [FrameId.past_inj, extended.lt_size_iff]
  have first := reached 0
  rw [FrameId.past_zero] at first
  refine ⟨by simpa using extended.global, by simp [extended.size], ?_, ?_, ?_, ?_⟩
  · rw [frame_modify, frame_modify]
    simp only [first]
    split
    · rename_i here
      rw [rest here.1, extended.rest, maps]
    · exact extended.rest
  · rw [frame_modify]
    simp only [first]
    split
    · rename_i here
      exact own here.1 _ extended.own
    · exact extended.own
  · intro other
    have inner := reached (other + 1)
    rw [FrameId.past_succ] at inner
    rw [frame_modify, frame_modify]
    simp only [inner]
    split
    · rw [extended.inner, maps]
    · exact extended.inner other
  · intro other below
    rw [frame_modify, if_neg]
    · exact extended.behind other below
    · rintro ⟨same, -⟩
      exact FrameId.past_ne_behind below same

theorem bind (leaves : added.Leaves scope.innermost name) (value : Value) (constant : Bool) :
    (frames.bind scope name value constant).Extended added
      (others.bind (scope.past added.gap) name (value.past added.gap) constant) := by
  have differ (global : scope.innermost = 0) : name ≠ added.name :=
    leaves.resolve_left (by simp [global])
  apply extended.modify
  · exact fun _ => rfl
  · intro global frame
    exact List.filter_cons_of_pos (by simpa using differ global)
  · intro global frame own
    exact (List.filter_cons_of_neg (by simpa using differ global)).trans own

theorem rebind (differ : name ≠ added.name) (value : Value) :
    (frames.rebind scope name value).Extended added
      (others.rebind (scope.past added.gap) name (value.past added.gap)) := by
  rw [Frames.rebind, Frames.rebind, extended.owner?_eq differ]
  cases frames.owner? scope name with
  | none => exact extended
  | some id =>
    apply extended.modify
    · exact fun frame => (frame.update_mapped name value).symm
    · exact fun _ frame => frame.filter_update _ (· != added.name)
    · intro _ frame own
      rw [Frame.filter_update _ (· == added.name), own]
      exact Frame.update_of_ne differ.symm _

theorem grow : frames.grow.Extended added others.grow := by
  refine ⟨by simp, ?_, by simpa using extended.rest, by simpa using extended.own, ?_, ?_⟩
  · rw [size_grow, size_grow, extended.size]
    omega
  · intro id
    rw [frame_grow, frame_grow]
    exact extended.inner id
  · intro id below
    rw [frame_grow]
    exact extended.behind id below

end Frames.Extended

theorem Frames.isPredeclared_past (gap : Nat) (scope : Scope) (b : Binding) :
    isPredeclared scope (b.past gap) = isPredeclared scope b := by
  obtain ⟨name, value, constant⟩ := b
  cases value <;> rfl

namespace Frames.Extended

open Interpreter

variable {added : Addition} {frames others : Frames} (extended : frames.Extended added others)
include extended

omit extended in
theorem userVariables_global (frames : Frames) :
    frames.userVariables globalScope =
      ((frames.frame 0).filter fun b => !isPredeclared globalScope b).mergeSort
        (Reordered.byKey Binding.name) := rfl

/-- The global variables but the one that was added are those of the smaller frames. -/
theorem userVariables_rest :
    (others.userVariables globalScope).filter (fun b => b.name != added.name) =
      (frames.userVariables globalScope).map (Binding.past added.gap) := by
  have predeclared : ((fun b => !isPredeclared globalScope b) ∘ Binding.past added.gap) =
      fun b => !isPredeclared globalScope b :=
    funext fun b => congrArg _ (isPredeclared_past added.gap globalScope b)
  rw [userVariables_global, userVariables_global, ← Reordered.mergeSort_filter, List.filter_comm,
    extended.rest, List.filter_map, predeclared]
  exact (List.map_mergeSort (f := Binding.past added.gap) (s := Reordered.byKey Binding.name)
    fun _ _ _ _ => rfl).symm

theorem rows_rest :
    ((others.userVariables globalScope).filter fun b => b.name != added.name).map Binding.row =
      (frames.userVariables globalScope).map Binding.row := by
  have rows : Binding.row ∘ Binding.past added.gap = Binding.row := funext Binding.row_mapped
  rw [extended.userVariables_rest, List.map_map, rows]

theorem userVariables_own (listed : isPredeclared globalScope added.binding = false) :
    (others.userVariables globalScope).filter (fun b => b.name == added.name) =
      [added.binding] := by
  rw [userVariables_global, ← Reordered.mergeSort_filter, List.filter_comm, extended.own]
  simp [listed]

end Frames.Extended

namespace Addition

variable (added : Addition)

/-- The frames in which programs start, and the addition. -/
def start : Frames :=
  Frames.bind #[Frame.predeclared] Interpreter.globalScope added.name added.binding.value
    added.binding.constant ++ added.behind.toArray

theorem start_eq :
    added.start = ((added.binding :: Frame.predeclared) :: added.behind).toArray := by
  have bound : Frames.bind #[Frame.predeclared] Interpreter.globalScope added.name
      added.binding.value added.binding.constant = #[added.binding :: Frame.predeclared] := rfl
  rw [start, bound]
  simp

/-- A variable is listed unless it has the name of one that is there, or a native function. -/
theorem isPredeclared_eq_false (unbound : added.name ∉ Frame.predeclared.names)
    (ordinary : ∀ function, added.binding.value ≠ .native function) :
    Frames.isPredeclared Interpreter.globalScope added.binding = false :=
  Frames.isPredeclared_eq_false unbound ordinary Interpreter.globalScope

theorem frame_start (id : Nat) :
    added.start.frame id = ((added.binding :: Frame.predeclared) :: added.behind).getD id [] := by
  rw [start_eq, Frames.frame]
  simp

theorem extended_start (unbound : added.name ∉ Frame.predeclared.names) :
    Frames.Extended added #[Frame.predeclared] added.start := by
  have others : ∀ b ∈ Frame.predeclared, (b.name != added.name) = true := by
    intro b member
    apply bne_iff_ne.mpr
    intro called
    exact unbound (called ▸ List.mem_map_of_mem member)
  refine ⟨Nat.one_pos, ?_, ?_, ?_, ?_, ?_⟩
  · rw [start_eq]
    simp [gap, Nat.add_comm]
  · rw [frame_start, List.getD_cons_zero, List.filter_cons_of_neg (by simp [name]),
      List.filter_eq_self.mpr others]
    rfl
  · have none : Frame.predeclared.filter (fun b => b.name == added.name) = [] := by
      apply List.filter_eq_nil_iff.mpr
      intro b member
      simpa using others b member
    rw [frame_start, List.getD_cons_zero, List.filter_cons_of_pos (by simp [name]), none]
  · intro id
    -- neither has a frame of this number
    have outside : ((added.binding :: Frame.predeclared) :: added.behind).length ≤
        id + 1 + added.gap := by
      simp only [List.length_cons, gap]
      omega
    rw [frame_start, List.getD_eq_getElem?_getD, List.getElem?_eq_none outside]
    rfl
  · intro id below
    rw [frame_start]
    rfl

end Addition

end Scriptlet
