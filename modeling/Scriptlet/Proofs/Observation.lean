import Scriptlet.Proofs.Enumeration
import Scriptlet.Proofs.Mapping
import Scriptlet.Repl.Entry
/-!
What can be observed of an evaluation: the value or how it stopped, what was printed, the global
variables, and the list of them that a session shows. To show them, frames and objects are enumerated
once more. Whatever the orders of all enumerations are, the same is observed.
-/
namespace Scriptlet

/-- The second binding differs in the orders of properties only. -/
structure Binding.Rearranged (b other : Binding) : Prop where
  name : b.name = other.name
  value : b.value.Rearranged other.value
  constant : b.constant = other.constant

/-- The second frame differs in the order of its bindings and of the properties in them only. -/
def Frame.Redrawn (frame other : Frame) : Prop :=
  ∃ between, Reordered Binding.name frame between ∧
    List.Forall₂ Binding.Rearranged between other

/-- The second end differs in orders only. -/
structure Redrawn (ended other : Except Stop Value × Store) : Prop where
  result : (∃ stop, ended.1 = .error stop ∧ other.1 = .error stop) ∨
    ∃ value shown, value.Rearranged shown ∧ ended.1 = .ok value ∧ other.1 = .ok shown
  frames : ∀ id, Frame.Redrawn (ended.2.frames.frame id) (other.2.frames.frame id)
  printed : ended.2.printed = other.2.printed

/-- What can be observed of the end of an evaluation. -/
structure Observation where
  /-- The type and the text of the value, or how the evaluation stopped. -/
  result : Except Stop (Text × Text)
  printed : List Printed
  /-- What is seen of each global variable. -/
  globals : List (Text × Bool × Text × Text)
  /-- The answer of a session to the command that lists the variables. -/
  listing : List Effect
  deriving DecidableEq

namespace Interpreter

def observe (i : Interpreter) (ended : Except Stop Value × Store) : Observation :=
  let left := { i with store := ended.2 }
  { result := ended.1.map fun value => (value.typeLabel, value.inspect)
    printed := ended.2.printed
    globals := left.userVariables.map Binding.row
    listing := Repl.listing left }

/-- What may be observed of an end: variables and properties are enumerated for it once more. -/
def MayObserve (i : Interpreter) (ended : Except Stop Value × Store) (seen : Observation) : Prop :=
  ∃ other, Redrawn ended other ∧ seen = i.observe other

end Interpreter

namespace Binding.Rearranged

variable {b other : Binding} {bindings others : List Binding}

theorem isPredeclared_eq (rearranged : b.Rearranged other) (scope : Scope) :
    Frames.isPredeclared scope b = Frames.isPredeclared scope other := by
  unfold Frames.isPredeclared
  rw [rearranged.name, rearranged.constant]
  rcases rearranged.value.eq_or_objects with same | ⟨⟨_, first⟩, _, second⟩
  · rw [same]
  · rw [first, second]

/-- Bindings are sorted alike whatever the orders of their properties are. -/
theorem mergeSort (rearranged : List.Forall₂ Rearranged bindings others) :
    List.Forall₂ Rearranged (bindings.mergeSort (Reordered.byKey Binding.name))
      (others.mergeSort (Reordered.byKey Binding.name)) := by
  obtain ⟨lengths, pairs⟩ := List.forall₂_iff_zip.mp rearranged
  -- both lists are sorted as the list of their pairs is by the first components
  have firsts := List.map_mergeSort (s := Reordered.byKey Binding.name) (f := Prod.fst)
    (r := Reordered.byKey fun p : Binding × Binding => p.1.name) (l := bindings.zip others)
    fun _ _ _ _ => rfl
  have seconds := List.map_mergeSort (s := Reordered.byKey Binding.name) (f := Prod.snd)
    (r := Reordered.byKey fun p : Binding × Binding => p.1.name) (l := bindings.zip others)
    fun p first q second => by
      rw [Reordered.byKey, Reordered.byKey, (pairs first).name, (pairs second).name]
  rw [List.map_fst_zip (Nat.le_of_eq lengths)] at firsts
  rw [List.map_snd_zip (Nat.le_of_eq lengths.symm)] at seconds
  rw [← firsts, ← seconds, List.forall₂_map_left_iff, List.forall₂_map_right_iff, List.forall₂_same]
  intro p sorted
  exact pairs (List.mem_mergeSort.mp sorted)

theorem map_eq {α : Type} {view : Binding → α}
    (keeps : ∀ {b other : Binding}, b.Rearranged other → view b = view other)
    (rearranged : List.Forall₂ Rearranged bindings others) :
    bindings.map view = others.map view := by
  induction rearranged with
  | nil => rfl
  | cons first _ ih => rw [List.map_cons, List.map_cons, keeps first, ih]

end Binding.Rearranged

namespace Redrawn

variable {ended other : Except Stop Value × Store}

theorem refl (ended : Except Stop Value × Store) : Redrawn ended ended where
  result := by
    rcases ended with ⟨stop | value, store⟩
    · exact .inl ⟨stop, rfl, rfl⟩
    · exact .inr ⟨value, value, .refl, rfl, rfl⟩
  frames id := ⟨_, .refl _, List.forall₂_same.mpr fun _ _ => ⟨rfl, .refl, rfl⟩⟩
  printed := rfl

theorem of_sameEnd {third : Except Stop Value × Store} (same : Action.SameEnd ended other)
    (redrawn : Redrawn other third) : Redrawn ended third where
  result := by rw [same.1]; exact redrawn.result
  frames id := by
    obtain ⟨between, reordered, rearranged⟩ := redrawn.frames id
    exact ⟨between, (same.2.frames.frame id).trans reordered, rearranged⟩
  printed := same.2.printed.trans redrawn.printed

theorem userVariables (redrawn : Redrawn ended other) (scope : Scope) :
    List.Forall₂ Binding.Rearranged (ended.2.frames.userVariables scope)
      (other.2.frames.userVariables scope) := by
  obtain ⟨between, reordered, rearranged⟩ := redrawn.frames scope.innermost
  rw [Frames.userVariables, Frames.userVariables, (reordered.filter _).mergeSort_eq]
  apply Binding.Rearranged.mergeSort
  apply List.rel_filter _ rearranged
  intro b other same
  dsimp only
  rw [same.isPredeclared_eq]

theorem listing_eq (redrawn : Redrawn ended other) (i : Interpreter) :
    Repl.listing { i with store := ended.2 } = Repl.listing { i with store := other.2 } := by
  have found := redrawn.userVariables Interpreter.globalScope
  have line {b other : Binding} (same : b.Rearranged other) :
      Effect.outLine (Repl.listed b) = .outLine (Repl.listed other) := by
    rw [Repl.listed, Repl.listed, same.name, same.constant, same.value.typeName_eq,
      same.value.inspect_eq]
  have lines := Binding.Rearranged.map_eq line found
  unfold Repl.listing Interpreter.userVariables
  dsimp only
  generalize ended.2.frames.userVariables Interpreter.globalScope = first at found lines
  generalize other.2.frames.userVariables Interpreter.globalScope = second at found lines
  cases found with
  | nil => rfl
  | cons _ _ => exact lines

theorem observe_eq (redrawn : Redrawn ended other) (i : Interpreter) :
    i.observe ended = i.observe other := by
  have result : (ended.1.map fun value => (value.typeLabel, value.inspect)) =
      other.1.map fun value => (value.typeLabel, value.inspect) := by
    rcases redrawn.result with ⟨stop, first, second⟩ | ⟨value, shown, rearranged, first, second⟩
    · rw [first, second]
    · rw [first, second, Except.map, Except.map, rearranged.typeLabel_eq, rearranged.inspect_eq]
  have row {b other : Binding} (same : b.Rearranged other) : b.row = other.row := by
    rw [Binding.row, Binding.row, same.name, same.constant, same.value.typeLabel_eq,
      same.value.inspect_eq]
  have globals := Binding.Rearranged.map_eq row (redrawn.userVariables Interpreter.globalScope)
  simp only [Interpreter.observe, result, redrawn.printed, redrawn.listing_eq i]
  exact congrArg (Observation.mk _ _ · _) globals

end Redrawn

/-- Whatever the orders are in which the natives are declared, frames are searched and objects are gone
through, an evaluation ends with the same value or stop, and what is observed of it is what is observed
of the evaluation in the given orders. -/
theorem observed_iff_whatever_order (bound : Nat) (program : Program) (i : Interpreter)
    {start : Store} (reordered : i.store.Rearranged start) :
    let action := program.eval bound Interpreter.globalScope
    let ended := action.outcome i.store
    (∀ other, action.Possible start other →
      other.1 = ended.1 ∧ other.2.printed = ended.2.printed ∧
        other.2.frames.userVariables Interpreter.globalScope =
          ended.2.frames.userVariables Interpreter.globalScope) ∧
    ∀ seen, (∃ other, action.Possible start other ∧ i.MayObserve other seen) ↔
      seen = i.observe ended := by
  intro action ended
  have same {other : Except Stop Value × Store} (possible : action.Possible start other) :
      Action.SameEnd other ended :=
    possible.sameEnd reordered.symm
  constructor
  · intro other possible
    obtain ⟨result, left⟩ := same possible
    exact ⟨result, left.printed, left.frames.userVariables_eq _⟩
  · intro seen
    constructor
    · rintro ⟨other, possible, shown, redrawn, rfl⟩
      have unshown := Redrawn.of_sameEnd (same possible) (.refl ended)
      exact (redrawn.observe_eq i).symm.trans (unshown.observe_eq i)
    · rintro rfl
      have possible : action.Possible start ended :=
        .rearrange reordered.symm (Program.orderly_eval bound program _ i.store)
      exact ⟨ended, possible, ended, .refl ended, rfl⟩

/-- The store in which programs start, whatever the order is in which the natives are declared. -/
theorem rearranged_freshStore {frame : Frame} (machine : Machine)
    (enumerated : Frame.predeclared.Perm frame) :
    (Interpreter.freshStore machine).Rearranged { frames := #[frame], machine } := by
  have distinct : (Frame.predeclared.map Binding.name).Nodup := by decide +kernel
  refine ⟨⟨rfl, ?_⟩, rfl, rfl⟩
  intro id
  cases id with
  | zero => exact .of_perm distinct enumerated
  | succ id => exact .refl []

/-- `let o = {b: true, a: "x"}; println(o);` -/
def showing : Program :=
  [.declare ⟨.none, ⟨.none, utf8 "o"⟩, false, .object .none
      [(⟨.none, utf8 "b"⟩, .boolean .none true), (⟨.none, utf8 "a"⟩, .string .none (utf8 "x"))]⟩,
    .expr (.call .none (.ident ⟨.none, utf8 "println"⟩) [.ident ⟨.none, utf8 "o"⟩])]

/-- The object that the program shows. -/
def shownObject : Value := .object [(utf8 "b", .boolean true), (utf8 "a", .string (utf8 "x"))]

theorem inspect_shownObject : shownObject.inspect = utf8 "\x7ba: \"x\", b: true\x7d" := by
  have sorted : Value.sortByName [(utf8 "b", utf8 "true"), (utf8 "a", utf8 "\"x\"")] =
      [(utf8 "a", utf8 "\"x\""), (utf8 "b", utf8 "true")] := by
    have swapped : Reordered (Prod.fst : Text × Text → Text)
        [(utf8 "b", utf8 "true"), (utf8 "a", utf8 "\"x\"")]
        [(utf8 "a", utf8 "\"x\""), (utf8 "b", utf8 "true")] :=
      .of_perm (by decide) (.swap _ _ _)
    exact swapped.mergeSort_eq.trans (List.mergeSort_of_pairwise (by decide))
  have texts : Value.inspectProperties [(utf8 "b", .boolean true), (utf8 "a", .string (utf8 "x"))] =
      [(utf8 "b", utf8 "true"), (utf8 "a", utf8 "\"x\"")] := by decide +kernel
  rw [shownObject, Value.inspect, texts, Value.objectText, sorted]
  decide

/-- The store in which programs start, the natives declared the last first. -/
def reversedStore : Store :=
  { frames := #[Frame.predeclared.reverse], machine := .still ⟨2024, 3, 9, 14, 5, 7, 0⟩ }

-- The names of the properties are not in order, and the natives are not in the order given.
theorem showing_observed :
    (Interpreter.freshStore reversedStore.machine).Rearranged reversedStore ∧
      ∀ seen, (∃ other, (showing.eval 4 Interpreter.globalScope).Possible reversedStore other ∧
          Interpreter.MayObserve { store := Interpreter.freshStore reversedStore.machine } other seen) ↔
        seen =
          { result := .ok (utf8 "NULL", utf8 "null")
            printed := [.line (utf8 "\x7ba: \"x\", b: true\x7d")]
            globals := [(utf8 "o", false, utf8 "OBJECT", utf8 "\x7ba: \"x\", b: true\x7d")]
            listing := [.outLine (utf8 "  let o: object = \x7ba: \"x\", b: true\x7d")] } := by
  have enumerated : (Interpreter.freshStore reversedStore.machine).Rearranged reversedStore :=
    rearranged_freshStore _ Frame.predeclared.reverse_perm.symm
  refine ⟨enumerated, ?_⟩
  intro seen
  have observed := (observed_iff_whatever_order 4 showing
    { store := Interpreter.freshStore reversedStore.machine } enumerated).2 seen
  apply observed.trans
  have ended : (showing.eval 4 Interpreter.globalScope).outcome
      (Interpreter.freshStore reversedStore.machine) =
        (.ok .null,
          { frames := #[⟨utf8 "o", shownObject, false⟩ :: Frame.predeclared]
            printed := [.line shownObject.inspect], machine := reversedStore.machine }) := rfl
  have listed : Frames.userVariables #[⟨utf8 "o", shownObject, false⟩ :: Frame.predeclared]
      Interpreter.globalScope = [⟨utf8 "o", shownObject, false⟩] := by
    have own : ((⟨utf8 "o", shownObject, false⟩ :: Frame.predeclared).filter fun b =>
        !Frames.isPredeclared Interpreter.globalScope b) = [⟨utf8 "o", shownObject, false⟩] := rfl
    exact (congrArg (List.mergeSort · _) own).trans (List.mergeSort_singleton _)
  rw [ended, Interpreter.observe, Repl.listing, Interpreter.userVariables]
  simp only [listed, List.map_cons, List.map_nil, Binding.row, Repl.listed, inspect_shownObject]
  rfl

end Scriptlet
