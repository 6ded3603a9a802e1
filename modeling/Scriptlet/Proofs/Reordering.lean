import Mathlib.Data.List.Perm.Basic
import Mathlib.Logic.Relation
import Scriptlet.Interpreter
import Scriptlet.Proofs.Frames
/-!
Orders do not show. The bindings of a frame and the properties of an object may be kept in any order:
what is found by name is the same, and what is made of all of them is sorted by name. So values and
frames that differ in orders only have the same printable forms, are equal to the same values, and
give the same suggestions and the same list of variables.
-/
namespace Scriptlet

/-- The same entries in another order. Those of one key, of which a frame or an object has at most
one, keep theirs. -/
structure Reordered {α : Type} (key : α → Text) (xs ys : List α) : Prop where
  perm : xs.Perm ys
  keyed : ∀ k, xs.filter (fun x => key x == k) = ys.filter (fun x => key x == k)

theorem Text.le_trans {a b c : Text} (first : Text.le a b = true) (second : Text.le b c = true) :
    Text.le a c = true := by
  simp only [Text.le, decide_eq_true_eq] at *
  exact List.le_trans first second

theorem Text.le_total (a b : Text) : (Text.le a b || Text.le b a) = true := by
  simp only [Text.le, Bool.or_eq_true, decide_eq_true_eq]
  exact List.le_total a b

theorem Text.le_antisymm {a b : Text} (first : Text.le a b = true) (second : Text.le b a = true) :
    a = b := by
  simp only [Text.le, decide_eq_true_eq] at *
  exact List.le_antisymm first second

namespace Reordered

variable {α β : Type} {key : α → Text} {xs ys zs : List α}

theorem refl (xs : List α) : Reordered key xs xs := ⟨.refl xs, fun _ => rfl⟩

theorem symm (same : Reordered key xs ys) : Reordered key ys xs :=
  ⟨same.perm.symm, fun k => (same.keyed k).symm⟩

theorem trans (first : Reordered key xs ys) (second : Reordered key ys zs) : Reordered key xs zs :=
  ⟨first.perm.trans second.perm, fun k => (first.keyed k).trans (second.keyed k)⟩

theorem cons (x : α) (same : Reordered key xs ys) : Reordered key (x :: xs) (x :: ys) := by
  refine ⟨same.perm.cons x, ?_⟩
  intro k
  rw [List.filter_cons, List.filter_cons, same.keyed k]

theorem filter (p : α → Bool) (same : Reordered key xs ys) :
    Reordered key (xs.filter p) (ys.filter p) := by
  refine ⟨same.perm.filter p, ?_⟩
  intro k
  rw [List.filter_comm, same.keyed k, List.filter_comm]

theorem map {other : β → Text} {f : α → β} (keys : ∀ x, other (f x) = key x)
    (same : Reordered key xs ys) : Reordered other (xs.map f) (ys.map f) := by
  refine ⟨same.perm.map f, ?_⟩
  intro k
  have through : ((fun x => other x == k) ∘ f) = fun x => key x == k := by
    funext x
    exact congrArg (· == k) (keys x)
  rw [List.filter_map, List.filter_map, through, same.keyed k]

theorem find?_eq (same : Reordered key xs ys) (k : Text) :
    (xs.find? fun x => key x == k) = ys.find? fun x => key x == k := by
  rw [← List.head?_filter, ← List.head?_filter, same.keyed k]

theorem of_perm (distinct : (xs.map key).Nodup) (perm : xs.Perm ys) : Reordered key xs ys := by
  refine ⟨perm, ?_⟩
  intro k
  have apart : xs.Pairwise fun a b => key a ≠ key b := List.pairwise_map.mp distinct
  have others : ys.Pairwise fun a b => key a ≠ key b :=
    List.pairwise_map.mp ((perm.map key).nodup_iff.mp distinct)
  apply List.Perm.eq_of_pairwise _ (apart.filter _) (others.filter _) (perm.filter _)
  intro a b inA inB differ
  have keyA : key a = k := beq_iff_eq.mp (List.mem_filter.mp inA).2
  have keyB : key b = k := beq_iff_eq.mp (List.mem_filter.mp inB).2
  exact absurd (keyA.trans keyB.symm) differ

/-- The order by keys. -/
abbrev byKey (key : α → Text) (a b : α) : Bool := Text.le (key a) (key b)

theorem byKey_trans (a b c : α) (first : byKey key a b = true) (second : byKey key b c = true) :
    byKey key a c = true :=
  Text.le_trans first second

theorem byKey_total (a b : α) : (byKey key a b || byKey key b a) = true :=
  Text.le_total (key a) (key b)

/-- Sorting by keys keeps the entries of each key, and their order. -/
theorem filter_mergeSort (xs : List α) (k : Text) :
    ((xs.mergeSort (byKey key)).filter fun x => key x == k) = xs.filter fun x => key x == k := by
  symm
  have alike : (xs.filter fun x => key x == k).Pairwise fun a b => byKey key a b = true := by
    apply List.pairwise_of_forall_mem_list
    intro a inA b inB
    have keyA : key a = k := beq_iff_eq.mp (List.mem_filter.mp inA).2
    have keyB : key b = k := beq_iff_eq.mp (List.mem_filter.mp inB).2
    rw [byKey, keyA, keyB]
    simpa using Text.le_total k k
  have kept := List.sublist_mergeSort byKey_trans byKey_total alike List.filter_sublist
  have within := kept.filter fun x => key x == k
  rw [List.filter_filter] at within
  simp only [Bool.and_self] at within
  apply within.eq_of_length
  exact ((List.mergeSort_perm xs (byKey key)).filter _).length_eq.symm

theorem eq_of_sorted (same : Reordered key xs ys)
    (first : xs.Pairwise fun a b => byKey key a b = true)
    (second : ys.Pairwise fun a b => byKey key a b = true) : xs = ys := by
  induction xs generalizing ys with
  | nil => exact same.perm.nil_eq
  | cons x xs ih =>
    cases ys with
    | nil => exact same.perm.eq_nil
    | cons y ys =>
      have least : ∀ b ∈ xs, byKey key x b = true := fun b => List.rel_of_pairwise_cons first
      have lowest : ∀ b ∈ ys, byKey key y b = true := fun b => List.rel_of_pairwise_cons second
      -- each head is among the entries of the other list, so their keys are the same
      have keys : key x = key y := by
        rcases List.mem_cons.mp (same.perm.mem_iff.mp List.mem_cons_self) with rfl | later
        · rfl
        · rcases List.mem_cons.mp (same.perm.mem_iff.mpr List.mem_cons_self) with rfl | behind
          · rfl
          · exact Text.le_antisymm (least y behind) (lowest x later)
      have heads := same.keyed (key x)
      rw [List.filter_cons_of_pos (by simp), List.filter_cons_of_pos (by simp [keys])] at heads
      obtain ⟨rfl, -⟩ := List.cons.inj heads
      have rest : Reordered key xs ys := by
        refine ⟨same.perm.cons_inv, ?_⟩
        intro k
        have all := same.keyed k
        by_cases here : key x = k
        · rw [List.filter_cons_of_pos (by simp [here]), List.filter_cons_of_pos (by simp [here])] at all
          exact (List.cons.inj all).2
        · rwa [List.filter_cons_of_neg (by simp [here]), List.filter_cons_of_neg (by simp [here])] at all
      rw [ih rest first.of_cons second.of_cons]

theorem sorted_mergeSort (key : α → Text) (xs : List α) :
    (xs.mergeSort (byKey key)).Pairwise fun a b => byKey key a b = true :=
  List.pairwise_mergeSort byKey_trans byKey_total xs

theorem mergeSort_eq (same : Reordered key xs ys) :
    xs.mergeSort (byKey key) = ys.mergeSort (byKey key) := by
  apply eq_of_sorted _ (sorted_mergeSort key xs) (sorted_mergeSort key ys)
  refine ⟨?_, ?_⟩
  · exact (List.mergeSort_perm xs _).trans (same.perm.trans (List.mergeSort_perm ys _).symm)
  · intro k
    rw [filter_mergeSort, filter_mergeSort, same.keyed k]

theorem mergeSort_filter (p : α → Bool) (xs : List α) :
    (xs.filter p).mergeSort (byKey key) = (xs.mergeSort (byKey key)).filter p := by
  apply eq_of_sorted _ (sorted_mergeSort key _) ((sorted_mergeSort key xs).filter p)
  refine ⟨?_, ?_⟩
  · exact (List.mergeSort_perm _ _).trans ((List.mergeSort_perm xs _).filter p).symm
  · intro k
    rw [filter_mergeSort, List.filter_comm, ← filter_mergeSort xs k, List.filter_comm]

end Reordered

namespace Value

/-- How the printable form of an object shows the value of a property. -/
def shown : Value → Text
  | .string value => Text.quoted value
  | value => value.inspect

theorem inspectProperties_eq (properties : List (Text × Value)) :
    inspectProperties properties = properties.map fun p => (p.1, p.2.shown) := by
  induction properties with
  | nil => rfl
  | cons property rest ih =>
    obtain ⟨name, value⟩ := property
    cases value <;> simp [inspectProperties, shown, ih]

/-- Whether a property has an equal one among others. -/
def equalAmong (others : List (Text × Value)) (property : Text × Value) : Bool :=
  match others.lookup property.1 with
  | some other => property.2.equal other
  | none => false

theorem equalProperties_eq (properties others : List (Text × Value)) :
    equalProperties properties others = properties.all (equalAmong others) := by
  induction properties with
  | nil => rfl
  | cons property rest ih =>
    obtain ⟨name, value⟩ := property
    rw [equalProperties, ih]
    rfl

/-- The second value keeps the properties of one object in another order. -/
inductive Reorders : Value → Value → Prop
  | here {properties others : List (Text × Value)} (same : Reordered Prod.fst properties others) :
      Reorders (.object properties) (.object others)
  | inside {value other : Value} (reorders : Reorders value other) (name : Text)
      (before after : List (Text × Value)) :
      Reorders (.object (before ++ (name, value) :: after))
        (.object (before ++ (name, other) :: after))

/-- The second value differs in the orders of properties only. -/
def Rearranged : Value → Value → Prop := Relation.ReflTransGen Reorders

end Value

theorem lookup_eq_find? (properties : List (Text × Value)) (name : Text) :
    properties.lookup name = (properties.find? fun p => p.1 == name).map Prod.snd := by
  induction properties with
  | nil => rfl
  | cons property rest ih =>
    obtain ⟨key, value⟩ := property
    rw [List.lookup_cons, List.find?_cons, ih, Bool.beq_comm]
    cases key == name <;> rfl

theorem Reordered.lookup_eq {properties others : List (Text × Value)}
    (same : Reordered Prod.fst properties others) (name : Text) :
    properties.lookup name = others.lookup name := by
  rw [lookup_eq_find?, lookup_eq_find?, same.find?_eq name]

namespace Value

variable {value other : Value}

theorem Reorders.object_left (reorders : Reorders value other) :
    ∃ properties, value = .object properties := by
  cases reorders <;> exact ⟨_, rfl⟩

theorem Reorders.object_right (reorders : Reorders value other) :
    ∃ properties, other = .object properties := by
  cases reorders <;> exact ⟨_, rfl⟩

theorem Reorders.inspect_eq (reorders : Reorders value other) : value.inspect = other.inspect := by
  induction reorders with
  | here same =>
    rw [inspect, inspect, inspectProperties_eq, inspectProperties_eq, objectText, objectText]
    have entries : Reordered Prod.fst _ _ :=
      same.map (f := fun p : Text × Value => (p.1, p.2.shown)) fun _ => rfl
    rw [sortByName, sortByName, entries.mergeSort_eq]
  | inside reorders name before after ih =>
    obtain ⟨_, rfl⟩ := reorders.object_left
    obtain ⟨_, rfl⟩ := reorders.object_right
    rw [inspect, inspect, inspectProperties_eq, inspectProperties_eq]
    simp only [List.map_append, List.map_cons, shown, ih]

theorem Reorders.typeName_eq (reorders : Reorders value other) : value.typeName = other.typeName := by
  cases reorders <;> rfl

theorem Reorders.typeLabel_eq (reorders : Reorders value other) :
    value.typeLabel = other.typeLabel := by
  cases reorders <;> rfl

theorem Reorders.equal_left (reorders : Reorders value other) (third : Value) :
    value.equal third = other.equal third := by
  have texts := reorders.inspect_eq
  induction reorders generalizing third with
  | here same =>
    cases third with
    | object entries =>
      rw [equal, equal, equalProperties_eq, equalProperties_eq, same.perm.length_eq,
        same.perm.all_eq]
    | _ => simp only [equal, texts]
  | inside reorders name before after ih =>
    cases third with
    | object entries =>
      have property (third : Value) := ih third reorders.inspect_eq
      simp only [equal, equalProperties_eq, List.length_append, List.length_cons, List.all_append,
        List.all_cons, equalAmong, property]
    | _ => simp only [equal, texts]

theorem equalAmong_eq {properties others : List (Text × Value)}
    (same : Reordered Prod.fst properties others) (property : Text × Value) :
    equalAmong properties property = equalAmong others property := by
  rw [equalAmong, same.lookup_eq, equalAmong]

theorem Reorders.equal_right (reorders : Reorders value other) (third : Value) :
    third.equal value = third.equal other := by
  have texts := reorders.inspect_eq
  induction reorders generalizing third with
  | here same =>
    cases third with
    | object entries =>
      have among := funext (equalAmong_eq same)
      rw [equal, equal, equalProperties_eq, equalProperties_eq, same.perm.length_eq, among]
    | _ => simp only [equal, texts]
  | @inside value other reorders name before after ih =>
    cases third with
    | object entries =>
      -- each property is compared with the one of its name, which may be the property inside
      have among : equalAmong (before ++ (name, value) :: after) =
          equalAmong (before ++ (name, other) :: after) := by
        funext property
        unfold equalAmong
        rw [List.lookup_append, List.lookup_append, List.lookup_cons, List.lookup_cons]
        rcases before.lookup property.1 with _ | found
        · cases property.1 == name
          · rfl
          · exact ih property.2 reorders.inspect_eq
        · rfl
      simp only [equal, equalProperties_eq, among, List.length_append, List.length_cons]
    | _ => simp only [equal, texts]

namespace Rearranged

theorem congr {α : Type} {view : Value → α}
    (keeps : ∀ {value other}, Reorders value other → view value = view other)
    (rearranged : Rearranged value other) : view value = view other := by
  induction rearranged with
  | refl => rfl
  | tail _ last ih => exact ih.trans (keeps last)

theorem typeName_eq (rearranged : Rearranged value other) : value.typeName = other.typeName :=
  rearranged.congr Reorders.typeName_eq

theorem typeLabel_eq (rearranged : Rearranged value other) : value.typeLabel = other.typeLabel :=
  rearranged.congr Reorders.typeLabel_eq

theorem inspect_eq (rearranged : Rearranged value other) : value.inspect = other.inspect :=
  rearranged.congr Reorders.inspect_eq

theorem equal_eq {left right : Value} (first : Rearranged value left)
    (second : Rearranged other right) : value.equal other = left.equal right := by
  calc value.equal other
    _ = left.equal other := first.congr fun reorders => reorders.equal_left other
    _ = left.equal right := second.congr fun reorders => reorders.equal_right left

theorem eq_or_objects (rearranged : Rearranged value other) :
    value = other ∨ (∃ properties, value = .object properties) ∧ ∃ others, other = .object others := by
  induction rearranged with
  | refl => exact .inl rfl
  | tail _ last ih =>
    right
    refine ⟨?_, last.object_right⟩
    rcases ih with rfl | ⟨object, -⟩
    · exact last.object_left
    · exact object

end Rearranged

end Value

namespace Text

theorem pairwise_sort (texts : List Text) : (sort texts).Pairwise fun a b => le a b = true :=
  List.pairwise_mergeSort (fun a b c (first : le a b = true) => le_trans first (c := c)) le_total texts

theorem sort_eq {texts others : List Text} (same : texts.Perm others) : sort texts = sort others := by
  apply List.Perm.eq_of_pairwise _ (pairwise_sort texts) (pairwise_sort others)
  · exact (List.mergeSort_perm texts le).trans (same.trans (List.mergeSort_perm others le).symm)
  · intro a b _ _
    exact le_antisymm

end Text

namespace Frames

/-- The second frames keep the bindings of each frame in another order. -/
structure Rearranged (frames others : Frames) : Prop where
  size : frames.size = others.size
  frame : ∀ id, Reordered Binding.name (frames.frame id) (others.frame id)

namespace Rearranged

variable {frames others third : Frames} (same : frames.Rearranged others) (scope : Scope) (name : Text)

include same

theorem symm : others.Rearranged frames := ⟨same.size.symm, fun id => (same.frame id).symm⟩

theorem trans (next : others.Rearranged third) : frames.Rearranged third :=
  ⟨same.size.trans next.size, fun id => (same.frame id).trans (next.frame id)⟩

theorem find_eq (id : FrameId) : (frames.frame id).find name = (others.frame id).find name :=
  (same.frame id).find?_eq name

theorem binds_eq (id : FrameId) : (frames.frame id).binds name = (others.frame id).binds name := by
  rw [Frame.binds, same.find_eq, Frame.binds]

theorem owner?_eq : frames.owner? scope name = others.owner? scope name := by
  simp only [owner?, same.binds_eq]

theorem binding?_eq : frames.binding? scope name = others.binding? scope name := by
  simp only [binding?, same.owner?_eq, same.find_eq]

theorem get?_eq : frames.get? scope name = others.get? scope name := by
  rw [get?, same.binding?_eq, get?]

theorem declarationFault?_eq :
    frames.declarationFault? scope name = others.declarationFault? scope name := by
  rw [declarationFault?, same.binds_eq, declarationFault?]

theorem assignmentFault?_eq :
    frames.assignmentFault? scope name = others.assignmentFault? scope name := by
  rw [assignmentFault?, same.binding?_eq, assignmentFault?]

theorem sort_visible_eq : Text.sort (frames.visible scope) = Text.sort (others.visible scope) := by
  apply Text.sort_eq
  have names : (scope.chain.flatMap fun id => (frames.frame id).names).Perm
      (scope.chain.flatMap fun id => (others.frame id).names) :=
    List.Perm.flatMap_left _ fun id _ => (same.frame id).perm.map Binding.name
  rw [visible, visible, List.perm_ext_iff_of_nodup (Text.nodup_eraseDups _)
    (Text.nodup_eraseDups _)]
  intro name
  rw [List.mem_eraseDups, List.mem_eraseDups, names.mem_iff]

theorem lookup_eq : frames.lookup scope name = others.lookup scope name := by
  rw [lookup, lookup, same.get?_eq, Diagnostic.undeclared, Diagnostic.undeclared,
    Suggestion.closest?, Suggestion.closest?, same.sort_visible_eq]

theorem bind (value : Value) (constant : Bool) :
    (frames.bind scope name value constant).Rearranged (others.bind scope name value constant) := by
  refine ⟨by simp [same.size], ?_⟩
  intro id
  rw [frame_bind, frame_bind, same.size]
  split
  · exact (same.frame id).cons _
  · exact same.frame id

theorem rebind (value : Value) :
    (frames.rebind scope name value).Rearranged (others.rebind scope name value) := by
  refine ⟨by simp [same.size], ?_⟩
  intro id
  rw [frame_rebind, frame_rebind, same.owner?_eq]
  split
  · apply (same.frame id).map
    intro b
    split <;> rfl
  · exact same.frame id

theorem grow : frames.grow.Rearranged others.grow :=
  ⟨by simp [same.size], fun id => by simpa using same.frame id⟩

theorem userVariables_eq : frames.userVariables scope = others.userVariables scope :=
  ((same.frame scope.innermost).filter _).mergeSort_eq

end Rearranged

end Frames

end Scriptlet
