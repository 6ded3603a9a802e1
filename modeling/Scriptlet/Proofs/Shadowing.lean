import Mathlib.Data.Finmap
import Scriptlet.Proofs.Frames
import Scriptlet.Value.Forest
/-!
Scopes as nested finite maps. Each scope is a finite map from names to values and a link to the scope
around it, and a name stands for what the nearest map on the way out binds it to. Whatever scopes are
made and whatever is done to them, the answers are those of such maps.
-/
namespace Scriptlet

/-- The bindings of one scope, and the scope around it. -/
structure NestedMap where
  around : Option Nat
  bindings : Finmap fun _ : Text => Value × Bool

def NestedMap.bind (map : NestedMap) (name : Text) (entry : Value × Bool) : NestedMap :=
  { map with bindings := map.bindings.insert name entry }

/-- The scopes by number. -/
abbrev NestedMaps := List NestedMap

namespace NestedMaps

/-- On the way out from a scope, this is the first one that binds the name, if any does. -/
inductive Resolves (maps : NestedMaps) (name : Text) : Nat → Option Nat → Prop
  | own {s map} : maps[s]? = some map → name ∈ map.bindings → Resolves maps name s (some s)
  | nowhere {s map} : maps[s]? = some map → name ∉ map.bindings → map.around = none →
      Resolves maps name s none
  | outer {s map out owner} : maps[s]? = some map → name ∉ map.bindings → map.around = some out →
      Resolves maps name out owner → Resolves maps name s owner

/-- What a scope binds a name to, and whether it is constant. -/
def read (maps : NestedMaps) (owner : Option Nat) (name : Text) : Option (Value × Bool) :=
  owner.bind fun id => (maps[id]?).bind fun map => map.bindings.lookup name

/-- The names that resolve from a scope, in any order. -/
def Lists (maps : NestedMaps) (s : Nat) (names : List Text) : Prop :=
  names.Nodup ∧ ∀ name, name ∈ names ↔ ∃ owner, maps.Resolves name s (some owner)

/-- What an operation answers and which maps it leaves. -/
inductive Does (maps : NestedMaps) : ScopeOperation → ScopeAnswer → NestedMaps → Prop
  | make {around} : (∀ out ∈ around, out < maps.length) →
      Does maps (.make around) (.made maps.length) (maps ++ [⟨around, ∅⟩])
  | declared {s name value constant map} : maps[s]? = some map → name ∉ map.bindings →
      Does maps (.declare s name value constant) (.value value)
        (maps.set s (map.bind name (value, constant)))
  | alreadyDeclared {s name value constant map} : maps[s]? = some map → name ∈ map.bindings →
      Does maps (.declare s name value constant) (.fault (Fault.alreadyDeclared.about "Name" name)) maps
  | assigned {s name value owner map old} : maps.Resolves name s (some owner) →
      maps[owner]? = some map → map.bindings.lookup name = some (old, false) →
      Does maps (.assign s name value) (.value value) (maps.set owner (map.bind name (value, false)))
  | assignedConstant {s name value owner old} : maps.Resolves name s owner →
      maps.read owner name = some (old, true) →
      Does maps (.assign s name value) (.fault (Fault.assignedConstant.about "Name" name)) maps
  | assignedUndeclared {s name value} : maps.Resolves name s none →
      Does maps (.assign s name value) (.fault (Fault.assignedUndeclared.about "Name" name)) maps
  | lookup {s name owner value constant} : maps.Resolves name s owner →
      maps.read owner name = some (value, constant) →
      Does maps (.lookup s name) (.value value) maps
  | undeclared {s name names} : maps.Resolves name s none → maps.Lists s names →
      Does maps (.lookup s name) (.fault (Diagnostic.undeclared name names)) maps
  | get {s name owner} : maps.Resolves name s owner →
      Does maps (.get s name) (.found ((maps.read owner name).map Prod.fst)) maps
  | resolve {s name owner} : maps.Resolves name s owner →
      Does maps (.resolve s name) (.owner owner) maps
  | isConstant {s name owner} : maps.Resolves name s owner →
      Does maps (.isConstant s name) (.constant ((maps.read owner name).any Prod.snd)) maps
  | names {s names} : maps.Lists s names → Does maps (.names s) (.names names) maps

/-- What operations one after the other answer and which maps they leave. -/
inductive Runs : NestedMaps → List ScopeOperation → List ScopeAnswer → NestedMaps → Prop
  | done {maps} : Runs maps [] [] maps
  | step {maps operation answer next rest answers last} : Does maps operation answer next →
      Runs next rest answers last → Runs maps (operation :: rest) (answer :: answers) last

theorem Resolves.unique {maps : NestedMaps} {name : Text} {s : Nat} {a b : Option Nat}
    (first : maps.Resolves name s a) (second : maps.Resolves name s b) : a = b := by
  induction first with
  | own there binds =>
    cases second with
    | own => rfl
    | nowhere again unbound | outer again unbound =>
      obtain rfl := Option.some.inj (there.symm.trans again)
      exact absurd binds unbound
  | nowhere there unbound outermost =>
    cases second with
    | own again binds =>
      obtain rfl := Option.some.inj (there.symm.trans again)
      exact absurd binds unbound
    | nowhere => rfl
    | outer again _ inside =>
      obtain rfl := Option.some.inj (there.symm.trans again)
      nomatch outermost.symm.trans inside
  | outer there unbound inside _ ih =>
    cases second with
    | own again binds =>
      obtain rfl := Option.some.inj (there.symm.trans again)
      exact absurd binds unbound
    | nowhere again _ outermost =>
      obtain rfl := Option.some.inj (there.symm.trans again)
      nomatch outermost.symm.trans inside
    | outer again _ other rest =>
      obtain rfl := Option.some.inj (there.symm.trans again)
      obtain rfl := Option.some.inj (inside.symm.trans other)
      exact ih rest

end NestedMaps

namespace Frame

variable {frame : Frame} {name other : Text} {value : Value}

/-- The bindings of a frame as a finite map. -/
def entries (frame : Frame) : Finmap fun _ : Text => Value × Bool :=
  (frame.map fun b => (⟨b.name, b.value, b.constant⟩ : Sigma fun _ : Text => Value × Bool)).toFinmap

theorem lookup_entries (frame : Frame) (name : Text) :
    frame.entries.lookup name = (frame.find name).map fun b => (b.value, b.constant) := by
  rw [entries, Finmap.dlookup_list_toFinmap]
  unfold find
  induction frame with
  | nil => rfl
  | cons b rest ih =>
    by_cases same : b.name = name
    · subst same
      simp
    · rw [List.map_cons, List.dlookup_cons_ne _ _ (Ne.symm same), ih, List.find?_cons_of_neg]
      simpa using same

theorem mem_entries_iff : name ∈ frame.entries ↔ frame.binds name = true := by
  rw [Finmap.mem_iff, lookup_entries, ← Option.isSome_iff_exists, Option.isSome_map, binds]

theorem entries_declare (frame : Frame) (name : Text) (value : Value) (constant : Bool) :
    (frame.declare name value constant).entries = frame.entries.insert name (value, constant) := by
  refine Finmap.ext_lookup fun other => ?_
  rw [lookup_entries, find_declare]
  by_cases same : name = other
  · subst same
    rw [if_pos rfl, Finmap.lookup_insert, Option.map_some]
  · rw [if_neg same, Finmap.lookup_insert_of_ne _ (Ne.symm same), lookup_entries]

theorem entries_update {b : Binding} (found : frame.find name = some b) (value : Value) :
    (frame.update name value).entries = frame.entries.insert name (value, b.constant) := by
  refine Finmap.ext_lookup fun other => ?_
  rw [lookup_entries, find_update, Option.map_map]
  by_cases same : other = name
  · subst same
    rw [found, Finmap.lookup_insert, Option.map_some]
    simp
  · rw [Finmap.lookup_insert_of_ne _ same, lookup_entries]
    simp [same, Function.comp_def]

end Frame

namespace Forest

variable {forest : Forest} {s : Nat} {name : Text}

/-- A scope as a finite map that is inside another one. -/
def map (forest : Forest) (s : Nat) : NestedMap where
  around := (forest.scope s).around.head?
  bindings := (forest.frames.frame s).entries

def maps (forest : Forest) : NestedMaps := (List.range forest.scopes.size).map forest.map

/-- The scope with a number has the frame with this number, and is outermost or inside an earlier
scope. -/
structure Grown (forest : Forest) : Prop where
  size : forest.frames.size = forest.scopes.size
  innermost : ∀ s, (forest.scope s).innermost = s
  around : ∀ s, (forest.scope s).around = [] ∨
    ∃ out < s, (forest.scope s).around = (forest.scope out).chain

@[simp]
theorem length_maps (forest : Forest) : forest.maps.length = forest.scopes.size := by
  rw [maps, List.length_map, List.length_range]

theorem getElem?_maps (inside : s < forest.scopes.size) : forest.maps[s]? = some (forest.map s) := by
  rw [maps, List.getElem?_map, List.getElem?_range inside, Option.map_some]

@[simp]
theorem size_make (around : Option Nat) :
    (forest.make around).scopes.size = forest.scopes.size + 1 :=
  Array.size_push ..

theorem scope_make (forest : Forest) (around : Option Nat) (s : Nat) :
    (forest.make around).scope s =
      if s = forest.scopes.size then forest.opened around else forest.scope s := by
  unfold make scope
  rcases Nat.lt_trichotomy s forest.scopes.size with below | rfl | above
  · simp [below, Nat.ne_of_lt below, Array.getElem_push, Nat.lt_succ_of_lt below]
  · simp
  · simp [Nat.ne_of_gt above, Nat.not_lt_of_lt above, Nat.not_lt.mpr above]

theorem scope_of_size_le (outside : forest.scopes.size ≤ s) : forest.scope s = { innermost := s } := by
  simp [scope, Nat.not_lt.mpr outside]

theorem grown_empty : ({} : Forest).Grown where
  size := rfl
  innermost _ := rfl
  around _ := .inl rfl

namespace Grown

variable (grown : forest.Grown)
include grown

theorem make {around : Option Nat} (made : ∀ out ∈ around, out < forest.scopes.size) :
    (forest.make around).Grown := by
  refine ⟨by simp [Forest.make, grown.size], fun s => ?_, fun s => ?_⟩
  · rw [scope_make]
    split
    case isTrue last =>
      rw [last, ← grown.size]
      cases around <;> rfl
    case isFalse => exact grown.innermost s
  · rcases Nat.lt_trichotomy s forest.scopes.size with before | rfl | after
    · rw [scope_make, if_neg (Nat.ne_of_lt before)]
      refine (grown.around s).imp_right fun ⟨out, earlier, chain⟩ => ⟨out, earlier, ?_⟩
      rw [scope_make, if_neg (Nat.ne_of_lt (earlier.trans before)), chain]
    · -- Only the new scope can have a new link, and that to a scope made before.
      rw [scope_make, if_pos rfl]
      rcases around with _ | out
      · exact .inl rfl
      · have earlier := made out rfl
        refine .inr ⟨out, earlier, ?_⟩
        rw [scope_make, if_neg (Nat.ne_of_lt earlier)]
        rfl
    · left
      rw [scope_of_size_le (by rw [size_make]; omega)]

theorem withFrames {frames : Frames} (size : frames.size = forest.frames.size) :
    ({ forest with frames } : Forest).Grown :=
  ⟨size.trans grown.size, grown.innermost, grown.around⟩

theorem maps_make {around : Option Nat} (made : ∀ out ∈ around, out < forest.scopes.size) :
    (forest.make around).maps = forest.maps ++ [⟨around, ∅⟩] := by
  rw [maps, size_make, List.range_succ, List.map_append, maps, List.map_singleton]
  congr 1
  · refine List.map_congr_left fun s before => ?_
    have earlier := Nat.ne_of_lt (List.mem_range.mp before)
    rw [map, map, scope_make, if_neg earlier, Forest.make, Frames.frame_grow]
  · rw [map, scope_make, if_pos rfl, Forest.make, Frames.frame_grow, Frames.frame]
    cases around <;>
      simp [opened, grown.size, Frame.entries, Scope.enclose, Scope.chain, grown.innermost]

theorem resolves (inside : s < forest.scopes.size) (name : Text) :
    forest.maps.Resolves name s (forest.frames.owner? (forest.scope s) name) := by
  -- Numbers get smaller on the way out.
  induction s using Nat.strong_induction_on with
  | h s ih =>
    have there := getElem?_maps inside
    have own := grown.innermost s
    by_cases binds : (forest.frames.frame s).binds name = true
    · rw [Frames.owner?_of_binds (own.symm ▸ binds), own]
      exact .own there (Frame.mem_entries_iff.mpr binds)
    · have unbound : name ∉ (forest.map s).bindings := fun member =>
        binds (Frame.mem_entries_iff.mp member)
      rw [Frames.owner?_of_not_binds (own.symm ▸ binds)]
      rcases grown.around s with outermost | ⟨out, earlier, chain⟩
      · rw [outermost]
        exact .nowhere there unbound (by rw [map, outermost, List.head?_nil])
      · rw [chain]
        refine .outer there unbound ?_ (ih out earlier (earlier.trans inside))
        rw [map, chain, Scope.chain, List.head?_cons, grown.innermost]

theorem resolves_iff (inside : s < forest.scopes.size) {owner : Option Nat} :
    forest.maps.Resolves name s owner ↔ forest.frames.owner? (forest.scope s) name = owner :=
  ⟨(grown.resolves inside name).unique, fun same => same ▸ grown.resolves inside name⟩

theorem owner_inside {scope : Scope} {owner : Nat}
    (owned : forest.frames.owner? scope name = some owner) : owner < forest.scopes.size := by
  obtain ⟨-, b, found⟩ := Frames.owner?_eq_some owned
  by_contra outside
  rw [← grown.size] at outside
  rw [Frames.frame, Array.getD_eq_getD_getElem?, Array.getElem?_eq_none (Nat.le_of_not_lt outside)]
    at found
  cases found

theorem read_eq (scope : Scope) (name : Text) :
    forest.maps.read (forest.frames.owner? scope name) name =
      (forest.frames.binding? scope name).map fun b => (b.value, b.constant) := by
  rw [NestedMaps.read, Frames.binding?]
  rcases owned : forest.frames.owner? scope name with _ | owner
  · rfl
  · rw [Option.bind_some, getElem?_maps (grown.owner_inside owned), Option.bind_some,
      Option.bind_some, map, Frame.lookup_entries]

theorem lists (inside : s < forest.scopes.size) :
    forest.maps.Lists s (forest.frames.visible (forest.scope s)) := by
  refine ⟨Frames.nodup_visible .., fun name => ?_⟩
  rw [Frames.mem_visible]
  exact exists_congr fun owner => (grown.resolves_iff inside).symm

end Grown

theorem maps_set {frames : Frames} {owner : Nat} {entry : Value × Bool}
    (changed : ∀ id, (frames.frame id).entries =
      if owner = id then (forest.frames.frame id).entries.insert name entry
      else (forest.frames.frame id).entries) :
    ({ forest with frames } : Forest).maps =
      forest.maps.set owner ((forest.map owner).bind name entry) := by
  refine List.ext_getElem (by simp) fun id _ _ => ?_
  rw [List.getElem_set]
  simp only [maps, List.getElem_map, List.getElem_range, map, changed]
  split
  case isTrue same =>
    subst same
    rfl
  case isFalse => rfl

theorem maps_rebind {scope : Scope} {owner : Nat} {b : Binding}
    (owned : forest.frames.owner? scope name = some owner)
    (found : (forest.frames.frame owner).find name = some b) (value : Value) :
    ({ forest with frames := forest.frames.rebind scope name value } : Forest).maps =
      forest.maps.set owner ((forest.map owner).bind name (value, b.constant)) := by
  refine maps_set fun id => ?_
  rw [Frames.frame_rebind, owned]
  by_cases same : owner = id
  · subst same
    rw [if_pos rfl, if_pos rfl, Frame.entries_update found]
  · rw [if_neg fun both => same (Option.some.inj both), if_neg same]

namespace Grown

variable (grown : forest.Grown)
include grown

theorem maps_bind (inside : s < forest.scopes.size) (name : Text) (value : Value) (constant : Bool) :
    ({ forest with frames := forest.frames.bind (forest.scope s) name value constant } : Forest).maps =
      forest.maps.set s ((forest.map s).bind name (value, constant)) := by
  refine maps_set fun id => ?_
  rw [Frames.frame_bind, grown.innermost, grown.size]
  by_cases same : s = id
  · subst same
    rw [if_pos ⟨rfl, inside⟩, if_pos rfl, Frame.entries_declare]
  · rw [if_neg fun both => same both.1, if_neg same]

end Grown

section Cases
variable (forest : Forest) (s : Nat) (name : Text) (value : Value) (constant : Bool)

theorem declare_cases :
    ((forest.frames.frame (forest.scope s).innermost).binds name = true ∧
      forest.step (.declare s name value constant) =
        (.fault (Fault.alreadyDeclared.about "Name" name), forest)) ∨
    (¬ (forest.frames.frame (forest.scope s).innermost).binds name = true ∧
      forest.step (.declare s name value constant) =
        (.value value,
          { forest with frames := forest.frames.bind (forest.scope s) name value constant })) := by
  simp only [step, change, Frames.declare, Frames.declarationFault?]
  by_cases binds : (forest.frames.frame (forest.scope s).innermost).binds name = true
  · exact .inl ⟨binds, by rw [if_pos binds]⟩
  · exact .inr ⟨binds, by rw [if_neg binds]⟩

theorem assign_cases :
    (forest.frames.owner? (forest.scope s) name = none ∧
      forest.step (.assign s name value) =
        (.fault (Fault.assignedUndeclared.about "Name" name), forest)) ∨
    ∃ owner b, forest.frames.owner? (forest.scope s) name = some owner ∧
      (forest.frames.frame owner).find name = some b ∧
      forest.step (.assign s name value) =
        if b.constant then (.fault (Fault.assignedConstant.about "Name" name), forest)
        else (.value value,
          { forest with frames := forest.frames.rebind (forest.scope s) name value }) := by
  simp only [step, change, Frames.assign, Frames.assignmentFault?, Frames.binding?]
  rcases owned : forest.frames.owner? (forest.scope s) name with _ | owner
  · exact .inl ⟨rfl, rfl⟩
  · obtain ⟨-, b, found⟩ := Frames.owner?_eq_some owned
    refine .inr ⟨owner, b, rfl, found, ?_⟩
    rw [Option.bind_some, found]
    by_cases constant : b.constant = true <;> simp [constant]

end Cases

namespace Grown

variable (grown : forest.Grown)
include grown

/-- A declaration is refused or adds a binding to the map of its scope. -/
theorem declare_maps (inside : s < forest.scopes.size) (name : Text) (value : Value)
    (constant : Bool) :
    (name ∈ (forest.map s).bindings ∧
      forest.step (.declare s name value constant) =
        (.fault (Fault.alreadyDeclared.about "Name" name), forest)) ∨
    (name ∉ (forest.map s).bindings ∧
      (forest.step (.declare s name value constant)).1 = .value value ∧
      (forest.step (.declare s name value constant)).2.maps =
        forest.maps.set s ((forest.map s).bind name (value, constant))) := by
  rcases declare_cases forest s name value constant with ⟨binds, done⟩ | ⟨unbound, done⟩
  · rw [grown.innermost] at binds
    exact .inl ⟨Frame.mem_entries_iff.mpr binds, done⟩
  · rw [grown.innermost] at unbound
    rw [done]
    exact .inr ⟨fun member => unbound (Frame.mem_entries_iff.mp member), rfl,
      grown.maps_bind inside name value constant⟩

theorem declare_does (inside : s < forest.scopes.size) (name : Text) (value : Value)
    (constant : Bool) :
    forest.maps.Does (.declare s name value constant)
      (forest.step (.declare s name value constant)).1
      (forest.step (.declare s name value constant)).2.maps := by
  have there := getElem?_maps inside
  rcases grown.declare_maps inside name value constant with ⟨bound, done⟩ | ⟨unbound, answer, after⟩
  · rw [done]
    exact .alreadyDeclared there bound
  · rw [answer, after]
    exact .declared there unbound

theorem read_of_find {owner : Nat} {b : Binding}
    (owned : forest.frames.owner? (forest.scope s) name = some owner)
    (found : (forest.frames.frame owner).find name = some b) :
    forest.maps.read (some owner) name = some (b.value, b.constant) := by
  rw [← owned, grown.read_eq, Frames.binding?, owned, Option.bind_some, found, Option.map_some]

theorem assign_does (inside : s < forest.scopes.size) (name : Text) (value : Value) :
    forest.maps.Does (.assign s name value) (forest.step (.assign s name value)).1
      (forest.step (.assign s name value)).2.maps := by
  have resolves := grown.resolves inside name
  rcases assign_cases forest s name value with ⟨unowned, done⟩ | ⟨owner, b, owned, found, done⟩
  · rw [unowned] at resolves
    rw [done]
    exact .assignedUndeclared resolves
  · rw [owned] at resolves
    rcases constant : b.constant with _ | _
    · rw [done, constant, if_neg Bool.false_ne_true, maps_rebind owned found, constant]
      have bound : (forest.map owner).bindings.lookup name = some (b.value, false) := by
        rw [map, Frame.lookup_entries, found, Option.map_some, constant]
      exact .assigned resolves (getElem?_maps (grown.owner_inside owned)) bound
    · rw [done, constant, if_pos rfl]
      exact .assignedConstant resolves (constant ▸ grown.read_of_find owned found)

theorem lookup_does (inside : s < forest.scopes.size) (name : Text) :
    forest.maps.Does (.lookup s name) (forest.step (.lookup s name)).1
      (forest.step (.lookup s name)).2.maps := by
  have resolves := grown.resolves inside name
  have read := grown.read_eq (forest.scope s) name
  simp only [step, Frames.lookup, Frames.get?]
  rcases bound : forest.frames.binding? (forest.scope s) name with _ | b
  · rw [Frames.binding?_eq_none_iff.mp bound] at resolves
    exact .undeclared resolves (grown.lists inside)
  · rw [bound] at read
    exact .lookup resolves read

theorem get_eq (s : Nat) (name : Text) :
    forest.frames.get? (forest.scope s) name =
      (forest.maps.read (forest.frames.owner? (forest.scope s) name) name).map Prod.fst := by
  rw [grown.read_eq, Option.map_map]
  rfl

theorem isConstant_eq (s : Nat) (name : Text) :
    forest.frames.isConstant (forest.scope s) name =
      (forest.maps.read (forest.frames.owner? (forest.scope s) name) name).any Prod.snd := by
  rw [grown.read_eq, Frames.isConstant, Option.any_map]
  cases forest.frames.binding? (forest.scope s) name <;> rfl

end Grown

end Forest

/-- The scope that an operation names. -/
def ScopeOperation.place : ScopeOperation → Option Nat
  | .make around => around
  | .declare s .. | .assign s .. | .lookup s _ | .get s _ | .resolve s _ | .isConstant s _ | .names s =>
    some s

/-- The number of scopes after an operation. -/
def ScopeOperation.leaves (made : Nat) : ScopeOperation → Nat
  | .make _ => made + 1
  | _ => made

/-- Each operation names a scope that is made by then. -/
def Legal : Nat → List ScopeOperation → Prop
  | _, [] => True
  | made, operation :: rest => (∀ s ∈ operation.place, s < made) ∧ Legal (operation.leaves made) rest

instance decidableLegal : (made : Nat) → (operations : List ScopeOperation) →
    Decidable (Legal made operations)
  | _, [] => isTrue trivial
  | made, operation :: rest =>
    have := decidableLegal (operation.leaves made) rest
    inferInstanceAs (Decidable (_ ∧ _))

namespace Forest

variable {forest : Forest}

theorem step_cases (forest : Forest) (operation : ScopeOperation) :
    (∃ around, operation = .make around) ∨
    operation.leaves forest.scopes.size = forest.scopes.size ∧
      ∃ frames : Frames, frames.size = forest.frames.size ∧
        (forest.step operation).2 = { forest with frames } := by
  cases operation with
  | make around => exact .inl ⟨around, rfl⟩
  | declare s name value constant =>
    rcases declare_cases forest s name value constant with ⟨-, done⟩ | ⟨-, done⟩
    · exact .inr ⟨rfl, forest.frames, rfl, by rw [done]⟩
    · exact .inr ⟨rfl, _, Frames.size_bind, by rw [done]⟩
  | assign s name value =>
    rcases assign_cases forest s name value with ⟨-, done⟩ | ⟨owner, b, -, -, done⟩
    · exact .inr ⟨rfl, forest.frames, rfl, by rw [done]⟩
    · rcases constant : b.constant with _ | _
      · exact .inr ⟨rfl, _, Frames.size_rebind, by rw [done, constant]; rfl⟩
      · exact .inr ⟨rfl, forest.frames, rfl, by rw [done, constant]; rfl⟩
  | lookup s name =>
    refine .inr ⟨rfl, forest.frames, rfl, ?_⟩
    simp only [step]
    cases forest.frames.lookup (forest.scope s) name <;> rfl
  | get | resolve | isConstant | names => exact .inr ⟨rfl, forest.frames, rfl, rfl⟩

theorem size_step (operation : ScopeOperation) :
    (forest.step operation).2.scopes.size = operation.leaves forest.scopes.size := by
  rcases step_cases forest operation with ⟨around, rfl⟩ | ⟨same, frames, -, done⟩
  · exact size_make around
  · rw [done, same]

namespace Grown

variable (grown : forest.Grown) {operation : ScopeOperation}
include grown

theorem step (legal : ∀ s ∈ operation.place, s < forest.scopes.size) :
    (forest.step operation).2.Grown := by
  rcases step_cases forest operation with ⟨around, rfl⟩ | ⟨-, frames, size, done⟩
  · exact grown.make legal
  · rw [done]
    exact grown.withFrames size

theorem step_does (legal : ∀ s ∈ operation.place, s < forest.scopes.size) :
    forest.maps.Does operation (forest.step operation).1 (forest.step operation).2.maps := by
  cases operation with
  | make around =>
    have made : ∀ out ∈ around, out < forest.maps.length := forest.length_maps.symm ▸ legal
    have answer := NestedMaps.Does.make made
    have grows : (forest.make around).maps = _ := grown.maps_make legal
    rwa [length_maps, ← grows] at answer
  | declare s name value constant => exact grown.declare_does (legal s rfl) name value constant
  | assign s name value => exact grown.assign_does (legal s rfl) name value
  | lookup s name => exact grown.lookup_does (legal s rfl) name
  | get s name =>
    have answer := NestedMaps.Does.get (grown.resolves (legal s rfl) name)
    rwa [← grown.get_eq] at answer
  | resolve s name => exact .resolve (grown.resolves (legal s rfl) name)
  | isConstant s name =>
    have answer := NestedMaps.Does.isConstant (grown.resolves (legal s rfl) name)
    rwa [← grown.isConstant_eq] at answer
  | names s => exact .names (grown.lists (legal s rfl))

theorem run {operations : List ScopeOperation} (legal : Legal forest.scopes.size operations) :
    (forest.run operations).2.Grown ∧
      NestedMaps.Runs forest.maps operations (forest.run operations).1
        (forest.run operations).2.maps := by
  -- The operations that follow may name the scopes that the step leaves.
  induction operations generalizing forest with
  | nil => exact ⟨grown, .done⟩
  | cons operation rest ih =>
    obtain ⟨here, later⟩ := legal
    rw [← size_step] at later
    have next := ih (grown.step here) later
    exact ⟨next.1, .step (grown.step_does here) next.2⟩

end Grown

end Forest

/-- The operation fails with a fault of this code. -/
def ScopeAnswer.Fails (answer : ScopeAnswer) (code : Text) : Prop :=
  ∃ fault, answer = .fault fault ∧ fault.code = code

namespace ScopeAnswer

theorem fails_fault {fault : Diagnostic} {code : Text} :
    (ScopeAnswer.fault fault).Fails code ↔ fault.code = code := by
  simp [Fails]

theorem not_fails_value {value : Value} {code : Text} : ¬ (ScopeAnswer.value value).Fails code := by
  simp [Fails]

end ScopeAnswer

/-- What holds of the scopes of a forest, whatever is asked for next. -/
structure ScopeLaws (forest : Forest) : Prop where
  outward : ∀ s out, (forest.map s).around = some out → out < s
  resolves : ∀ s < forest.scopes.size, ∀ name owner,
    (forest.step (.resolve s name)).1 = .owner owner ↔ forest.maps.Resolves name s owner
  declare_fails : ∀ s < forest.scopes.size, ∀ name value constant,
    (forest.step (.declare s name value constant)).1.Fails (utf8 "RESOLVE-0002") ↔
      name ∈ (forest.map s).bindings
  declares : ∀ s < forest.scopes.size, ∀ name value constant, name ∉ (forest.map s).bindings →
    (forest.step (.declare s name value constant)).1 = .value value ∧
    (forest.step (.declare s name value constant)).2.maps =
      forest.maps.set s ((forest.map s).bind name (value, constant))
  assign_undeclared : ∀ s name value,
    (forest.step (.assign s name value)).1.Fails (utf8 "RESOLVE-0004") ↔
      (forest.step (.resolve s name)).1 = .owner none
  assign_constant : ∀ s name value,
    (forest.step (.assign s name value)).1.Fails (utf8 "RESOLVE-0003") ↔
      (forest.step (.isConstant s name)).1 = .constant true
  /-- Only one binding of the owner changes. -/
  assigns : ∀ s name value owner, (forest.step (.resolve s name)).1 = .owner (some owner) →
    (forest.step (.isConstant s name)).1 = .constant false →
    (forest.step (.assign s name value)).1 = .value value ∧
    (forest.step (.assign s name value)).2.maps =
      forest.maps.set owner ((forest.map owner).bind name (value, false))
  /-- From wherever the owner is the nearest one, the new value is seen. -/
  assigned_seen : ∀ s name value owner, (forest.step (.resolve s name)).1 = .owner (some owner) →
    (forest.step (.isConstant s name)).1 = .constant false →
    ∀ t, (forest.step (.resolve t name)).1 = .owner (some owner) →
      ((forest.step (.assign s name value)).2.step (.get t name)).1 = .found (some value)
  fault_keeps : ∀ operation fault, (forest.step operation).1 = .fault fault →
    (forest.step operation).2 = forest
  names : ∀ s names, (forest.step (.names s)).1 = .names names → names.Nodup ∧
    ∀ name, name ∈ names ↔ ∃ owner, (forest.step (.resolve s name)).1 = .owner (some owner)

namespace Forest

open ScopeAnswer

variable {forest : Forest} {s : Nat} {name : Text}

theorem step_resolve (forest : Forest) (s : Nat) (name : Text) (owner : Option Nat) :
    (forest.step (.resolve s name)).1 = .owner owner ↔
      forest.frames.owner? (forest.scope s) name = owner := by
  simp [step]

theorem step_isConstant {owner : Nat} {b : Binding}
    (owned : forest.frames.owner? (forest.scope s) name = some owner)
    (found : (forest.frames.frame owner).find name = some b) (constant : Bool) :
    (forest.step (.isConstant s name)).1 = .constant constant ↔ b.constant = constant := by
  simp [step, Frames.isConstant, Frames.binding?, owned, found]

theorem fault_keeps {operation : ScopeOperation} {fault : Diagnostic}
    (failed : (forest.step operation).1 = .fault fault) : (forest.step operation).2 = forest := by
  cases operation with
  | make | get | resolve | isConstant | names => nomatch failed
  | declare s name value constant =>
    rcases declare_cases forest s name value constant with ⟨-, done⟩ | ⟨-, done⟩
    · rw [done]
    · rw [done] at failed
      nomatch failed
  | assign s name value =>
    rcases assign_cases forest s name value with ⟨-, done⟩ | ⟨owner, b, -, -, done⟩
    · rw [done]
    · rcases constant : b.constant with _ | _
      · rw [done, constant] at failed
        nomatch failed
      · rw [done, constant]
        rfl
  | lookup s name =>
    simp only [step]
    cases forest.frames.lookup (forest.scope s) name <;> rfl

theorem assign_undeclared_iff (s : Nat) (name : Text) (value : Value) :
    (forest.step (.assign s name value)).1.Fails (utf8 "RESOLVE-0004") ↔
      (forest.step (.resolve s name)).1 = .owner none := by
  rw [step_resolve]
  rcases assign_cases forest s name value with ⟨unowned, done⟩ | ⟨owner, b, owned, -, done⟩
  · rw [done, fails_fault, unowned]
    exact iff_of_true rfl rfl
  · rw [done, owned]
    refine iff_of_false ?_ nofun
    split
    · have differ : utf8 "RESOLVE-0003" ≠ utf8 "RESOLVE-0004" := by decide
      exact fun failed => differ (fails_fault.mp failed)
    · exact not_fails_value

theorem assign_constant_iff (s : Nat) (name : Text) (value : Value) :
    (forest.step (.assign s name value)).1.Fails (utf8 "RESOLVE-0003") ↔
      (forest.step (.isConstant s name)).1 = .constant true := by
  rcases assign_cases forest s name value with ⟨unowned, done⟩ | ⟨owner, b, owned, found, done⟩
  · have differ : utf8 "RESOLVE-0004" ≠ utf8 "RESOLVE-0003" := by decide
    rw [done, fails_fault]
    refine iff_of_false differ ?_
    simp [step, Frames.isConstant, Frames.binding?, unowned]
  · rw [done, step_isConstant owned found]
    split
    case isTrue constant =>
      rw [fails_fault]
      exact iff_of_true rfl constant
    case isFalse mutable => exact iff_of_false not_fails_value mutable

theorem assign_done (value : Value) {owner : Nat}
    (resolved : (forest.step (.resolve s name)).1 = .owner (some owner))
    (mutable : (forest.step (.isConstant s name)).1 = .constant false) :
    ∃ b, (forest.frames.frame owner).find name = some b ∧ b.constant = false ∧
      forest.frames.owner? (forest.scope s) name = some owner ∧
      forest.step (.assign s name value) =
        (.value value,
          { forest with frames := forest.frames.rebind (forest.scope s) name value }) := by
  rw [step_resolve] at resolved
  rcases assign_cases forest s name value with ⟨unowned, -⟩ | ⟨other, b, owned, found, done⟩
  · rw [unowned] at resolved
    nomatch resolved
  · rw [owned] at resolved
    injection resolved with same
    subst same
    rw [step_isConstant owned found] at mutable
    rw [mutable] at done
    exact ⟨b, found, mutable, owned, done⟩

theorem Grown.laws (grown : forest.Grown) : ScopeLaws forest where
  outward s out inside := by
    rw [map] at inside
    rcases grown.around s with outermost | ⟨before, earlier, chain⟩
    · rw [outermost] at inside
      nomatch inside
    · rw [chain, Scope.chain, List.head?_cons, grown.innermost] at inside
      injection inside with same
      exact same ▸ earlier
  resolves s inside name owner := (step_resolve ..).trans (grown.resolves_iff inside).symm
  declare_fails s inside name value constant := by
    rcases grown.declare_maps inside name value constant with ⟨bound, done⟩ | ⟨unbound, answer, -⟩
    · rw [done, fails_fault]
      exact iff_of_true rfl bound
    · rw [answer]
      exact iff_of_false not_fails_value unbound
  declares s inside name value constant unbound :=
    (grown.declare_maps inside name value constant).elim (fun refused => absurd refused.1 unbound) And.right
  assign_undeclared := assign_undeclared_iff
  assign_constant := assign_constant_iff
  assigns s name value owner resolved mutable := by
    obtain ⟨b, found, fixed, owned, done⟩ := assign_done value resolved mutable
    rw [done, ← fixed]
    exact ⟨rfl, maps_rebind owned found value⟩
  assigned_seen s name value owner resolved mutable t there := by
    obtain ⟨b, found, fixed, owned, done⟩ := assign_done value resolved mutable
    rw [step_resolve] at there
    rw [done]
    exact congrArg ScopeAnswer.found (Frames.get?_rebind value owned found there)
  fault_keeps operation fault failed := fault_keeps failed
  names s names listed := by
    injection listed with same
    subst same
    refine ⟨Frames.nodup_visible .., fun name => ?_⟩
    simp only [step_resolve, Frames.mem_visible]

end Forest

/-- Any number of operations, each on a scope that is made by then, are answered as nested finite maps
answer them, and leave scopes that are such maps. -/
theorem scopes_refine_nested_maps {operations : List ScopeOperation} (legal : Legal 0 operations) :
    NestedMaps.Runs [] operations (Forest.run {} operations).1 (Forest.run {} operations).2.maps ∧
      ScopeLaws (Forest.run {} operations).2 := by
  have ran := Forest.grown_empty.run legal
  exact ⟨ran.2, ran.1.laws⟩

/-- One name in two scopes of a chain, and a branch that sees the outer one only. -/
def shadowing : List ScopeOperation :=
  [.make none, .declare 0 (utf8 "x") (.boolean true) false, .declare 0 (utf8 "y") .null true,
    .make (some 0), .make (some 1), .make (some 0), .declare 1 (utf8 "x") (.string []) false,
    .assign 2 (utf8 "x") .null, .get 1 (utf8 "x"), .get 3 (utf8 "x"),
    .assign 3 (utf8 "x") (.boolean false), .get 0 (utf8 "x"), .get 2 (utf8 "x"),
    .assign 2 (utf8 "y") .null, .declare 1 (utf8 "x") .null true, .assign 3 (utf8 "z") .null,
    .resolve 2 (utf8 "x"), .resolve 2 (utf8 "y"), .isConstant 2 (utf8 "y"), .names 2]

def shadowingAnswers : List ScopeAnswer :=
  [.made 0, .value (.boolean true), .value .null, .made 1, .made 2, .made 3, .value (.string []),
    .value .null, .found (some .null), .found (some (.boolean true)),
    .value (.boolean false), .found (some (.boolean false)), .found (some .null),
    .fault (Fault.assignedConstant.about "Name" (utf8 "y")),
    .fault (Fault.alreadyDeclared.about "Name" (utf8 "x")),
    .fault (Fault.assignedUndeclared.about "Name" (utf8 "z")),
    .owner (some 1), .owner (some 0), .constant true, .names [utf8 "x", utf8 "y"]]

theorem shadowing_refines_nested_maps :
    Legal 0 shadowing ∧ (Forest.run {} shadowing).1 = shadowingAnswers ∧
      NestedMaps.Runs [] shadowing (Forest.run {} shadowing).1 (Forest.run {} shadowing).2.maps ∧
      ScopeLaws (Forest.run {} shadowing).2 := by
  have legal : Legal 0 shadowing := by decide
  exact ⟨legal, rfl, scopes_refine_nested_maps legal⟩

end Scriptlet
