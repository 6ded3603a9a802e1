import Scriptlet.Proofs.Fallbacks
import Scriptlet.Proofs.Persistence
import Scriptlet.Proofs.Reordering
/-!
Equality of values. The operator gives a truth value for all operands, the one that equality has
inside objects. It is symmetric: an object whose names are among as many others has all of the others,
so each of two objects can be gone through. And a value is equal to itself unless it is, or has
somewhere inside, a number that is not.
-/
namespace Scriptlet

namespace Number

open Float.Model

theorem compare_unpacked (a b : UnpackedFloat) : b.compare a = (a.compare b).map Ordering.swap := by
  cases a with
  | notANumber => cases b <;> rfl
  | infinity sign =>
    cases b with
    | infinity other => cases sign <;> cases other <;> rfl
    | _ => cases sign <;> rfl
  | zero =>
    cases b with
    | infinity other | finite other => cases other <;> rfl
    | _ => rfl
  | finite sign m e =>
    cases b with
    | infinity other => cases other <;> rfl
    | finite other n f =>
      have swapped : (compare f e).then (compare n m) = ((compare e f).then (compare m n)).swap := by
        rw [Ordering.swap_then, Std.OrientedOrd.eq_swap (a := f), Std.OrientedOrd.eq_swap (a := n)]
      cases sign <;> cases other
      · exact congrArg (fun order => some order.swap) swapped
      · rfl
      · rfl
      · exact congrArg some swapped
    | _ => cases sign <;> rfl

theorem beq_comm (x y : Float) : (x == y) = (y == x) := by
  change (x.toModel.unpack.compare y.toModel.unpack == some .eq) =
    (y.toModel.unpack.compare x.toModel.unpack == some .eq)
  rw [compare_unpacked x.toModel.unpack]
  rcases x.toModel.unpack.compare y.toModel.unpack with _ | _ | _ | _ <;> rfl

theorem beq_self {x : Float} (isNumber : x.isNaN = false) : (x == x) = true := by
  change x.toModel.unpack.isNaN = false at isNumber
  change (x.toModel.unpack.compare x.toModel.unpack == some .eq) = true
  generalize x.toModel.unpack = unpacked at *
  cases unpacked with
  | notANumber => cases isNumber
  | infinity sign | zero sign => cases sign <;> rfl
  | finite sign m e =>
    have same : (compare e e).then (compare m m) = .eq := by
      rw [Std.ReflOrd.compare_self, Std.ReflOrd.compare_self]
      rfl
    cases sign
    · exact congrArg (fun order => some order.swap == some .eq) same
    · exact congrArg (fun order => some order == some .eq) same

end Number

namespace Value

/-- A value is a part of itself, and the parts of properties are parts of their object. -/
inductive Part (part : Value) : Value → Prop where
  | whole : Part part part
  | property {properties : List (Text × Value)} {property : Text × Value} :
      property ∈ properties → Part part property.2 → Part part (.object properties)

/-- No object in the value has two properties of one name. -/
def Distinct (value : Value) : Prop :=
  ∀ properties, Part (.object properties) value → (properties.map Prod.fst).Nodup

/-- There is no NaN in the value. -/
def NaNFree (value : Value) : Prop := ∀ number, Part (.number number) value → number.isNaN = false

variable {properties others : List (Text × Value)} {entry : Text × Value} {name : Text}
  {value other : Value}

theorem Distinct.names (distinct : (object properties).Distinct) : (properties.map Prod.fst).Nodup :=
  distinct properties .whole

theorem Distinct.inside (distinct : (object properties).Distinct) (member : entry ∈ properties) :
    entry.2.Distinct :=
  fun inner part => distinct inner (.property member part)

theorem NaNFree.inside (free : (object properties).NaNFree) (member : entry ∈ properties) :
    entry.2.NaNFree :=
  fun number part => free number (.property member part)

theorem mem_of_lookup (found : properties.lookup name = some value) :
    (name, value) ∈ properties := by
  obtain ⟨before, after, rfl, -⟩ := List.lookup_eq_some_iff.mp found
  simp

theorem lookup_of_mem (distinct : (properties.map Prod.fst).Nodup) (member : entry ∈ properties) :
    properties.lookup entry.1 = some entry.2 := by
  induction properties with
  | nil => cases member
  | cons first rest ih =>
    obtain ⟨fresh, later⟩ := List.nodup_cons.mp distinct
    rcases List.mem_cons.mp member with rfl | inside
    · rw [List.lookup_cons, beq_self_eq_true]
    · have differ : entry.1 ≠ first.1 := by
        intro same
        exact fresh (same ▸ List.mem_map_of_mem inside)
      rw [List.lookup_cons, beq_eq_false_iff_ne.mpr differ]
      exact ih later inside

theorem exists_lookup_iff : (∃ value, properties.lookup name = some value) ↔
    name ∈ properties.map Prod.fst := by
  rw [← Option.isSome_iff_exists, List.lookup_isSome_iff, List.mem_map]
  exact exists_congr fun entry => and_congr_right fun _ => by rw [beq_iff_eq, eq_comm]

theorem equalAmong_iff : equalAmong others entry = true ↔
    ∃ other, others.lookup entry.1 = some other ∧ entry.2.equal other = true := by
  unfold equalAmong
  cases others.lookup entry.1 <;> simp

/-- As many names, each of which is among the others, are the same names. -/
theorem same_names (distinct : (properties.map Prod.fst).Nodup)
    (long : properties.length = others.length)
    (among : properties.map Prod.fst ⊆ others.map Prod.fst) :
    ∀ name, name ∈ properties.map Prod.fst ↔ name ∈ others.map Prod.fst := by
  have perm := (List.subperm_of_subset distinct among).perm_of_length_le (by simp [long])
  exact fun name => perm.mem_iff

/-- Objects are equal if they have the same names, and equal values under each. -/
theorem equal_object_iff (first : (properties.map Prod.fst).Nodup)
    (second : (others.map Prod.fst).Nodup) :
    (object properties).equal (object others) = true ↔
      (∀ name, name ∈ properties.map Prod.fst ↔ name ∈ others.map Prod.fst) ∧
        ∀ name value other, properties.lookup name = some value → others.lookup name = some other →
          value.equal other = true := by
  rw [equal, equalProperties_eq, Bool.and_eq_true, beq_iff_eq, List.all_eq_true]
  simp only [equalAmong_iff]
  constructor
  · rintro ⟨long, each⟩
    have among : properties.map Prod.fst ⊆ others.map Prod.fst := by
      intro name member
      obtain ⟨property, inside, rfl⟩ := List.mem_map.mp member
      obtain ⟨other, found, -⟩ := each property inside
      exact exists_lookup_iff.mp ⟨other, found⟩
    refine ⟨same_names first long among, fun name value other found there => ?_⟩
    obtain ⟨met, same, equal⟩ := each (name, value) (mem_of_lookup found)
    obtain rfl := Option.some.inj (same.symm.trans there)
    exact equal
  · rintro ⟨same, each⟩
    have perm := (List.perm_ext_iff_of_nodup first second).mpr same
    refine ⟨by simpa using perm.length_eq, fun property member => ?_⟩
    obtain ⟨other, there⟩ :=
      exists_lookup_iff.mpr ((same property.1).mp (List.mem_map_of_mem member))
    exact ⟨other, there, each _ _ _ (lookup_of_mem first member) there⟩

theorem equal_comm (first : value.Distinct) (second : other.Distinct) :
    value.equal other = other.equal value := by
  induction value using byParts generalizing other with
  | object properties ih =>
    cases other with
    | object others =>
      rw [Bool.eq_iff_iff, equal_object_iff first.names second.names,
        equal_object_iff second.names first.names]
      -- what is compared under a name are properties, so they can be compared the other way round
      have values (name : Text) (value other : Value) (found : properties.lookup name = some value)
          (there : others.lookup name = some other) : value.equal other = other.equal value :=
        ih _ (mem_of_lookup found) (first.inside (mem_of_lookup found))
          (second.inside (mem_of_lookup there))
      constructor
      · rintro ⟨same, each⟩
        refine ⟨fun name => (same name).symm, fun name other value there found => ?_⟩
        exact (values name value other found there) ▸ each name value other found there
      · rintro ⟨same, each⟩
        refine ⟨fun name => (same name).symm, fun name value other found there => ?_⟩
        exact (values name value other found there) ▸ each name other value there found
    | _ => exact BEq.comm
  | number x =>
    cases other with
    | number y => exact Number.beq_comm x y
    | _ => exact BEq.comm
  | _ => cases other <;> exact BEq.comm

theorem equal_self (distinct : value.Distinct) (free : value.NaNFree) : value.equal value = true := by
  induction value using byParts with
  | number x => exact Number.beq_self (free x .whole)
  | object properties ih =>
    rw [equal_object_iff distinct.names distinct.names]
    refine ⟨fun name => Iff.rfl, fun name value other found there => ?_⟩
    obtain rfl := Option.some.inj (found.symm.trans there)
    have member := mem_of_lookup found
    exact ih _ member (distinct.inside member) (free.inside member)
  | _ => exact BEq.rfl

end Value

/-- The operator and the equality of what is inside objects make the same distinction of types. -/
theorem Comparison.onValues?_equality (left right : Value) :
    onValues? (utf8 "==") left right = some (left.equal right) := by
  have spelled : ofText? (utf8 "==") = some .equal := rfl
  cases left <;> cases right <;> simp [onValues?, spelled, onNumbers?, onBooleans?, Value.equal]

theorem Eval.binary_equality {token : Token} (kind : token.kind = .booleanOperator)
    (left right : Value) :
    binary token (utf8 "==") left right = pure (.boolean (left.equal right)) := by
  rw [binary, if_pos kind, Comparison.onValues?_equality]

/-- Whatever its operands give, a comparison of them for equality gives whether it is equal. -/
theorem Eval.gives_equality {eval : Evaluation} {token : Token} {left right : Expr} {scope : Scope}
    {store between after : Store} {a b : Value} (kind : token.kind = .booleanOperator)
    (first : (valueOf eval left scope).Gives store a between)
    (second : (valueOf eval right scope).Gives between b after) :
    (expression eval scope (.binary token (utf8 "==") left right)).Gives store
      (.boolean (a.equal b)) after := by
  apply Action.gives_bind_iff.mpr
  refine ⟨a, between, first, ?_⟩
  apply Action.gives_bind_iff.mpr
  refine ⟨b, after, second, ?_⟩
  rw [Eval.binary_equality kind]
  rfl

/-- Restricts nothing. Its objects have each name once. -/
def Policy.distinct : Policy where
  runs _ := True
  enters _ := True
  declares _ _ := True
  shapes := List.Nodup
  base := 0
  runs_parts _ _ _ := trivial
  enters_own _ _ := trivial
  declares_own _ _ := trivial
  shapes_distinct := id

theorem Policy.Admits.distinct {value : Value} (admitted : Policy.distinct.Admits value) :
    value.Distinct := by
  intro properties part
  induction part with
  | whole =>
    cases admitted with
    | object names inside => exact names
  | property member _ ih =>
    cases admitted with
    | object names inside => exact ih (inside _ member)

theorem Policy.distinct_keeps (bound : Nat) (node : Node) (scope : Scope) :
    Policy.distinct.Keeps (node.eval bound scope) Policy.distinct.Admits :=
  Policy.keeps_eval trivial (fun _ _ => trivial) (fun _ _ => trivial) bound

theorem Store.Reaches.distinct_ready {machine : Machine} {store : Store}
    (reached : (Interpreter.freshStore machine).Reaches store) : Policy.distinct.Ready store := by
  induction reached with
  | refl => exact Interpreter.ready_fresh (Nat.zero_le _) machine
  | tail _ evaluates ih =>
    cases evaluates with
    | step bound node scope => exact (Policy.distinct_keeps bound node scope _ ih).1.ready ih

/-- What is evaluated after any other evaluations has no object with two properties of one name. -/
theorem Store.Reaches.distinct {machine : Machine} {store after : Store}
    (reached : (Interpreter.freshStore machine).Reaches store) {bound : Nat} {node : Node}
    {scope : Scope} {value : Value} (gives : (node.eval bound scope).Gives store value after) :
    value.Distinct := by
  have keeps := Policy.distinct_keeps bound node scope
  exact (keeps.gives reached.distinct_ready gives).1.distinct

/-- Equality is one relation. Comparing any two values for equality gives a truth value, which is
whether the one is equal to the other as values inside objects are. It is symmetric; objects are equal
if and only if they have the same names and equal values under each; and a value without a NaN is
equal to itself. All of this is of values whose objects have each name once, as all that are ever
evaluated do. -/
theorem Value.equality_one_relation :
    (∀ (token : Token) (bound : Nat) (left right : Expr) (scope : Scope)
        (store between after : Store) (a b : Value), token.kind = .booleanOperator →
      ((Stmt.expr left).eval bound scope).Gives store a between →
        ((Stmt.expr right).eval bound scope).Gives between b after →
          ((Stmt.expr (.binary token (utf8 "==") left right)).eval (bound + 1) scope).Gives store
            (.boolean (a.equal b)) after) ∧
      (∀ a b : Value, a.Distinct → b.Distinct → a.equal b = b.equal a) ∧
      (∀ properties others : List (Text × Value),
        (Value.object properties).Distinct → (Value.object others).Distinct →
          ((Value.object properties).equal (.object others) = true ↔
            (∀ name, name ∈ properties.map Prod.fst ↔ name ∈ others.map Prod.fst) ∧
              ∀ name a b, properties.lookup name = some a → others.lookup name = some b →
                a.equal b = true)) ∧
      (∀ value : Value, value.Distinct → value.NaNFree → value.equal value = true) ∧
      ∀ machine store, (Interpreter.freshStore machine).Reaches store →
        ∀ (bound : Nat) (node : Node) (scope : Scope) (value : Value) (after : Store),
          (node.eval bound scope).Gives store value after → value.Distinct := by
  refine ⟨?_, ?_, ?_, ?_, ?_⟩
  · intro token bound left right scope store between after a b kind first second
    exact Eval.gives_equality kind first second
  · intro a b first second
    exact equal_comm first second
  · intro properties others first second
    exact equal_object_iff first.names second.names
  · intro value distinct free
    exact equal_self distinct free
  · intro machine store reached bound node scope value after gives
    exact reached.distinct gives

/-- `{ p: { x: 1, y: null } }` -/
def nestedObject : Expr :=
  .object .none [(⟨.none, utf8 "p"⟩, .object .none
    [(⟨.none, utf8 "x"⟩, .number .none 1 (utf8 "1")),
      (⟨.none, utf8 "y"⟩, .ident ⟨.none, utf8 "null"⟩)])]

/-- `{ p: { y: null, x: 1 } }` -/
def reorderedObject : Expr :=
  .object .none [(⟨.none, utf8 "p"⟩, .object .none
    [(⟨.none, utf8 "y"⟩, .ident ⟨.none, utf8 "null"⟩),
      (⟨.none, utf8 "x"⟩, .number .none 1 (utf8 "1"))])]

/-- The properties inside. -/
def onePair : List (Text × Value) := [(utf8 "x", .number 1), (utf8 "y", .null)]

/-- The store before any program. -/
def noonStore : Store := Interpreter.freshStore (.still ⟨2024, 3, 9, 12, 0, 0, 0⟩)

theorem nested_equals_reordered :
    ((Stmt.expr (.binary { Token.none with kind := .booleanOperator } (utf8 "==")
        nestedObject reorderedObject)).eval 9 Interpreter.globalScope).Gives noonStore
      (.boolean ((Value.object [(utf8 "p", .object onePair)]).equal
        (.object [(utf8 "p", .object onePair.reverse)]))) noonStore ∧
      (Value.object onePair).equal (.object onePair.reverse) =
        (Value.object onePair.reverse).equal (.object onePair) ∧
      (∀ name a b, onePair.lookup name = some a → onePair.reverse.lookup name = some b →
        a.equal b = true) ∧
      (Value.object onePair).equal (.object onePair) = true := by
  obtain ⟨gives, comm, objects, self, distinct⟩ := Value.equality_one_relation
  have first := distinct _ _ .refl 8 (.statement (.expr nestedObject)) Interpreter.globalScope
    (.object [(utf8 "p", .object onePair)]) noonStore rfl
  have second := distinct _ _ .refl 8 (.statement (.expr reorderedObject)) Interpreter.globalScope
    (.object [(utf8 "p", .object onePair.reverse)]) noonStore rfl
  have firstInner : (Value.object onePair).Distinct := first.inside List.mem_cons_self
  have secondInner : (Value.object onePair.reverse).Distinct := second.inside List.mem_cons_self
  have free : (Value.object onePair).NaNFree := by
    intro number part
    rcases part with _ | ⟨member, part⟩
    simp only [onePair, List.mem_cons, List.not_mem_nil, or_false] at member
    rcases member with rfl | rfl
    · cases part
      decide +kernel
    · cases part
  have equal : (Value.object onePair).equal (.object onePair.reverse) = true := by decide +kernel
  refine ⟨?_, comm _ _ firstInner secondInner, ?_, self _ firstInner free⟩
  · exact gives _ 8 nestedObject reorderedObject Interpreter.globalScope noonStore noonStore
      noonStore _ _ rfl rfl rfl
  · exact ((objects _ _ firstInner secondInner).mp equal).2

end Scriptlet
