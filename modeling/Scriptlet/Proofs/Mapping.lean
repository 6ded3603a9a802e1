import Scriptlet.Eval.Native
import Scriptlet.Eval.Operator
/-!
Values with other functions. No native function and no operator looks into a function, at its body or
the scope that it closes over; so changing these in all functions of some values changes them in the
result, and nothing else.
-/
namespace Scriptlet

variable (onBody : List Stmt → List Stmt) (onScope : Scope → Scope)

mutual

/-- The value with its functions changed. -/
def Value.mapped : Value → Value
  | .null => .null
  | .boolean value => .boolean value
  | .number value => .number value
  | .string value => .string value
  | .object properties => .object (mappedEntries properties)
  | .function name parameters body scope => .function name parameters (onBody body) (onScope scope)
  | .native function => .native function

def mappedEntries : List (Text × Value) → List (Text × Value)
  | [] => []
  | (name, value) :: rest => (name, value.mapped) :: mappedEntries rest

end

variable {onBody onScope}

theorem mappedEntries_eq (properties : List (Text × Value)) :
    mappedEntries onBody onScope properties =
      properties.map (Prod.map id (Value.mapped onBody onScope)) := by
  induction properties with
  | nil => rfl
  | cons property rest ih => rw [mappedEntries, ih]; rfl

theorem lookup_mappedEntries (properties : List (Text × Value)) (name : Text) :
    (mappedEntries onBody onScope properties).lookup name =
      (properties.lookup name).map (Value.mapped onBody onScope) := by
  induction properties with
  | nil => rfl
  | cons property rest ih =>
    rw [mappedEntries, List.lookup_cons, List.lookup_cons, ih]
    split <;> rfl

namespace Value

theorem typeName_mapped (value : Value) :
    (value.mapped onBody onScope).typeName = value.typeName := by
  cases value <;> rfl

theorem typeLabel_mapped (value : Value) :
    (value.mapped onBody onScope).typeLabel = value.typeLabel := by
  cases value <;> rfl

mutual

/-- The printable form of a function is that of its name and parameters. -/
theorem inspect_mapped (value : Value) : (value.mapped onBody onScope).inspect = value.inspect := by
  cases value with
  | object properties => rw [mapped, inspect, inspectProperties_mapped, inspect]
  | _ => rfl

theorem inspectProperties_mapped (properties : List (Text × Value)) :
    inspectProperties (mappedEntries onBody onScope properties) = inspectProperties properties := by
  cases properties with
  | nil => rfl
  | cons property rest =>
    obtain ⟨name, value⟩ := property
    have same := inspect_mapped value
    have others := inspectProperties_mapped rest
    cases value <;> simp_all [mappedEntries, mapped, inspectProperties]

end

theorem inspect_map_mapped (values : List Value) :
    (values.map (mapped onBody onScope)).map inspect = values.map inspect := by
  rw [List.map_map]
  exact List.map_congr_left fun value _ => inspect_mapped value

theorem length_mappedEntries (properties : List (Text × Value)) :
    (mappedEntries onBody onScope properties).length = properties.length := by
  rw [mappedEntries_eq, List.length_map]

mutual

theorem equal_mapped (a b : Value) :
    (a.mapped onBody onScope).equal (b.mapped onBody onScope) = a.equal b := by
  have shown : ((a.mapped onBody onScope).inspect == (b.mapped onBody onScope).inspect) =
      (a.inspect == b.inspect) := by
    rw [inspect_mapped, inspect_mapped]
  cases a with
  | object properties =>
    cases b with
    | object others =>
      simp only [mapped, equal, length_mappedEntries, equalProperties_mapped properties others]
    | _ => simpa [mapped, equal] using shown
  | _ => cases b <;> first | rfl | simpa [mapped, equal] using shown

theorem equalProperties_mapped (properties others : List (Text × Value)) :
    equalProperties (mappedEntries onBody onScope properties) (mappedEntries onBody onScope others) =
      equalProperties properties others := by
  cases properties with
  | nil => rfl
  | cons property rest =>
    obtain ⟨name, value⟩ := property
    rw [mappedEntries, equalProperties, equalProperties, equalProperties_mapped rest others,
      lookup_mappedEntries]
    rcases others.lookup name with _ | other
    · rfl
    · rw [Option.map_some]
      simp only [equal_mapped value other]

end

end Value

theorem Comparison.onValues?_mapped (operator : Text) (left right : Value) :
    onValues? operator (left.mapped onBody onScope) (right.mapped onBody onScope) =
      onValues? operator left right := by
  unfold onValues?
  rw [Value.equal_mapped, Value.inspect_mapped, Value.inspect_mapped]
  cases left <;> cases right <;> rfl

theorem Arithmetic.onValues_mapped (operator : Text) (left right : Value) :
    onValues operator (left.mapped onBody onScope) (right.mapped onBody onScope) =
      (onValues operator left right).mapped onBody onScope := by
  unfold onValues
  cases ofText? operator <;> cases left <;> cases right <;> rfl

namespace Native

variable (given : List Value)

theorem haltOf_mapped (machine : Machine) :
    haltOf machine (given.map (Value.mapped onBody onScope)) = haltOf machine given := by
  cases given with
  | nil => rfl
  | cons code rest =>
    cases code with
    | number code =>
      have message : ((rest.map (Value.mapped onBody onScope)).head?.map Value.inspect) =
          rest.head?.map Value.inspect := by
        rw [List.head?_map, Option.map_map]
        exact Option.map_congr fun value _ => Value.inspect_mapped value
      simp only [List.map_cons, Value.mapped, haltOf, message]
    | _ => rfl

theorem timeValue_mapped (reading : Reading) :
    timeValue reading (given.map (Value.mapped onBody onScope)) =
      (timeValue reading given).mapped onBody onScope := by
  cases given with
  | nil => rfl
  | cons text rest =>
    cases text with
    | string text =>
      simp only [List.map_cons, Value.mapped, timeValue]
      split <;> rfl
    | _ => rfl

end Native

/-- The binding with its value changed. -/
def Binding.mapped (onValue : Value → Value) (b : Binding) : Binding :=
  { b with value := onValue b.value }

/-- What can be seen of a variable: its name, whether it is constant, and the type and the text of its
value. -/
def Binding.row (b : Binding) : Text × Bool × Text × Text :=
  (b.name, b.constant, b.value.typeLabel, b.value.inspect)

theorem Binding.row_mapped (b : Binding) : (b.mapped (Value.mapped onBody onScope)).row = b.row := by
  simp only [row, mapped, Value.typeLabel_mapped, Value.inspect_mapped]

namespace Frame

variable {onValue : Value → Value} (frame : Frame) (name : Text)

theorem find_mapped :
    Frame.find (frame.map (Binding.mapped onValue)) name =
      (frame.find name).map (Binding.mapped onValue) := by
  rw [find, List.find?_map]
  rfl

theorem binds_mapped : Frame.binds (frame.map (Binding.mapped onValue)) name = frame.binds name := by
  rw [binds, find_mapped, Option.isSome_map, binds]

theorem names_mapped : Frame.names (frame.map (Binding.mapped onValue)) = frame.names := by
  rw [names, List.map_map]
  rfl

theorem update_mapped (value : Value) :
    (frame.update name value).map (Binding.mapped onValue) =
      Frame.update (frame.map (Binding.mapped onValue)) name (onValue value) := by
  simp only [update, List.map_map]
  apply List.map_congr_left
  intro b _
  by_cases same : b.name = name <;> simp [Binding.mapped, same]

end Frame

end Scriptlet
