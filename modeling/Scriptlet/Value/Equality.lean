import Scriptlet.Value.Printer
/-!
Equality of values. Numbers, truth values and objects are compared by what they are, all others by
their printable form; objects are equal if they have the same names with equal values.
-/
namespace Scriptlet.Value

mutual

def equal : Value → Value → Bool
  | .number a, .number b => a == b
  | .boolean a, .boolean b => a == b
  | .object a, .object b => a.length == b.length && equalProperties a b
  | a, b => a.inspect == b.inspect

/-- Whether each property has an equal one among the others. -/
def equalProperties : List (Text × Value) → List (Text × Value) → Bool
  | [], _ => true
  | (name, value) :: rest, others =>
    (match others.lookup name with
      | some other => equal value other
      | none => false)
    && equalProperties rest others

end

end Scriptlet.Value
