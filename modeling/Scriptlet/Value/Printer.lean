import Scriptlet.Number.Shortest
import Scriptlet.Text.Quoted
import Scriptlet.Value.Basic
/-!
The printable form of values. Properties of an object are in the order of their names, and texts
inside an object are quoted.
-/
namespace Scriptlet.Value

def sortByName (entries : List (Text × Text)) : List (Text × Text) :=
  entries.mergeSort fun a b => Text.le a.1 b.1

def objectText (properties : List (Text × Text)) : Text :=
  utf8 "\x7b"
    ++ Text.join (utf8 ", ") ((sortByName properties).map fun p => p.1 ++ utf8 ": " ++ p.2)
    ++ utf8 "\x7d"

mutual

def inspect : Value → Text
  | .null => utf8 "null"
  | .boolean value => Text.ofBool value
  | .number value => Number.print value
  | .string value => value
  | .object properties => objectText (inspectProperties properties)
  | .function name parameters _ _ =>
    utf8 "func " ++ name ++ utf8 "(" ++ Text.join (utf8 ", ") parameters ++ utf8 ")"
  | .native which => utf8 "native function " ++ which.name

def inspectProperties : List (Text × Value) → List (Text × Text)
  | [] => []
  | (name, .string value) :: rest => (name, Text.quoted value) :: inspectProperties rest
  | (name, value) :: rest => (name, value.inspect) :: inspectProperties rest

end

end Scriptlet.Value
