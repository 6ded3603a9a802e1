import Scriptlet.Tree.Basic
/-!
Values of the language, and the scopes that functions close over. Frames, which hold the bindings of
names, live in a store and are referred to by number.
-/
namespace Scriptlet

inductive Native where
  | print
  | println
  | time
  | exit
  deriving DecidableEq, Repr

def Native.name : Native → Text
  | .print => utf8 "print"
  | .println => utf8 "println"
  | .time => utf8 "time"
  | .exit => utf8 "exit"

abbrev FrameId := Nat

/-- The frames in which names are looked up: the innermost one, then those around it from the inside
to the outside. -/
structure Scope where
  innermost : FrameId
  around : List FrameId := []
  deriving DecidableEq, Repr

namespace Scope

def chain (scope : Scope) : List FrameId := scope.innermost :: scope.around

def enclose (scope : Scope) (frame : FrameId) : Scope := ⟨frame, scope.chain⟩

end Scope

inductive Value where
  | null
  | boolean (value : Bool)
  | number (value : Float)
  | string (value : Text)
  | object (properties : List (Text × Value))
  | function (name : Text) (parameters : List Text) (body : List Stmt) (scope : Scope)
  | native (function : Native)
  deriving Inhabited

namespace Value

/-- What holds of an object if it holds of its properties, and of all other values, holds of all. -/
@[elab_as_elim]
theorem byParts {motive : Value → Prop} (null : motive .null) (boolean : ∀ b, motive (.boolean b))
    (number : ∀ x, motive (.number x)) (string : ∀ text, motive (.string text))
    (function : ∀ name parameters body scope, motive (.function name parameters body scope))
    (native : ∀ which, motive (.native which))
    (object : ∀ properties, (∀ property ∈ properties, motive property.2) →
      motive (.object properties)) :
    ∀ value, motive value
  | .null => null
  | .boolean b => boolean b
  | .number x => number x
  | .string text => string text
  | .function name parameters body scope => function name parameters body scope
  | .native which => native which
  | .object properties => object properties fun property member => by
      have := List.sizeOf_lt_of_mem member
      exact byParts null boolean number string function native object property.2
termination_by value => sizeOf value
decreasing_by
  rcases property with ⟨name, value⟩
  simp only [Prod.mk.sizeOf_spec, Value.object.sizeOf_spec] at *
  omega

def typeLabel : Value → Text
  | .null => utf8 "NULL"
  | .boolean _ => utf8 "BOOLEAN"
  | .number _ => utf8 "NUMBER"
  | .string _ => utf8 "STRING"
  | .object _ => utf8 "OBJECT"
  | .function .. => utf8 "FUNCTION"
  | .native _ => utf8 "NATIVE_FUNCTION"

def typeName : Value → Text
  | .null => utf8 "null"
  | .boolean _ => utf8 "boolean"
  | .number _ => utf8 "number"
  | .string _ => utf8 "string"
  | .object _ => utf8 "object"
  | .function .. => utf8 "function"
  | .native _ => utf8 "native function"

end Value

end Scriptlet
