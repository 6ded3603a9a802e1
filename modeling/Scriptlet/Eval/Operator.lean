import Scriptlet.Diagnostic.Catalog
import Scriptlet.Number.Binary
import Scriptlet.Value.Equality
/-!
The operators. Arithmetic on anything but numbers gives null; comparisons are defined for each pair
of operand types, and other pairs have equality only.
-/
namespace Scriptlet

inductive Arithmetic where
  | add
  | subtract
  | multiply
  | divide
  | remainder
  deriving DecidableEq, Repr

namespace Arithmetic

def ofText? (text : Text) : Option Arithmetic :=
  if text = utf8 "+" then some .add
  else if text = utf8 "-" then some .subtract
  else if text = utf8 "*" then some .multiply
  else if text = utf8 "/" then some .divide
  else if text = utf8 "%" then some .remainder
  else none

def apply : Arithmetic → Float → Float → Float
  | .add, a, b => a + b
  | .subtract, a, b => a - b
  | .multiply, a, b => a * b
  | .divide, a, b => a / b
  | .remainder, a, b => Number.remainder a b

def onValues (operator : Text) (left right : Value) : Value :=
  match ofText? operator, left, right with
  | some arithmetic, .number a, .number b => .number (arithmetic.apply a b)
  | _, _, _ => .null

end Arithmetic

inductive Comparison where
  | equal
  | less
  | greater
  | lessOrEqual
  | greaterOrEqual
  | both
  | either
  deriving DecidableEq, Repr

namespace Comparison

def ofText? (text : Text) : Option Comparison :=
  if text = utf8 "==" then some .equal
  else if text = utf8 "<" then some .less
  else if text = utf8 ">" then some .greater
  else if text = utf8 "<=" then some .lessOrEqual
  else if text = utf8 ">=" then some .greaterOrEqual
  else if text = utf8 "&&" then some .both
  else if text = utf8 "||" then some .either
  else none

def onNumbers? (a b : Float) : Comparison → Option Bool
  | .equal => some (a == b)
  | .less => some (decide (a < b))
  | .greater => some (decide (b < a))
  | .lessOrEqual => some (decide (a ≤ b))
  | .greaterOrEqual => some (decide (b ≤ a))
  | .both | .either => none

def onBooleans? (a b : Bool) : Comparison → Option Bool
  | .equal => some (a == b)
  | .both => some (a && b)
  | .either => some (a || b)
  | _ => none

def onValues? (operator : Text) (left right : Value) : Option Bool :=
  match ofText? operator with
  | none => none
  | some comparison =>
    match left, right with
    | .number a, .number b => comparison.onNumbers? a b
    | .boolean a, .boolean b => comparison.onBooleans? a b
    | .object _, .object _ => if comparison = .equal then some (left.equal right) else none
    | _, _ => if comparison = .equal then some (left.inspect == right.inspect) else none

def unsupported (operator : Text) (left right : Value) : Diagnostic :=
  Fault.unsupportedOperands.diagnose
    (some [(utf8 "Operator", .text operator), (utf8 "Left", .text left.typeName),
      (utf8 "Right", .text right.typeName)])

end Comparison

/-- What an operator behind its operand makes of a number. -/
def increment? (operator : Text) (value : Float) : Option Float :=
  if operator = utf8 "++" then some (value + 1)
  else if operator = utf8 "--" then some (value - 1)
  else none

end Scriptlet
