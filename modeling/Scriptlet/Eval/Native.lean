import Scriptlet.Eval.Action
import Scriptlet.Value.Printer
/-!
The native functions: printing, telling the time, and ending the program.
-/
namespace Scriptlet.Native

def count (n : Int) : Value := .number (Float.ofInt n)

def momentValue (m : Moment) : Value :=
  let milliseconds := count (m.nanosecond / 1000000 : Nat)
  .object
    [(utf8 "hour", count m.hour), (utf8 "minute", count m.minute), (utf8 "second", count m.second),
      (utf8 "milisecond", milliseconds), (utf8 "millisecond", milliseconds),
      (utf8 "microsecond", count (m.nanosecond / 1000 % 1000 : Nat)), (utf8 "day", count m.day),
      (utf8 "month", count m.month), (utf8 "year", count m.year)]

/-- The time of a reading, or the time that a text names; null if the argument names none. -/
def timeValue (reading : Reading) : List Value → Value
  | [] => momentValue reading.moment
  | .string text :: _ =>
    match reading.date? text with
    | some moment => momentValue moment
    | none => .null
  | _ :: _ => .null

/-- The end that a call of `exit` asks for: with the integer part of its first argument as code and
its second as message. A code that is no finite number ends with code one. -/
def haltOf (machine : Machine) : List Value → Halt
  | [] => ⟨0, []⟩
  | .number code :: rest =>
    if code.isNaN || code.isInf then ⟨1, utf8 "exit code must be finite"⟩
    else ⟨machine.whole code, (rest.head?.map Value.inspect).getD []⟩
  | other :: _ => ⟨1, utf8 "exit code must be a number, got " ++ other.typeName⟩

def apply (native : Native) (arguments : List Value) : Action Value := do
  match native with
  | .print =>
    Action.print (.part (Printed.values (arguments.map Value.inspect)))
    return .null
  | .println =>
    Action.print (.line (Printed.values (arguments.map Value.inspect)))
    return .null
  | .time => return timeValue (← Action.readClock) arguments
  | .exit => throw (.halted (haltOf (← get).machine arguments))

end Scriptlet.Native
