import Scriptlet.Interpreter
/-!
What a command does besides ending: it writes to one of the two standard streams or to the
diagnostic log.
-/
namespace Scriptlet

inductive Effect where
  | out (text : Text)
  | err (text : Text)
  | log (record : Record)
  deriving DecidableEq, Repr

def Event.effect : Event → Effect
  | .printed what => .out what.bytes
  | .record what => .log what

def Run.effects (run : Run) : List Effect := run.events.map Event.effect

namespace Effect

def outText (effects : List Effect) : Text :=
  effects.flatMap fun
    | .out text => text
    | _ => []

def errText (effects : List Effect) : Text :=
  effects.flatMap fun
    | .err text => text
    | _ => []

theorem outText_append (effects more : List Effect) :
    outText (effects ++ more) = outText effects ++ outText more :=
  List.flatMap_append

theorem errText_append (effects more : List Effect) :
    errText (effects ++ more) = errText effects ++ errText more :=
  List.flatMap_append

def outLine (text : Text) : Effect := .out (text ++ utf8 "\n")

def errLine (text : Text) : Effect := .err (text ++ utf8 "\n")

end Effect

end Scriptlet
