import Scriptlet.Diagnostic.Printer
import Scriptlet.Output.Effect
import Scriptlet.Text.Space
/-!
What a session does with one entry: run it and show its value or fault, or carry out a command that
starts with a colon.
-/
namespace Scriptlet.Repl

def showFault (fault : Diagnostic) : Effect := .outLine fault.pretty

def showFailure (message : Text) : Effect := .outLine (utf8 "Error: " ++ message)

structure Answer where
  effects : List Effect
  interpreter : Interpreter
  halt : Option Int64 := none

def evaluate (bound : Nat) (i : Interpreter) (entry : Text) : Answer :=
  let (run, i) := i.run bound entry
  match run.outcome with
  | .failed fault => { effects := run.effects ++ [showFault fault], interpreter := i }
  | .halted halt =>
    { effects := run.effects ++ [.outLine halt.report], interpreter := i, halt := some halt.code }
  | .finished (some value) =>
    { effects := run.effects ++ [.outLine value.inspect], interpreter := i }
  | .finished none | .exhausted => { effects := run.effects, interpreter := i }

def listedLength : Nat := 60

def listedValue (text : Text) : Text :=
  if listedLength < text.length then text.take (listedLength - 3) ++ utf8 "..." else text

def listed (b : Binding) : Text :=
  utf8 "  " ++ utf8 (if b.constant then "const" else "let") ++ utf8 " " ++ b.name ++ utf8 ": "
    ++ b.value.typeName ++ utf8 " = " ++ listedValue b.value.inspect

def listing (i : Interpreter) : List Effect :=
  match i.userVariables with
  | [] => [.outLine (utf8 "(no user variables)")]
  | found => found.map fun b => .outLine (listed b)

def help : List Effect :=
  [.outLine (utf8 "REPL Commands:"),
    .outLine (utf8 "  :help, :h, :?   Show this help"),
    .outLine (utf8 "  :env            Show variables in scope"),
    .outLine (utf8 "  :clear          Clear all user variables"),
    .outLine (utf8 "  :ast <code>     Show how code is parsed"),
    .outLine (utf8 "  exit, quit      Exit the REPL")]

def showTree (i : Interpreter) (source : Text) : Answer :=
  match i.parse source with
  | (.ok program, event, i) =>
    { effects := [event.effect, .outLine program.text], interpreter := i }
  | (.error fault, event, i) => { effects := [event.effect, showFault fault], interpreter := i }

inductive Command where
  | help
  | scope
  | clear
  | tree (source : Text)
  | unknown (text : Text)
  deriving DecidableEq, Repr

def Command.ofText (text : Text) : Command :=
  let (name, argument) := Text.cut Text.space text
  if [utf8 ":help", utf8 ":h", utf8 ":?"].contains name then .help
  else if name = utf8 ":env" then .scope
  else if name = utf8 ":clear" then .clear
  else if name = utf8 ":ast" then .tree argument.trim
  else .unknown text

def Command.perform (i : Interpreter) : Command → Answer
  | .help => { effects := Repl.help, interpreter := i }
  | .scope => { effects := listing i, interpreter := i }
  | .clear => { effects := [.outLine (utf8 "Environment cleared")], interpreter := i.reset }
  | .tree source => showTree i source
  | .unknown text =>
    { effects :=
        [.outLine (utf8 "Unknown command: " ++ text ++ utf8 " (type :help for commands)")]
      interpreter := i }

end Scriptlet.Repl
