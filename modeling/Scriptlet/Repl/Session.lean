import Scriptlet.Host
import Scriptlet.Repl.Balance
import Scriptlet.Repl.Entry
/-!
A session takes lines, gathers them to entries, and answers each entry. Outside an entry a line can
also end the session, be a command, or be blank; inside an entry every line belongs to it. How an
input is divided into lines and how a history is kept in a file is up to the library that reads lines.
-/
namespace Scriptlet.Repl

def defaultPrompt : Text := utf8 ">> "

def continuationPrompt : Text := utf8 ".. "

def banner (version : Text) : Text :=
  utf8 "\n█ ▀█▀ █░░ ▄▀█ █▄░█ █▀▀\n█ ░█░ █▄▄ █▀█ █░▀█ █▄█ "
    ++ utf8 "v " ++ version ++ utf8 "\n"
    ++ utf8 "\nType 'exit' or Ctrl+D to quit\nUse Tab for completion, ↑↓ for history\n"
    ++ utf8 "Type ':help' for REPL commands\n\n"

def isFarewell (line : Text) : Bool := line == utf8 "exit" || line == utf8 "quit"

structure State where
  interpreter : Interpreter
  history : List Text := []
  /-- The lines of an entry that is not finished, empty if there is none. -/
  entry : Text := []

structure Step where
  effects : List Effect := []
  state : State
  ending : Option Int64 := none

def State.prompt (base : Text) (s : State) : Text :=
  if s.entry = [] then base else continuationPrompt

def State.addLine (bound : Nat) (s : State) (line : Text) : Step :=
  let entry := if s.entry = [] then line else s.entry ++ utf8 "\n" ++ line
  if needsMore entry then { state := { s with entry } }
  else
    let answer := evaluate bound s.interpreter entry
    { effects := answer.effects
      state := { interpreter := answer.interpreter, history := s.history ++ [entry] }
      ending := answer.halt }

def State.take (bound : Nat) (s : State) (line : Text) : Step :=
  let trimmed := line.trim
  if s.entry = [] then
    if isFarewell trimmed then
      { effects := [.outLine (utf8 "Goodbye!")], state := s, ending := some 0 }
    else if trimmed.head? = some 58 then
      let answer := (Command.ofText trimmed).perform s.interpreter
      { effects := answer.effects, state := { s with interpreter := answer.interpreter } }
    else if trimmed = [] then { state := s }
    else s.addLine bound line
  else s.addLine bound line

structure Ended where
  effects : List Effect
  code : Int64
  history : List Text

def parting : Effect := .outLine (utf8 "\nGoodbye!")

def converse (bound : Nat) (prompt : Text) : State → List Text → Ended
  | s, [] => { effects := [.out (s.prompt prompt), parting], code := 0, history := s.history }
  | s, line :: rest =>
    let step := s.take bound line
    let shown := .out (s.prompt prompt) :: step.effects
    match step.ending with
    | some code => { effects := shown, code, history := step.state.history }
    | none =>
      let ended := converse bound prompt step.state rest
      { ended with effects := shown ++ ended.effects }

structure Options where
  version : Text
  prompt : Text := []
  /-- The path of the history file; empty for the default one. -/
  historyFile : Text := []
  temporary : Text

def Options.historyPath (options : Options) : Text :=
  if options.historyFile = [] then Path.join [options.temporary, utf8 ".itl_history"]
  else options.historyFile

def Options.basePrompt (options : Options) : Text :=
  if options.prompt = [] then defaultPrompt else options.prompt

/-- The files after a session with a history. A file that cannot be written is left alone. -/
def Options.keep (options : Options) (editor : LineEditor) (history : List Text) (files : Files) :
    Files :=
  match files.writable options.historyPath with
  | .ok place =>
    files.put place (editor.historyText (files.read options.historyPath).toOption history)
  | .error _ => files

def start (bound : Nat) (editor : LineEditor) (options : Options) (i : Interpreter)
    (files : Files) (input : Text) : List Effect × Int64 × Files :=
  let ended := converse bound options.basePrompt { interpreter := i } (editor.lines input)
  (.out (banner options.version) :: ended.effects, ended.code,
    options.keep editor ended.history files)

end Scriptlet.Repl
