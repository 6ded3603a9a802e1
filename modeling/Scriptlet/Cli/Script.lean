import Scriptlet.Cli.SourceContext
import Scriptlet.Output.Effect
import Scriptlet.Text.Case
/-!
Running scripts: code from the command line, one file, or all scripts of a directory. The scripts of
a directory run in the order of their paths, each in an interpreter of its own, up to the first that
fails or ends the program.
-/
namespace Scriptlet.Cli

structure Report where
  effects : List Effect := []
  status : Int64 := 0
  failure : Option Text := none
  deriving DecidableEq, Repr

def Report.refused (status : Int64) (failure : Text) : Report := { status, failure := some failure }

structure ScriptRun where
  effects : List Effect
  /-- The status with which the script ended the program, if it did. -/
  stop : Option Int64
  interpreter : Interpreter

def failureStatus : Int64 := 1

/-- What the end of a run leads to: a fault is shown, an end of the program is told, and a program
that does not end within the bound counts as failed. -/
def concluded (source : Text) : Outcome → List Effect × Option Int64
  | .failed fault => ([.err (faultReport fault source)], some failureStatus)
  | .halted halt => ([.outLine halt.report], some halt.code)
  | .finished _ => ([], none)
  | .exhausted => ([], some failureStatus)

def runScript (bound : Nat) (files : Files) (path : Text) (i : Interpreter) : ScriptRun :=
  match files.read path with
  | .error fault =>
    { effects :=
        [.errLine (utf8 "Error reading file '" ++ path ++ utf8 "': " ++ fault)]
      stop := some failureStatus, interpreter := i }
  | .ok source =>
    let (run, i) := i.run bound source
    let (effects, stop) := concluded source run.outcome
    { effects := run.effects ++ effects, stop, interpreter := i }

def inlineName : Text := utf8 "<eval>"

def runInline (bound : Nat) (i : Interpreter) (code : Text) : Report :=
  let (run, _) := i.run bound code
  let (effects, stop) := concluded code run.outcome
  let shown :=
    match run.outcome with
    | .finished (some value) => [.outLine value.inspect]
    | _ => []
  { effects := run.effects ++ effects ++ shown, status := stop.getD 0 }

def startRecord (path : Text) : Record :=
  { level := .debug, message := utf8 "running script", attributes := [(utf8 "file", .text path)] }

/-- Runs scripts one after another, each in a new interpreter, up to the first that stops. They take
the readings of one clock. -/
def runScripts (bound : Nat) (files : Files) : Machine → List Text → Report
  | _, [] => {}
  | machine, path :: rest =>
    let run := runScript bound files path (.fresh machine path)
    let effects := .log (startRecord path) :: run.effects
    match run.stop with
    | some status => { effects, status }
    | none =>
      let others := runScripts bound files run.interpreter.store.machine rest
      { others with effects := effects ++ others.effects }

def scriptsIn (files : Files) (extension path : Text) (place : Place) : List Text :=
  Text.sort <|
    ((files.fileNames place).filter fun name => Text.equalFold (Path.extension name) extension).map
      fun name => Path.join [path, name]

def runPath (bound : Nat) (machine : Machine) (files : Files) (extension path : Text) : Report :=
  match files.find path with
  | .error fault => .refused failureStatus (fault.report "stat" path)
  | .ok place =>
    if files.isDirectory place then
      match scriptsIn files extension path place with
      | [] =>
        .refused failureStatus (utf8 "no " ++ extension ++ utf8 " files in " ++ path)
      | paths => runScripts bound files machine paths
    else runScripts bound files machine [path]

end Scriptlet.Cli
