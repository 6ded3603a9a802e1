import Scriptlet.Eval.Basic
import Scriptlet.Files.Basic
import Scriptlet.Grammar.Parser
import Scriptlet.Log.Record
/-!
An interpreter runs one source after another in one global scope, so that what one declares the next
can use. It tells what happened as a list of events in order: what was printed, and records for the
diagnostic log.
-/
namespace Scriptlet

inductive Event where
  | printed (printed : Printed)
  | record (record : Record)
  deriving DecidableEq, Repr

inductive Outcome where
  | failed (fault : Diagnostic)
  | halted (halt : Halt)
  | finished (value : Option Value)
  /-- The bound on the steps of the run was reached. -/
  | exhausted

structure Run where
  events : List Event
  outcome : Outcome

structure Interpreter where
  parser : Parser := {}
  store : Store
  file : Text := []

namespace Interpreter

def globalScope : Scope := { innermost := 0 }

def freshStore (machine : Machine) : Store := { frames := #[Frame.predeclared], machine }

def fresh (machine : Machine) (file : Text) : Interpreter := { store := freshStore machine, file }

def reset (i : Interpreter) : Interpreter := { i with store := freshStore i.store.machine }

def userVariables (i : Interpreter) : List Binding := i.store.frames.userVariables globalScope

def note (i : Interpreter) (message : String) (attributes : List (Text × Attribute)) : Event :=
  .record
    { level := .debug, message := utf8 message
      attributes := (utf8 "file", .text i.file) :: attributes }

def parse (i : Interpreter) (source : Text) : Except Diagnostic Program × Event × Interpreter :=
  let (result, parser) := i.parser.parse source
  let event :=
    if parser.scans = i.parser.scans then i.note "parse CACHE HIT" []
    else i.note "parse CACHE MISS" [(utf8 "scans", .integer parser.scans)]
  let placed :=
    match result with
    | .ok program => .ok program
    | .error fault => .error (fault.orInFile i.file)
  (placed, event, { i with parser })

def conclude (i : Interpreter) : Except Stop Value → Outcome × List Event
  | .ok value => (.finished (some value), [])
  | .error (.failed fault) =>
    (.failed (fault.orInFile i.file), [i.note "run failed" [(utf8 "code", .text fault.code)]])
  | .error (.halted halt) =>
    (.halted halt, [i.note "program halted" [(utf8 "code", .integer halt.code.toInt)]])
  | .error .exhausted => (.exhausted, [])

def execute (bound : Nat) (i : Interpreter) (program : Program) : Run × Interpreter :=
  if program.isEmpty then (⟨[], .finished none⟩, i)
  else
    let (result, store) := (program.eval bound globalScope).run.run i.store
    let (outcome, records) := i.conclude result
    (⟨store.printed.reverse.map .printed ++ records, outcome⟩,
      { i with store := { store with printed := [] } })

/-- Runs a source. A source that cannot be parsed leaves the store as it is. -/
def run (bound : Nat) (i : Interpreter) (source : Text) : Run × Interpreter :=
  match i.parse source with
  | (.error fault, event, i) => (⟨[event], .failed fault⟩, i)
  | (.ok program, event, i) =>
    let (run, i) := execute bound i program
    ({ run with events := event :: run.events }, i)

/-- Runs the file at a path, which becomes the file that faults are reported in. A file that cannot
be read changes nothing. -/
def runFile (bound : Nat) (i : Interpreter) (files : Files) (path : Text) :
    Except Text (Run × Interpreter) :=
  match files.read path with
  | .error fault => .error fault
  | .ok source => .ok (run bound { i with file := path } source)

end Interpreter

namespace Run

def printed (run : Run) : List Printed :=
  run.events.filterMap fun
    | .printed printed => some printed
    | .record _ => none

def records (run : Run) : List Record :=
  run.events.filterMap fun
    | .printed _ => none
    | .record record => some record

end Run

end Scriptlet
