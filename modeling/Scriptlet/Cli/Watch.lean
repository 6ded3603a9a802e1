import Scriptlet.Cli.Script
import Scriptlet.Host
/-!
Watching a script. It is run at the start, and again once it has been quiet for a while after a
change. Every change of the script sets a new timer and forgets the one before; only the timer that
is waited for leads to a run when it fires.
-/
namespace Scriptlet.Cli

structure Operations where
  create : Bool := false
  write : Bool := false
  /-- All that was done, as the notifications put it. -/
  words : Text := []
  deriving DecidableEq, Repr

inductive Signal where
  | change (name : Text) (operations : Operations)
  | trouble (message : Text)
  | alarm (timer : Nat)
  | close
  deriving DecidableEq, Repr

inductive Reaction where
  | note (record : Record)
  | rerun
  deriving DecidableEq, Repr

structure WatchLoop where
  /-- The number of timers that were set. -/
  timers : Nat := 0
  /-- The timer that is waited for. -/
  pending : Option Nat := none
  closed : Bool := false
  deriving DecidableEq, Repr

def isRelevant (path name : Text) (operations : Operations) : Bool :=
  Path.clean name == path && (operations.write || operations.create)

namespace WatchLoop

/-- Sets a timer and waits for it only. -/
def setTimer (loop : WatchLoop) : WatchLoop :=
  { loop with timers := loop.timers + 1, pending := some loop.timers }

def changeRecord (path : Text) (operations : Operations) : Record :=
  { level := .debug, message := utf8 "script changed"
    attributes := [(utf8 "file", .text path), (utf8 "op", .text operations.words)] }

def troubleRecord (message : Text) : Record :=
  { level := .error, message := utf8 "watcher error"
    attributes := [(utf8 "error", .text message)] }

def take (path : Text) (loop : WatchLoop) : Signal → WatchLoop × List Reaction
  | .change name operations =>
    if loop.closed || !isRelevant path name operations then (loop, [])
    else (loop.setTimer, [.note (changeRecord path operations)])
  | .trouble message =>
    if loop.closed then (loop, []) else (loop, [.note (troubleRecord message)])
  | .alarm timer =>
    if loop.closed || loop.pending ≠ some timer then (loop, [])
    else ({ loop with pending := none }, [.rerun])
  | .close => ({ loop with closed := true }, [])

end WatchLoop

structure Watcher where
  path : Text
  interpreter : Interpreter
  loop : WatchLoop := {}

namespace Watcher

/-- Runs the script in a fresh global scope. -/
def runOnce (bound : Nat) (files : Files) (w : Watcher) : List Effect × Watcher :=
  let run := runScript bound files w.path w.interpreter.reset
  let told :=
    match run.stop with
    | none => []
    | some status =>
      if status = 0 then []
      else
        [.errLine
          (utf8 "[watch] " ++ w.path ++ utf8 " stopped with status " ++ Text.ofInt status.toInt)]
  (run.effects ++ told, { w with interpreter := run.interpreter })

def react (bound : Nat) (files : Files) (w : Watcher) : Reaction → List Effect × Watcher
  | .note record => ([.log record], w)
  | .rerun => w.runOnce bound files

def reactAll (bound : Nat) (files : Files) : Watcher → List Reaction → List Effect × Watcher
  | w, [] => ([], w)
  | w, reaction :: rest =>
    let (first, w) := w.react bound files reaction
    let (others, w) := reactAll bound files w rest
    (first ++ others, w)

def take (bound : Nat) (files : Files) (w : Watcher) (signal : Signal) :
    List Effect × Watcher :=
  let (loop, reactions) := w.loop.take w.path signal
  reactAll bound files { w with loop } reactions

def startRecord (path : Text) : Record :=
  { level := .info, message := utf8 "watching script", attributes := [(utf8 "file", .text path)] }

/-- Starts to watch the script at a path, which is run for the first time. Editors replace files, so
it is the directory that is watched. -/
def start (bound : Nat) (notifications : Notifications) (machine : Machine) (files : Files)
    (path : Text) : Except Text (List Effect × Watcher) :=
  let clean := Path.clean path
  let directory := Path.directory clean
  match notifications.absence, notifications.refusal directory with
  | some fault, _ => .error fault
  | none, some fault => .error (utf8 "failed to watch " ++ directory ++ utf8 ": " ++ fault)
  | none, none =>
    let (effects, w) :=
      runOnce bound files { path := clean, interpreter := .fresh machine path }
    .ok (.log (startRecord clean) :: effects, w)

end Watcher

end Scriptlet.Cli
