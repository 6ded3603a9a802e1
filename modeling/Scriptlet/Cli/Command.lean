import Scriptlet.Cli.Check
import Scriptlet.Cli.Options
import Scriptlet.Cli.Usage
import Scriptlet.Cli.Watch
import Scriptlet.Config.Load
import Scriptlet.Log.Sink
import Scriptlet.Repl.Session
/-!
The command as a whole. A command line either is answered at once, or sets up a task: the
configuration is loaded and the log opened before the task is chosen and carried out.
-/
namespace Scriptlet.Cli

inductive Task where
  | inline (code : Text)
  | check (paths : List Text)
  | watch (path : Text)
  | scripts (path : Text)
  | session
  deriving DecidableEq, Repr

/-- The task that options call for: code goes before checking, checking before watching, watching
before running, and without arguments a session is started. -/
def Options.task (options : Options) : Except Text Task :=
  if options.code ≠ [] then .ok (.inline options.code)
  else if options.check then
    if options.arguments = [] then .error (utf8 "--check requires at least one file")
    else .ok (.check options.arguments)
  else if options.watch then
    match options.arguments with
    | [path] => .ok (.watch path)
    | _ => .error (utf8 "--watch requires exactly one file")
  else
    match options.arguments with
    | [] => .ok .session
    | path :: _ => .ok (.scripts path)

structure Setup where
  host : Host
  config : Config
  sink : LogSink

inductive Beginning where
  | answered (report : Report)
  | prepared (setup : Setup) (options : Options)

def usageStatus : Int64 := 2

def begin (host : Host) (arguments : List Text) : Beginning :=
  match Options.read {} arguments with
  | .error fault =>
    .answered
      { effects := [.errLine fault.message, .err usage], status := usageStatus
        failure := some fault.message }
  | .ok options =>
    if options.help then .answered { effects := [.out usage] }
    else if options.version then .answered { effects := [.outLine versionLine] }
    else
      match Config.load host options.configPath with
      | .error fault => .answered (.refused failureStatus (utf8 "loading config: " ++ fault))
      | .ok (config, _) =>
        match LogSink.ofSettings config.log host.files with
        | .error fault => .answered (.refused failureStatus (utf8 "creating logger: " ++ fault))
        | .ok (sink, files) => .prepared { host := { host with files }, config, sink } options

namespace Setup

def sessionOptions (setup : Setup) : Repl.Options :=
  { version, prompt := setup.config.prompt, historyFile := setup.config.historyFile
    temporary := setup.host.temporary }

def sessionName : Text := utf8 "<repl>"

/-- Starts to watch, and stops at once. -/
def watchOnce (bound : Nat) (setup : Setup) (path : Text) : Report :=
  match Watcher.start bound setup.host.notifications setup.host.machine setup.host.files path with
  | .error fault => .refused failureStatus fault
  | .ok (effects, _) => { effects }

/-- Carries out a task on an input. A watcher gets no signals. -/
def perform (bound : Nat) (setup : Setup) (cancelled : Bool) (input : Text) :
    Task → Report × Files
  | .inline code =>
    (runInline bound (.fresh setup.host.machine inlineName) code, setup.host.files)
  | .check paths => (checkFiles setup.host.files cancelled paths, setup.host.files)
  | .watch path => (setup.watchOnce bound path, setup.host.files)
  | .scripts path =>
    (runPath bound setup.host.machine setup.host.files setup.config.extension path,
      setup.host.files)
  | .session =>
    let (effects, status, files) :=
      Repl.start bound setup.host.editor setup.sessionOptions
        (.fresh setup.host.machine sessionName) setup.host.files input
    ({ effects, status }, files)

end Setup

structure Finished where
  out : Text
  err : Text
  files : Files
  status : Int64
  failure : Option Text

namespace Finished

/-- A command that ended before a log was open. -/
def ofReport (files : Files) (report : Report) : Finished :=
  { out := Effect.outText report.effects, err := Effect.errText report.effects, files
    status := report.status, failure := report.failure }

def ofLogged (sink : LogSink) (time : Text) (report : Report) (files : Files) : Finished :=
  { out := sink.collect time .out report.effects
    err := sink.collect time .err report.effects
    files := sink.applyTo time report.effects files
    status := report.status, failure := report.failure }

end Finished

/-- Runs a command line. The log is written with one time throughout. -/
def run (bound : Nat) (host : Host) (time : Text) (cancelled : Bool) (input : Text)
    (arguments : List Text) : Finished :=
  match begin host arguments with
  | .answered report => .ofReport host.files report
  | .prepared setup options =>
    let (report, files) :=
      match options.task with
      | .error fault => (.refused usageStatus fault, setup.host.files)
      | .ok task => setup.perform bound cancelled input task
    .ofLogged setup.sink time report files

end Scriptlet.Cli
