import Scriptlet.Config.Basic
import Scriptlet.Files.Basic
import Scriptlet.Log.Handler
import Scriptlet.Output.Effect
/-!
Where output ends up. The log goes to one of the standard streams or to the end of a file; records
below its level are dropped.
-/
namespace Scriptlet

inductive LogTarget where
  | out
  | err
  | file (place : Place)
  deriving DecidableEq, Repr

structure LogSink where
  target : LogTarget
  threshold : Level
  asJson : Bool
  deriving DecidableEq, Repr

namespace LogSink

def ofSettings (settings : LogSettings) (files : Files) : Except Text (LogSink × Files) :=
  match LogSettings.level? settings.level with
  | none => .error (LogSettings.unknownLevel settings.level)
  | some threshold =>
    let sink := fun target =>
      { target, threshold, asJson := settings.format = utf8 "json" : LogSink }
    if settings.toFile then
      match files.writable settings.output with
      | .error fault =>
        .error (utf8 "failed to open log file: " ++ fault.report "open" settings.output)
      | .ok place => .ok (sink (.file place), files.extend place [])
    else if settings.output = utf8 "stdout" then .ok (sink .out, files)
    else .ok (sink .err, files)

def line (sink : LogSink) (time : Text) (record : Record) : Text :=
  if record.level < sink.threshold then []
  else if sink.asJson then record.jsonLine time
  else record.plainLine time

def share (sink : LogSink) (time : Text) (target : LogTarget) : Effect → Text
  | .out text => if target = .out then text else []
  | .err text => if target = .err then text else []
  | .log record => if target = sink.target then sink.line time record else []

def collect (sink : LogSink) (time : Text) (target : LogTarget) (effects : List Effect) : Text :=
  effects.flatMap (sink.share time target)

def applyTo (sink : LogSink) (time : Text) (effects : List Effect) (files : Files) : Files :=
  match sink.target with
  | .file place => files.extend place (sink.collect time sink.target effects)
  | _ => files

end LogSink

end Scriptlet
