import Scriptlet.Config.Duration
import Scriptlet.Log.Record
import Scriptlet.Text.Quoted
/-!
The configuration: what can be set, its defaults, and which settings are valid. All faults of a
configuration are reported at once.
-/
namespace Scriptlet

structure LogSettings where
  level : Text := []
  format : Text := []
  /-- `stderr`, `stdout` or the path of a file. -/
  output : Text := []
  deriving DecidableEq, Repr

structure Config where
  /-- The directory of the configuration file, for which relative paths are meant. -/
  base : Text := []
  log : LogSettings := { level := utf8 "warn", format := utf8 "text", output := utf8 "stderr" }
  extension : Text := utf8 ".itl"
  historyFile : Text := []
  prompt : Text := utf8 ">> "
  /-- How long a script that is watched must be quiet before it is run again, in nanoseconds. -/
  debounce : Int := 100000000
  deriving DecidableEq, Repr

def LogSettings.level? (name : Text) : Option Level :=
  if name = utf8 "debug" then some .debug
  else if name = utf8 "info" then some .info
  else if name = utf8 "warn" then some .warn
  else if name = utf8 "error" then some .error
  else none

def LogSettings.unknownLevel (name : Text) : Text := utf8 "invalid log level: " ++ name

def LogSettings.toFile (settings : LogSettings) : Bool :=
  settings.output ≠ [] && settings.output ≠ utf8 "stderr" && settings.output ≠ utf8 "stdout"

namespace Config

def complaints (c : Config) : List Text :=
  (if (LogSettings.level? c.log.level).isSome then []
    else
      [LogSettings.unknownLevel c.log.level ++ utf8 " (must be debug, info, warn, or error)"])
  ++ (if c.log.format = utf8 "json" || c.log.format = utf8 "text" then []
    else [utf8 "invalid log format: " ++ c.log.format ++ utf8 " (must be json or text)"])
  ++ (if c.log.output = [] then
      [utf8 "logging.output is required (stderr, stdout, or a file path)"]
    else [])
  ++ (if c.extension.head? = some 46 && 2 ≤ c.extension.length then []
    else
      [utf8 "invalid script extension: " ++ Text.quoted c.extension
        ++ utf8 " (must start with '.')"])
  ++ (if c.debounce < 0 then
      [utf8 "invalid watch debounce: " ++ Duration.print c.debounce
        ++ utf8 " (must not be negative)"]
    else [])

def validate (c : Config) : Except Text Config :=
  match c.complaints with
  | [] => .ok c
  | complaints =>
    .error (utf8 "configuration errors:\n  - " ++ Text.join (utf8 "\n  - ") complaints)

end Config

end Scriptlet
