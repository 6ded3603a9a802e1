import Scriptlet.Config.Interpolation
import Scriptlet.Host
/-!
Finding and loading the configuration. A path that was asked for must exist; otherwise the file in
the working directory, then the one of the user is taken, and without a file the defaults apply.
-/
namespace Scriptlet

namespace Config

def exists? (host : Host) (path : Text) : Bool := (host.files.find path).isOk

def userPath (host : Host) : Text :=
  Path.join [host.home, utf8 ".config", utf8 "itl", utf8 "itl.yaml"]

def localPath : Text := utf8 "itl.yaml"

def resolve (host : Host) (explicit : Text) : Except Text (Option Text) :=
  let named := host.environment (utf8 "ITL_CONFIG")
  if explicit ≠ [] then
    if exists? host explicit then .ok (some explicit)
    else .error (utf8 "config file not found: " ++ explicit)
  else if named ≠ [] then
    if exists? host named then .ok (some named)
    else .error (utf8 "ITL_CONFIG file not found: " ++ named)
  else if exists? host localPath then .ok (some localPath)
  else if exists? host (userPath host) then .ok (some (userPath host))
  else .ok none

/-- The configuration with relative paths made absolute. -/
def rebase (base : Text) (c : Config) : Config :=
  let inBase := fun path => if Path.isAbsolute path then path else Path.join [base, path]
  { c with
    base
    historyFile := if c.historyFile = [] then [] else inBase c.historyFile
    log := if c.log.toFile then { c.log with output := inBase c.log.output } else c.log }

def ofFile (host : Host) (path : Text) : Except Text (Config × Text) := do
  let full := Path.absolute host.files.herePath path
  let content ←
    match host.files.read path with
    | .ok content => pure content
    | .error fault => throw (utf8 "failed to read config: " ++ fault)
  let config ←
    match host.readYaml (Interpolation.interpolate host.environment content) {} with
    | .ok config => pure config
    | .error fault => throw (utf8 "failed to parse config: " ++ fault)
  let valid ← (config.rebase (Path.directory full)).validate
  return (valid, full)

def load (host : Host) (explicit : Text) : Except Text (Config × Text) := do
  match ← resolve host explicit with
  | none => return (← ({} : Config).validate, [])
  | some path => ofFile host path

end Config

end Scriptlet
