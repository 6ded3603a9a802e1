import Scriptlet.Config.Basic
import Scriptlet.Terminal.Yaml
/-!
Filling configurations from documents. Settings that are left out or empty keep their value, keys that
are not known are ignored, and all misfits of a document are reported together.
-/
namespace Scriptlet.Terminal

namespace Yaml

def shownLength : Nat := 10

def describe : Yaml → Text
  | .sequence _ => utf8 "!!seq"
  | .mapping _ _ => utf8 "!!map"
  | .scalar tag text _ =>
    let shown :=
      if shownLength < text.length then text.take (shownLength - 3) ++ utf8 "..." else text
    tag.text ++ utf8 " `" ++ shown ++ utf8 "`"

def lineOf : Yaml → Nat
  | .sequence line | .mapping _ line | .scalar _ _ line => line

def misfit (node : Yaml) (wanted : String) : Text :=
  utf8 "line " ++ Text.ofNat node.lineOf ++ utf8 ": cannot unmarshal " ++ node.describe
    ++ utf8 " into " ++ utf8 wanted

def repeatedKeys : List (Text × Nat × Yaml) → List Text
  | [] => []
  | (key, line, _) :: rest =>
    (rest.filter fun entry => entry.1 = key).map (fun entry =>
      utf8 "line " ++ Text.ofNat entry.2.1 ++ utf8 ": mapping key " ++ Text.quoted key
        ++ utf8 " already defined at line " ++ Text.ofNat line)
    ++ repeatedKeys rest

end Yaml

abbrev Filling (α : Type) := α × List Text

namespace Document

variable {α : Type}

def fillText (set : α → Text → α) (node : Yaml) (target : α) : Filling α :=
  match node with
  | .scalar .null _ _ => (target, [])
  | .scalar _ text _ => (set target text, [])
  | other => (target, [other.misfit "string"])

def fillDuration (set : α → Int → α) (node : Yaml) (target : α) : Filling α :=
  match node with
  | .scalar .null _ _ => (target, [])
  | .scalar .string text _ =>
    match Duration.read? text with
    | some duration => (set target duration, [])
    | none => (target, [node.misfit "time.Duration"])
  | other => (target, [other.misfit "time.Duration"])

def fillEntries (field : Text → Option (Yaml → α → Filling α)) :
    List (Text × Nat × Yaml) → α → Filling α
  | [], target => (target, [])
  | (key, _, node) :: rest, target =>
    match field key with
    | none => fillEntries field rest target
    | some fill =>
      let (target, complaints) := fill node target
      let (target, more) := fillEntries field rest target
      (target, complaints ++ more)

def fillMapping (type : String) (field : Text → Option (Yaml → α → Filling α)) (node : Yaml)
    (target : α) : Filling α :=
  match node with
  | .scalar .null _ _ => (target, [])
  | .mapping entries _ =>
    match Yaml.repeatedKeys entries with
    | [] => fillEntries field entries target
    | complaints => (target, complaints)
  | other => (target, [other.misfit type])

def logField (key : Text) : Option (Yaml → Config → Filling Config) :=
  if key = utf8 "level" then
    some (fillText fun c text => { c with log := { c.log with level := text } })
  else if key = utf8 "format" then
    some (fillText fun c text => { c with log := { c.log with format := text } })
  else if key = utf8 "output" then
    some (fillText fun c text => { c with log := { c.log with output := text } })
  else none

def scriptField (key : Text) : Option (Yaml → Config → Filling Config) :=
  if key = utf8 "extension" then some (fillText fun c text => { c with extension := text })
  else none

def sessionField (key : Text) : Option (Yaml → Config → Filling Config) :=
  if key = utf8 "history_file" then some (fillText fun c text => { c with historyFile := text })
  else if key = utf8 "prompt" then some (fillText fun c text => { c with prompt := text })
  else none

def watchField (key : Text) : Option (Yaml → Config → Filling Config) :=
  if key = utf8 "debounce" then
    some (fillDuration fun c duration => { c with debounce := duration })
  else none

def section? (key : Text) : Option (Yaml → Config → Filling Config) :=
  if key = utf8 "logging" then some (fillMapping "config.LoggingConfig" logField)
  else if key = utf8 "scripts" then some (fillMapping "config.ScriptsConfig" scriptField)
  else if key = utf8 "repl" then some (fillMapping "config.REPLConfig" sessionField)
  else if key = utf8 "watch" then some (fillMapping "config.WatchConfig" watchField)
  else none

def fill (text : Text) (c : Config) : Except Text Config := do
  match ← Yaml.parse text with
  | none => return c
  | some node =>
    match fillMapping "config.Config" section? node c with
    | (config, []) => return config
    | (_, complaints) =>
      .error (utf8 "yaml: unmarshal errors:\n  " ++ Text.join (utf8 "\n  ") complaints)

end Document

end Scriptlet.Terminal
