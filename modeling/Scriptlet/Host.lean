import Scriptlet.Config.Basic
import Scriptlet.Eval.Machine
import Scriptlet.Files.Basic
/-!
What a command finds around itself: files, the environment, the machine, and the libraries that read
configurations, read lines and notify of changes. Nothing is assumed of these libraries.
-/
namespace Scriptlet

structure LineEditor where
  lines : Text → List Text
  /-- The history file after a session, given the one before it, if there was one, and the entries of
  the session in order. -/
  historyText : Option Text → List Text → Text

structure Notifications where
  /-- Why there are none at all, if so. -/
  absence : Option Text
  /-- Why there are none of a directory, if so. -/
  refusal : Text → Option Text

structure Host where
  files : Files
  environment : Text → Text
  home : Text
  temporary : Text
  machine : Machine
  /-- Fills a configuration from a document, or tells what is wrong with the document. -/
  readYaml : Text → Config → Except Text Config
  editor : LineEditor
  notifications : Notifications

end Scriptlet
