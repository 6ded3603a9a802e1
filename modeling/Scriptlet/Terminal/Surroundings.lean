import Scriptlet.Host
import Scriptlet.Terminal.DateText
import Scriptlet.Terminal.Document
import Scriptlet.Terminal.Lines
/-!
The machine and the libraries of the program at a terminal.
-/
namespace Scriptlet.Terminal

/-- A machine whose clock stands still. -/
def machineAt (moment : Moment) : Machine :=
  { Machine.still moment with readings := fun _ => { moment, date? := DateText.read? } }

/-- Directories that are there can be watched. -/
def notificationsIn (files : Files) : Notifications where
  absence := none
  refusal directory :=
    match files.find directory with
    | .ok _ => none
    | .error fault => some fault.text

def hostAt (moment : Moment) (files : Files) (environment : Text → Text) (home temporary : Text) :
    Host where
  files := files
  environment := environment
  home := home
  temporary := temporary
  machine := machineAt moment
  readYaml := Document.fill
  editor := lineEditor
  notifications := notificationsIn files

end Scriptlet.Terminal
