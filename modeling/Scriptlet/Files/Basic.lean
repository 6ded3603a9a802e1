import Scriptlet.Files.Path
/-!
Files and directories. A place is a list of names from the root down; paths are walked from the
working directory through directories that exist.
-/
namespace Scriptlet

/-- A file or directory, as the names from the root down to it. -/
abbrev Place := List Text

inductive FileFault where
  | missing
  | notDirectory
  | isDirectory
  | invalid
  | tooLong
  deriving DecidableEq, Repr

def FileFault.text : FileFault → Text
  | .missing => utf8 "no such file or directory"
  | .notDirectory => utf8 "not a directory"
  | .isDirectory => utf8 "is a directory"
  | .invalid => utf8 "invalid argument"
  | .tooLong => utf8 "file name too long"

def FileFault.report (operation : String) (path : Text) (fault : FileFault) : Text :=
  utf8 operation ++ utf8 " " ++ path ++ utf8 ": " ++ fault.text

/-- The files and directories there are, and the working directory. The root always exists. -/
structure Files where
  here : Place
  directories : List Place
  contents : List (Place × Text)

namespace Files

def nameLimit : Nat := 255

def pathLimit : Nat := 4095

def isDirectory (files : Files) (place : Place) : Bool :=
  place.isEmpty || files.directories.contains place

def content? (files : Files) (place : Place) : Option Text := files.contents.lookup place

def occupied (files : Files) (place : Place) : Bool :=
  files.isDirectory place || (files.content? place).isSome

def entryFault? (files : Files) (place : Place) : Option FileFault :=
  if files.isDirectory place then none
  else if (files.content? place).isSome then some .notDirectory
  else some .missing

/-- Walks along the components of a path. The last one need not exist. -/
def walk (files : Files) : Place → List Text → Except FileFault Place
  | place, [] => .ok place
  | place, component :: rest =>
    match files.entryFault? place with
    | some fault => .error fault
    | none =>
      if component = [] || component = Path.same then files.walk place rest
      else if component = Path.above then files.walk place.dropLast rest
      else if nameLimit < component.length then .error .tooLong
      else files.walk (place ++ [component]) rest

def locate (files : Files) (path : Text) : Except FileFault Place :=
  if path = [] then .error .missing
  else if path.contains 0 then .error .invalid
  else if pathLimit < path.length then .error .tooLong
  else files.walk (if Path.isAbsolute path then [] else files.here) (Path.components path)

def find (files : Files) (path : Text) : Except FileFault Place :=
  match files.locate path with
  | .error fault => .error fault
  | .ok place => if files.occupied place then .ok place else .error .missing

def read (files : Files) (path : Text) : Except Text Text :=
  match files.find path with
  | .error fault => .error (fault.report "open" path)
  | .ok place =>
    match files.content? place with
    | some content => .ok content
    | none => .error (FileFault.isDirectory.report "read" path)

/-- The place at which a file can be written, if that is so. A slash at the end asks for a
directory. -/
def writable (files : Files) (path : Text) : Except FileFault Place :=
  let bare := (path.reverse.dropWhile (· == Path.slash)).reverse
  match files.locate (if bare = [] then path else bare) with
  | .error fault => .error fault
  | .ok place =>
    if files.isDirectory place || path.getLast? = some Path.slash then .error .isDirectory
    else .ok place

def put (files : Files) (place : Place) (content : Text) : Files :=
  if (files.content? place).isSome then
    { files with
      contents := files.contents.map fun entry =>
        if entry.1 = place then (place, content) else entry }
  else { files with contents := files.contents ++ [(place, content)] }

def extend (files : Files) (place : Place) (text : Text) : Files :=
  files.put place ((files.content? place).getD [] ++ text)

def erase (files : Files) (place : Place) : Files :=
  { files with contents := files.contents.filter fun entry => entry.1 ≠ place }

def fileNames (files : Files) (directory : Place) : List Text :=
  files.contents.filterMap fun entry =>
    if entry.1 ≠ [] ∧ entry.1.dropLast = directory then entry.1.getLast? else none

def ancestors : Place → List Place
  | [] => []
  | name :: rest => [] :: (ancestors rest).map (name :: ·)

def addDirectory (files : Files) (place : Place) : Files :=
  { files with
    directories := (files.directories ++ (ancestors place ++ [place])).eraseDups }

def addFile (files : Files) (place : Place) (content : Text) : Files :=
  (files.addDirectory place.dropLast).put place content

def herePath (files : Files) : Text := Path.slash :: Text.join [Path.slash] files.here

end Files

end Scriptlet
