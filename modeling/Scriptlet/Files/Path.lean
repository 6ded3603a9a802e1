import Scriptlet.Text.Basic
/-!
Paths as texts: components between slashes, absolute if they start with one.
-/
namespace Scriptlet.Path

def slash : UInt8 := 47

def same : Text := utf8 "."

def above : Text := utf8 ".."

def isAbsolute (path : Text) : Bool := path.head? == some slash

def components (path : Text) : List Text := Text.splitOn slash path

/-- Drops what does not count: empty components, the same directory, and a step down that is
followed by a step up. `kept` are the components so far, the last first. -/
def simplify (rooted : Bool) : List Text → List Text → List Text
  | kept, [] => kept.reverse
  | kept, component :: rest =>
    if component = [] || component = same then simplify rooted kept rest
    else if component = above then
      match kept with
      | [] => if rooted then simplify rooted [] rest else simplify rooted [above] rest
      | last :: before =>
        if last = above then simplify rooted (above :: kept) rest else simplify rooted before rest
    else simplify rooted (component :: kept) rest

/-- The shortest path that means the same, without looking at any file. -/
def clean (path : Text) : Text :=
  let rooted := isAbsolute path
  let short := Text.join [slash] (simplify rooted [] (components path))
  if rooted then slash :: short else if short = [] then same else short

def join (parts : List Text) : Text :=
  match parts.filter (· ≠ []) with
  | [] => []
  | kept => clean (Text.join [slash] kept)

def directory (path : Text) : Text :=
  clean (path.reverse.dropWhile (· != slash)).reverse

def name (path : Text) : Text := (path.reverse.takeWhile (· != slash)).reverse

def extension (path : Text) : Text :=
  if (name path).contains 46 then 46 :: ((name path).reverse.takeWhile (· != 46)).reverse else []

def absolute (here path : Text) : Text :=
  if isAbsolute path then clean path else join [here, path]

end Scriptlet.Path
