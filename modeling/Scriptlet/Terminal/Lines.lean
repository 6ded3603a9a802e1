import Scriptlet.Host
import Scriptlet.Text.Utf8
/-!
A reader of lines for the program at a terminal. A line ends with a line feed, before which a carriage
return is dropped; the end of input ends the last line. A line longer than the reader can hold comes in
parts. Sessions take any reader, and nothing is proved of this one.
-/
namespace Scriptlet.Terminal

/-- How many bytes of a line a reader can hold, its line feed included. -/
def lineRoom : Nat := 4096

def carriageReturn : UInt8 := 13

def dropReturn (line : Text) : Text :=
  if line.getLast? = some carriageReturn then line.dropLast else line

structure LineRead where
  line : Text
  isPart : Bool
  rest : Text

/-- Reads a line. A part does not end between a carriage return and what may be its line feed. -/
def readLine (input : Text) : LineRead :=
  let line := input.takeWhile (· != Text.lineFeed)
  if lineRoom ≤ line.length then
    let part := input.take lineRoom
    if part.getLast? = some carriageReturn then ⟨part.dropLast, true, input.drop (lineRoom - 1)⟩
    else ⟨part, true, input.drop lineRoom⟩
  else
    match input.drop line.length with
    | [] => ⟨line, false, []⟩
    | _ :: rest => ⟨dropReturn line, false, rest⟩

def readLines : Nat → Text → List Text
  | 0, _ => []
  | _, [] => []
  | count + 1, input => (readLine input).line :: readLines count (readLine input).rest

def lines (input : Text) : List Text := readLines input.length input

def historyRoom : Nat := 1000

def remember (history : List Text) (entry : Text) : List Text :=
  (history ++ [entry]).drop (history.length + 1 - historyRoom)

def record (history : List Text) (entry : Text) : List Text :=
  if history.getLast? = some entry then history else remember history entry

/-- The history in at most `count` lines of a file. It ends before a line that is too long or is not
UTF-8. -/
def readHistory : Nat → List Text → Text → List Text
  | 0, history, _ => history
  | _, history, [] => history
  | count + 1, history, input =>
    let read := readLine input
    if read.isPart || !Text.isUtf8 read.line then history
    else readHistory count (remember history read.line) read.rest

def historyOf (content : Text) : List Text := readHistory content.length [] content

def historyText (history : List Text) : Text := history.flatMap fun entry => entry ++ utf8 "\n"

def lineEditor : LineEditor where
  lines := lines
  historyText found entries := historyText (entries.foldl record (historyOf (found.getD [])))

end Scriptlet.Terminal
