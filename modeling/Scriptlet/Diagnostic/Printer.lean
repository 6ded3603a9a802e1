import Scriptlet.Diagnostic.Catalog
import Scriptlet.Text.JsonString
/-!
Three written forms of a diagnostic: on one line behind its place, on several lines for a reader at
a terminal, and as a JSON object.
-/
namespace Scriptlet.Diagnostic

def placeText (p : Position) : Text :=
  utf8 "line " ++ Text.ofInt p.line ++ utf8 ", column " ++ Text.ofInt p.column

def text (d : Diagnostic) : Text :=
  (if d.file = [] then [] else d.file ++ utf8 ": ")
    ++ (if 0 < d.position.line then placeText d.position ++ utf8 ": " else [])
    ++ d.message
    ++ d.hints.flatMap fun hint => utf8 "\n  " ++ hint

def inspect (d : Diagnostic) : Text :=
  if 0 < d.position.line then placeText d.position ++ utf8 ": " ++ d.message
  else utf8 "ERROR: " ++ d.message

def heading (d : Diagnostic) : Text :=
  match d.faultClass with
  | .lexical => utf8 "Lexical error"
  | .grammar => utf8 "Syntax error"
  | _ => utf8 "Runtime error"

def pretty (d : Diagnostic) : Text :=
  let place :=
    if d.file = [] then
      if 0 < d.position.line then utf8 ": " ++ placeText d.position ++ utf8 "\n  "
      else utf8 ":\n  "
    else
      utf8 ":\n  in: " ++ d.file
        ++ (if 0 < d.position.line then utf8 "\n  at: " ++ placeText d.position else [])
        ++ utf8 "\n  "
  d.heading ++ place ++ d.message ++ d.hints.flatMap fun hint => utf8 "\n  hint: " ++ hint

/-- JSON strings of a diagnostic can be put into a page. -/
def jsonStyle : Text.JsonStyle := { markup := true, letters := true }

def jsonText (t : Text) : Text := Text.json jsonStyle t

def jsonDatum : Datum → Text
  | .text value => jsonText value
  | .integer value => Text.ofInt value
  | .boolean value => Text.ofBool value
  | .none => utf8 "null"

def jsonMember (key : Text) (value : Text) : Text := jsonText key ++ utf8 ":" ++ value

def jsonObject (members : List Text) : Text :=
  utf8 "\x7b" ++ Text.join (utf8 ",") members ++ utf8 "\x7d"

def sortedDetails (details : Details) : Details :=
  details.mergeSort fun a b => Text.le a.1 b.1

def json (d : Diagnostic) : Text :=
  let details := d.details.getD []
  jsonObject <|
    [jsonMember (utf8 "class") (jsonText d.faultClass.name),
      jsonMember (utf8 "code") (jsonText d.code),
      jsonMember (utf8 "message") (jsonText d.message)]
    ++ (if d.hints = [] then []
      else
        [jsonMember (utf8 "hints")
          (utf8 "[" ++ Text.join (utf8 ",") (d.hints.map jsonText) ++ utf8 "]")])
    ++ [jsonMember (utf8 "line") (Text.ofInt d.position.line),
      jsonMember (utf8 "column") (Text.ofInt d.position.column)]
    ++ (if d.file = [] then [] else [jsonMember (utf8 "file") (jsonText d.file)])
    ++ (if details = [] then []
      else
        [jsonMember (utf8 "data")
          (jsonObject ((sortedDetails details).map fun entry =>
            jsonMember entry.1 (jsonDatum entry.2)))])

end Scriptlet.Diagnostic
