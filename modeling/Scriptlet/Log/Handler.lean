import Scriptlet.Log.Record
import Scriptlet.Text.JsonString
import Scriptlet.Text.Space
/-!
Two written forms of log records, one line each: names and values with equals signs between, and
JSON objects. The time is given by whoever writes.
-/
namespace Scriptlet.Record

def attributeText : Attribute → Text
  | .text value => value
  | .integer value => Text.ofInt value

def needsQuotes : Text.Piece → Bool
  | .stray _ => true
  | .scalar code =>
    if code < 0x80 then code ≤ 0x20 || code == 61 || code == 34
    else code == Text.replacement || Text.isWhiteSpace code || !Text.isPrintable code

def bareOrQuoted (text : Text) : Text :=
  if text = [] || (Text.pieces text).any needsQuotes then Text.quoted text else text

def pair (name value : Text) : Text := bareOrQuoted name ++ utf8 "=" ++ bareOrQuoted value

def plainLine (time : Text) (r : Record) : Text :=
  Text.join (utf8 " ")
    ((utf8 "time=" ++ time) :: pair (utf8 "level") r.level.name :: pair (utf8 "msg") r.message
      :: r.attributes.map fun a => pair a.1 (attributeText a.2))
    ++ utf8 "\n"

/-- JSON strings of the log leave markup alone. -/
def jsonStyle : Text.JsonStyle := { markup := false, letters := false }

def jsonMember (name value : Text) : Text := Text.json jsonStyle name ++ utf8 ":" ++ value

def jsonAttribute : Attribute → Text
  | .text value => Text.json jsonStyle value
  | .integer value => Text.ofInt value

def jsonLine (time : Text) (r : Record) : Text :=
  utf8 "\x7b"
    ++ Text.join (utf8 ",")
      (jsonMember (utf8 "time") (Text.json jsonStyle time)
        :: jsonMember (utf8 "level") (Text.json jsonStyle r.level.name)
        :: jsonMember (utf8 "msg") (Text.json jsonStyle r.message)
        :: r.attributes.map fun a => jsonMember a.1 (jsonAttribute a.2))
    ++ utf8 "\x7d\n"

end Scriptlet.Record
