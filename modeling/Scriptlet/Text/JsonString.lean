import Scriptlet.Text.Quoted
/-!
JSON strings. Writers agree on what must be escaped and differ in what they escape beside it; a
style names those choices.
-/
namespace Scriptlet.Text

structure JsonStyle where
  /-- Escape the characters that have a meaning in HTML. -/
  markup : Bool
  /-- Write backspace and form feed by their letters. -/
  letters : Bool

def jsonEscape (code : Nat) : Text := utf8 "\\u" ++ hex 4 code

/-- A piece inside a JSON string. A stray byte is written as the escaped replacement character. -/
def Piece.json (style : JsonStyle) : Piece → Text
  | .stray _ => jsonEscape replacement
  | .scalar code =>
    if code == quoteMark.toNat || code == backslash.toNat then [backslash, code.toUInt8]
    else if code == 10 then utf8 "\\n"
    else if code == 13 then utf8 "\\r"
    else if code == 9 then utf8 "\\t"
    else if style.letters && code == 8 then utf8 "\\b"
    else if style.letters && code == 12 then utf8 "\\f"
    else if code < 0x20 then jsonEscape code
    else if style.markup && (code == 60 || code == 62 || code == 38) then jsonEscape code
    else if code == 0x2028 || code == 0x2029 then jsonEscape code
    else encode code

def json (style : JsonStyle) (text : Text) : Text :=
  quoteMark :: (pieces text).flatMap (Piece.json style) ++ [quoteMark]

end Scriptlet.Text
