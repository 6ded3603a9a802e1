import Scriptlet.Text.Printable
/-!
Quoted texts: between double quotes, a character that is not printable is written as an escape.
Every text has a quoted form on one line of printable characters.
-/
namespace Scriptlet.Text

def hexDigit (n : Nat) : UInt8 := if n < 10 then (48 + n).toUInt8 else (87 + n).toUInt8

def hex : Nat → Nat → Text
  | 0, _ => []
  | width + 1, n => hex width (n / 16) ++ [hexDigit (n % 16)]

def controlLetter? : Nat → Option UInt8
  | 7 => some 97
  | 8 => some 98
  | 12 => some 102
  | 10 => some 110
  | 13 => some 114
  | 9 => some 116
  | 11 => some 118
  | _ => none

def escapeCode (code : Nat) : Text :=
  match controlLetter? code with
  | some letter => [backslash, letter]
  | none =>
    if code < 0x20 || code == 0x7F then utf8 "\\x" ++ hex 2 code
    else if code < 0x10000 then utf8 "\\u" ++ hex 4 code
    else utf8 "\\U" ++ hex 8 code

def Piece.quoted : Piece → Text
  | .stray byte => utf8 "\\x" ++ hex 2 byte.toNat
  | .scalar code =>
    if code == quoteMark.toNat || code == backslash.toNat then [backslash, code.toUInt8]
    else if isPrintable code then encode code
    else escapeCode code

def quoted (text : Text) : Text :=
  quoteMark :: (pieces text).flatMap Piece.quoted ++ [quoteMark]

end Scriptlet.Text
