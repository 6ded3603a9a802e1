import Scriptlet.Text.Utf8
/-!
White space of every script, and texts without it at their ends.
-/
namespace Scriptlet.Text

def isWhiteSpace (code : Nat) : Bool :=
  (9 ≤ code && code ≤ 13) || code == 0x20 || code == 0x85 || code == 0xA0 || code == 0x1680
    || (0x2000 ≤ code && code ≤ 0x200A) || code == 0x2028 || code == 0x2029 || code == 0x202F
    || code == 0x205F || code == 0x3000

def Piece.isSpace : Piece → Bool
  | .scalar code => isWhiteSpace code
  | .stray _ => false

def trim (text : Text) : Text :=
  let started := (pieces text).dropWhile Piece.isSpace
  let ended := (started.reverse.dropWhile Piece.isSpace).reverse
  ended.flatMap Piece.bytes

end Scriptlet.Text
