/-!
Texts are byte strings: programs may hold bytes that are no character of any encoding, and every
column and length of the language counts bytes. A text is a list, so that each reader below is a
recursion on what is left to read.
-/
namespace Scriptlet

abbrev Text := List UInt8

def utf8 (s : String) : Text := s.toByteArray.data.toList

namespace Text

def lineFeed : UInt8 := 10

def quoteMark : UInt8 := 34

def apostrophe : UInt8 := 39

def backslash : UInt8 := 92

def space : UInt8 := 32

def join (separator : Text) : List Text → Text
  | [] => []
  | [text] => text
  | text :: rest => text ++ separator ++ join separator rest

/-- The pieces between the occurrences of `mark`; a text without it is its own only piece. -/
def splitOn (mark : UInt8) : Text → List Text
  | [] => [[]]
  | byte :: rest =>
    if byte = mark then [] :: splitOn mark rest
    else
      match splitOn mark rest with
      | [] => [[byte]]
      | piece :: pieces => (byte :: piece) :: pieces

/-- The text before the first `mark` and the text after it, which is empty without a `mark`. -/
def cut (mark : UInt8) (text : Text) : Text × Text :=
  (text.takeWhile (· != mark), (text.dropWhile (· != mark)).drop 1)

def le (a b : Text) : Bool := decide (a ≤ b)

def sort (texts : List Text) : List Text := texts.mergeSort le

def ofNat (n : Nat) : Text := (Nat.toDigits 10 n).map fun c => c.toNat.toUInt8

def ofInt : Int → Text
  | .ofNat n => ofNat n
  | .negSucc n => 45 :: ofNat (n + 1)

def ofBool (b : Bool) : Text := if b then utf8 "true" else utf8 "false"

def isLetter (byte : UInt8) : Bool :=
  (97 ≤ byte && byte ≤ 122) || (65 ≤ byte && byte ≤ 90) || byte == 95

def isDigit (byte : UInt8) : Bool := 48 ≤ byte && byte ≤ 57

def digitValue (byte : UInt8) : Nat := byte.toNat - 48

def digitsValue (digits : Text) : Nat :=
  digits.foldl (fun value byte => 10 * value + digitValue byte) 0

end Text

end Scriptlet
