import Scriptlet.Text.Basic
/-!
UTF-8 reading that never fails: a text is cut into pieces, each the bytes of one character or one
stray byte that belongs to none. No bytes are lost, overlong forms and surrogates are stray.
-/
namespace Scriptlet.Text

inductive Piece where
  | scalar (code : Nat)
  | stray (byte : UInt8)
  deriving DecidableEq, Repr

/-- The code point that stands for what cannot be read. -/
def replacement : Nat := 0xFFFD

def encode (code : Nat) : Text :=
  if code < 0x80 then [code.toUInt8]
  else if code < 0x800 then [(0xC0 + code / 64).toUInt8, (0x80 + code % 64).toUInt8]
  else if code < 0x10000 then
    [(0xE0 + code / 4096).toUInt8, (0x80 + code / 64 % 64).toUInt8, (0x80 + code % 64).toUInt8]
  else
    [(0xF0 + code / 262144).toUInt8, (0x80 + code / 4096 % 64).toUInt8,
      (0x80 + code / 64 % 64).toUInt8, (0x80 + code % 64).toUInt8]

def isTail (byte : UInt8) : Bool := 0x80 ≤ byte && byte ≤ 0xBF

def tailBits (byte : UInt8) : Nat := byte.toNat - 0x80

/-- The second byte of a three byte character is bounded so that each code point has one form and
surrogates have none. -/
def secondOfThree (lead second : UInt8) : Bool :=
  if lead == 0xE0 then 0xA0 ≤ second && second ≤ 0xBF
  else if lead == 0xED then 0x80 ≤ second && second ≤ 0x9F
  else isTail second

/-- The second byte of a four byte character is bounded so that each code point has one form and
none lies above U+10FFFF. -/
def secondOfFour (lead second : UInt8) : Bool :=
  if lead == 0xF0 then 0x90 ≤ second && second ≤ 0xBF
  else if lead == 0xF4 then 0x80 ≤ second && second ≤ 0x8F
  else isTail second

/-- The first piece of a text that starts with `lead`, and how many bytes of `rest` it takes. -/
def firstPiece (lead : UInt8) (rest : Text) : Piece × Nat :=
  if lead < 0x80 then (.scalar lead.toNat, 0)
  else if 0xC2 ≤ lead && lead ≤ 0xDF then
    match rest with
    | b :: _ =>
      if isTail b then (.scalar ((lead.toNat - 0xC0) * 64 + tailBits b), 1) else (.stray lead, 0)
    | _ => (.stray lead, 0)
  else if 0xE0 ≤ lead && lead ≤ 0xEF then
    match rest with
    | b :: c :: _ =>
      if secondOfThree lead b && isTail c then
        (.scalar ((lead.toNat - 0xE0) * 4096 + tailBits b * 64 + tailBits c), 2)
      else (.stray lead, 0)
    | _ => (.stray lead, 0)
  else if 0xF0 ≤ lead && lead ≤ 0xF4 then
    match rest with
    | b :: c :: d :: _ =>
      if secondOfFour lead b && isTail c && isTail d then
        (.scalar ((lead.toNat - 0xF0) * 262144 + tailBits b * 4096 + tailBits c * 64
          + tailBits d), 3)
      else (.stray lead, 0)
    | _ => (.stray lead, 0)
  else (.stray lead, 0)

def pieces : Text → List Piece
  | [] => []
  | lead :: rest => (firstPiece lead rest).1 :: pieces (rest.drop (firstPiece lead rest).2)
termination_by text => text.length
decreasing_by simp only [List.length_drop, List.length_cons]; omega

namespace Piece

def bytes : Piece → Text
  | .scalar code => encode code
  | .stray byte => [byte]

def code : Piece → Nat
  | .scalar code => code
  | .stray _ => replacement

def isScalar : Piece → Bool
  | .scalar _ => true
  | .stray _ => false

end Piece

def isUtf8 (text : Text) : Bool := (pieces text).all Piece.isScalar

end Scriptlet.Text
