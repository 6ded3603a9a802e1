import Scriptlet.Text.Basic
/-!
Reading numbers: decimals with an optional fraction and exponent, rounded to the nearest number, and
the names of the numbers that no decimal reaches.
-/
namespace Scriptlet.Number

/-- An unsigned decimal: digits, of which `places` stand behind the point, times a power of ten. -/
structure Reading where
  digits : Nat
  places : Nat
  exponent : Int
  deriving DecidableEq, Repr

def readExponent? : Text → Option Int
  | [] => some 0
  | mark :: rest =>
    if mark == 101 || mark == 69 then
      let (negative, digits) :=
        match rest with
        | 43 :: digits => (false, digits)
        | 45 :: digits => (true, digits)
        | digits => (false, digits)
      if digits.isEmpty || !digits.all Text.isDigit then none
      else some (if negative then -(Text.digitsValue digits : Int) else Text.digitsValue digits)
    else none

def readDecimal? (text : Text) : Option Reading := do
  let whole := text.takeWhile Text.isDigit
  let afterWhole := text.dropWhile Text.isDigit
  let (fraction, rest) :=
    match afterWhole with
    | 46 :: more => (more.takeWhile Text.isDigit, more.dropWhile Text.isDigit)
    | more => ([], more)
  if whole.isEmpty && fraction.isEmpty then none
  else
    let exponent ← readExponent? rest
    some ⟨Text.digitsValue (whole ++ fraction), fraction.length, exponent⟩

def Reading.toFloat (r : Reading) : Float :=
  let power : Int := r.exponent - r.places
  if r.digits == 0 then 0.0
  else if 400 < power then 1.0 / 0.0
  else if power < -(400 + 4 * (Nat.log2 r.digits : Int)) then 0.0
  else Float.ofScientific r.digits (decide (power < 0)) power.natAbs

def lowerAscii (text : Text) : Text := text.map fun b => if 65 ≤ b && b ≤ 90 then b + 32 else b

def readUnsigned? (text : Text) : Option Float :=
  if [utf8 "inf", utf8 "infinity"].contains (lowerAscii text) then some (1.0 / 0.0)
  else
    match readDecimal? text with
    | none => none
    | some reading => if reading.toFloat.isInf then none else some reading.toFloat

def read? (text : Text) : Option Float :=
  if lowerAscii text == utf8 "nan" then some (0.0 / 0.0)
  else
    match text with
    | 45 :: rest => (readUnsigned? rest).map fun x => -x
    | 43 :: rest => readUnsigned? rest
    | rest => readUnsigned? rest

end Scriptlet.Number
