/-!
Numbers of the language are binary floating point numbers of 64 bits. A finite one is
`± mantissa · 2 ^ exponent`; here are its reading from and writing to the bits, and the operations
that are exact on that form.
-/
namespace Scriptlet.Number

structure Binary where
  negative : Bool
  mantissa : Nat
  exponent : Int
  deriving DecidableEq, Repr

/-- The exponent of the smallest positive number. -/
def leastExponent : Int := -1074

/-- The first bit of a mantissa, which the bits of a number leave out unless the exponent is the
least. -/
def leadingBit : Nat := Nat.pow 2 52

def signBit : Nat := Nat.pow 2 63

def Binary.ofFloat (x : Float) : Binary :=
  let bits : Nat := x.toBits.toNat
  let fraction : Nat := bits % leadingBit
  let biased : Nat := bits / leadingBit % Nat.pow 2 11
  { negative := bits / signBit == 1
    mantissa := if biased == 0 then fraction else fraction + leadingBit
    exponent := if biased == 0 then leastExponent else (biased : Int) - 1075 }

/-- The number with this sign and value, which must have an exact form with a mantissa below
`2 ^ 53`. -/
def Binary.toFloat (b : Binary) : Float :=
  let sign : Nat := if b.negative then signBit else 0
  if b.mantissa == 0 then Float.ofBits sign.toUInt64
  else
    let room := min (52 - Nat.log2 b.mantissa) (b.exponent - leastExponent).toNat
    let mantissa := b.mantissa * Nat.pow 2 room
    let exponent := b.exponent - room
    if mantissa < leadingBit then Float.ofBits (sign + mantissa).toUInt64
    else
      let biased := (exponent + 1075).toNat
      Float.ofBits (sign + biased * leadingBit + (mantissa - leadingBit)).toUInt64

def truncate (x : Float) : Int :=
  let b := Binary.ofFloat x
  let size : Nat :=
    if 0 ≤ b.exponent then b.mantissa * Nat.pow 2 b.exponent.toNat
    else b.mantissa / Nat.pow 2 (-b.exponent).toNat
  if b.negative then -(size : Int) else size

/-- The remainder of a division toward zero, exact and with the sign of the dividend. There is none
for an infinite dividend or a zero divisor, and an infinite divisor leaves the dividend. -/
def remainder (x y : Float) : Float :=
  if x.isNaN || y.isNaN || x.isInf || y == 0 then 0.0 / 0.0
  else if y.isInf || x == 0 then x
  else
    let a := Binary.ofFloat x
    let b := Binary.ofFloat y
    let exponent := min a.exponent b.exponent
    let dividend := a.mantissa * Nat.pow 2 (a.exponent - exponent).toNat
    let divisor := b.mantissa * Nat.pow 2 (b.exponent - exponent).toNat
    Binary.toFloat { negative := a.negative, mantissa := dividend % divisor, exponent := exponent }

end Scriptlet.Number
