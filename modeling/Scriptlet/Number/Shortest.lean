import Scriptlet.Number.Binary
import Scriptlet.Text.Basic
/-!
The printed form of a number is the shortest decimal that reads back as the number, the nearest of
those if there are several, written without an exponent.
-/
namespace Scriptlet.Number

structure Decimal where
  digits : Nat
  exponent : Int
  deriving DecidableEq, Repr

/-- A ratio of counts, for exact comparison. The numbers between `low / scale` and `high / scale`
read back as `value / scale`; the ends do if `closed`. -/
structure Interval where
  low : Nat
  value : Nat
  high : Nat
  scale : Nat
  closed : Bool

/-- The numbers that round to a positive `mantissa · 2 ^ exponent`. The gap to the next number below
a power of two is half the gap above it. -/
def Interval.ofBinary (mantissa : Nat) (exponent : Int) : Interval :=
  let factor := Nat.pow 2 exponent.toNat
  let narrow := mantissa == leadingBit && leastExponent < exponent
  { low := (if narrow then 4 * mantissa - 1 else 4 * mantissa - 2) * factor
    value := 4 * mantissa * factor
    high := (4 * mantissa + 2) * factor
    scale := 4 * Nat.pow 2 (-exponent).toNat
    closed := mantissa % 2 == 0 }

def Interval.holds (i : Interval) (n unit part : Nat) : Bool :=
  let point := n * unit * i.scale
  if i.closed then i.low * part ≤ point && point ≤ i.high * part
  else i.low * part < point && point < i.high * part

/-- The better of the two neighbours of the value on the grid of multiples of `10 ^ exponent`, if
one of them reads back. Of two that do the nearer is taken, and of two equally near the even one. -/
def Interval.onGrid? (i : Interval) (exponent : Int) : Option Nat :=
  let unit := Nat.pow 10 exponent.toNat
  let part := Nat.pow 10 (-exponent).toNat
  let size := i.value * part
  let step := i.scale * unit
  let below := size / step
  match i.holds below unit part && 0 < below, i.holds (below + 1) unit part with
  | true, true =>
    let rest := 2 * (size % step)
    if rest < step || (rest == step && below % 2 == 0) then some below else some (below + 1)
  | true, false => some below
  | false, true => some (below + 1)
  | false, false => none

/-- The coarsest of `count` grids, from `10 ^ exponent` downward, on which a neighbour of the value
reads back. -/
def Interval.search (i : Interval) : Nat → Int → Option Decimal
  | 0, _ => none
  | count + 1, exponent =>
    match i.onGrid? exponent with
    | some digits => some ⟨digits, exponent⟩
    | none => i.search count (exponent - 1)

/-- The exponent of a power of ten that is not below a positive `mantissa · 2 ^ exponent`, and
little above it. -/
def grossExponent (mantissa : Nat) (exponent : Int) : Int :=
  (exponent + Nat.log2 mantissa + 1) * 30103 / 100000 + 1

def shortest (mantissa : Nat) (exponent : Int) : Decimal :=
  ((Interval.ofBinary mantissa exponent).search 20 (grossExponent mantissa exponent)).getD ⟨0, 0⟩

def Decimal.positional (d : Decimal) : Text :=
  let digits := Text.ofNat d.digits
  if 0 ≤ d.exponent then digits ++ List.replicate d.exponent.toNat 48
  else
    let places := (-d.exponent).toNat
    let padded := List.replicate (places + 1 - digits.length) 48 ++ digits
    padded.take (padded.length - places) ++ [46] ++ padded.drop (padded.length - places)

def print (x : Float) : Text :=
  if x.isNaN then utf8 "NaN"
  else
    let b := Binary.ofFloat x
    let sign := if b.negative then [45] else []
    if x.isInf then sign ++ utf8 "Infinity"
    else if b.mantissa == 0 then sign ++ [48]
    else sign ++ (shortest b.mantissa b.exponent).positional

end Scriptlet.Number
