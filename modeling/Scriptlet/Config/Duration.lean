import Scriptlet.Number.Binary
import Scriptlet.Text.Basic
/-!
Lengths of time in nanoseconds: written as decimal numbers with units, and read back.
-/
namespace Scriptlet.Duration

def microsecond : Nat := 1000

def millisecond : Nat := 1000000

def second : Nat := 1000000000

def minute : Nat := 60 * second

def hour : Nat := 60 * minute

def greatest : Nat := Nat.pow 2 63 - 1

/-- The unit with a name. The micro sign has two code points. -/
def unit? (name : Text) : Option Nat :=
  if name = utf8 "ns" then some 1
  else if name = utf8 "us" || name = utf8 "\u00b5s" || name = utf8 "\u03bcs" then some microsecond
  else if name = utf8 "ms" then some millisecond
  else if name = utf8 "s" then some second
  else if name = utf8 "m" then some minute
  else if name = utf8 "h" then some hour
  else none

def fractionDigits : Nat := 18

def fractionOf (unit : Nat) (digits : Text) : Nat :=
  let kept := digits.take fractionDigits
  let part := Float.ofNat unit / Float.ofNat (Nat.pow 10 kept.length)
  (Number.truncate (Float.ofNat (Text.digitsValue kept) * part)).toNat

def readPart? (text : Text) : Option (Nat × Text) := do
  let whole := text.takeWhile Text.isDigit
  let afterWhole := text.dropWhile Text.isDigit
  let (fraction, afterNumber) :=
    match afterWhole with
    | 46 :: more => (more.takeWhile Text.isDigit, more.dropWhile Text.isDigit)
    | more => ([], more)
  let isUnitByte := fun byte => byte != 46 && !Text.isDigit byte
  let unit ← unit? (afterNumber.takeWhile isUnitByte)
  if whole.isEmpty && fraction.isEmpty then none
  else
    some (Text.digitsValue whole * unit + fractionOf unit fraction,
      afterNumber.dropWhile isUnitByte)

def readParts? : Nat → Text → Option Nat
  | _, [] => some 0
  | 0, _ => none
  | count + 1, text => do
    let (length, rest) ← readPart? text
    return length + (← readParts? count rest)

def readUnsigned? (text : Text) : Option Nat :=
  if text = utf8 "0" then some 0 else if text = [] then none else readParts? text.length text

def read? (text : Text) : Option Int :=
  match text with
  | 45 :: rest => do
    let size ← readUnsigned? rest
    if size ≤ greatest + 1 then some (-(size : Int)) else none
  | 43 :: rest => do
    let size ← readUnsigned? rest
    if size ≤ greatest then some size else none
  | rest => do
    let size ← readUnsigned? rest
    if size ≤ greatest then some size else none

def fractionText (places value : Nat) : Text :=
  let digits := Text.ofNat value
  let padded := List.replicate (places - digits.length) 48 ++ digits
  let kept := (padded.reverse.dropWhile (· == 48)).reverse
  if kept.isEmpty then [] else 46 :: kept

def inUnit (size unit places : Nat) (name : String) : Text :=
  Text.ofNat (size / unit) ++ fractionText places (size % unit) ++ utf8 name

def printUnsigned (size : Nat) : Text :=
  if size = 0 then utf8 "0s"
  else if size < microsecond then Text.ofNat size ++ utf8 "ns"
  else if size < millisecond then inUnit size microsecond 3 "\u00b5s"
  else if size < second then inUnit size millisecond 6 "ms"
  else
    let seconds := inUnit (size % minute) second 9 "s"
    if size < minute then seconds
    else
      let minutes := Text.ofNat (size / minute % 60) ++ utf8 "m" ++ seconds
      if size < hour then minutes else Text.ofNat (size / hour) ++ utf8 "h" ++ minutes

def print (duration : Int) : Text :=
  (if duration < 0 then [45] else []) ++ printUnsigned duration.natAbs

end Scriptlet.Duration
