import Scriptlet.Calendar.Moment
import Scriptlet.Number.Reading
/-!
A reader of dates for the program at a terminal. It knows the common notations only: year first with
dashes, slashes or nothing between, month first with slashes, with the name of the month, and as
seconds or milliseconds since 1970. A time of day may follow a date with dashes; a zone behind it is
read and does not change the fields. The interpreter takes any reader, and nothing is proved of this
one.
-/
namespace Scriptlet.Terminal.DateText

def digits? (count : Nat) (text : Text) : Option (Nat × Text) :=
  let head := text.take count
  if head.length = count && head.all Text.isDigit then some (Text.digitsValue head, text.drop count)
  else none

def oneOrTwoDigits? (text : Text) : Option (Nat × Text) := (digits? 2 text).or (digits? 1 text)

def byte? (byte : UInt8) : Text → Option Text
  | [] => none
  | first :: rest => if first = byte then some rest else none

def fraction? (text : Text) : Option (Nat × Text) :=
  let digits := text.takeWhile Text.isDigit
  if digits.isEmpty then none
  else
    let kept := digits.take 9
    some (Text.digitsValue kept * Nat.pow 10 (9 - kept.length), text.dropWhile Text.isDigit)

structure Clock where
  hour : Nat
  minute : Nat
  second : Nat
  nanosecond : Nat
  rest : Text

def clock? (text : Text) : Option Clock := do
  let (hour, text) ← digits? 2 text
  let text ← byte? 58 text
  let (minute, text) ← digits? 2 text
  match byte? 58 text with
  | none => some ⟨hour, minute, 0, 0, text⟩
  | some text =>
    let (second, text) ← digits? 2 text
    match byte? 46 text with
    | none => some ⟨hour, minute, second, 0, text⟩
    | some text =>
      let (nanosecond, text) ← fraction? text
      some ⟨hour, minute, second, nanosecond, text⟩

def zone? (text : Text) : Option Text :=
  match text with
  | 90 :: rest => some rest
  | sign :: rest =>
    if sign == 43 || sign == 45 then do
      let (_, rest) ← digits? 2 rest
      let rest ← byte? 58 rest
      let (_, rest) ← digits? 2 rest
      some rest
    else none
  | [] => none

def midnight (year month day : Nat) : Moment := ⟨year, month, day, 0, 0, 0, 0⟩

def momentAt (year month day : Nat) (clock : Clock) : Moment :=
  ⟨year, month, day, clock.hour, clock.minute, clock.second, clock.nanosecond⟩

def dashed? (text : Text) : Option Moment := do
  let (year, text) ← digits? 4 text
  let text ← byte? 45 text
  let (month, text) ← digits? 2 text
  let text ← byte? 45 text
  let (day, text) ← digits? 2 text
  match text with
  | [] => some (midnight year month day)
  | 32 :: rest =>
    let clock ← clock? rest
    if clock.rest.isEmpty then some (momentAt year month day clock) else none
  | 84 :: rest =>
    let clock ← clock? rest
    let after ← zone? clock.rest
    if after.isEmpty then some (momentAt year month day clock) else none
  | _ => none

def yearSlashed? (text : Text) : Option Moment := do
  let (year, text) ← digits? 4 text
  let text ← byte? 47 text
  let (month, text) ← digits? 2 text
  let text ← byte? 47 text
  let (day, text) ← digits? 2 text
  if text.isEmpty then some (midnight year month day) else none

def monthSlashed? (text : Text) : Option Moment := do
  let (month, text) ← digits? 2 text
  let text ← byte? 47 text
  let (day, text) ← digits? 2 text
  let text ← byte? 47 text
  let (year, text) ← digits? 4 text
  if text.isEmpty then some (midnight year month day) else none

def packed? (text : Text) : Option Moment :=
  if !text.all Text.isDigit then none
  else
    match text.length with
    | 8 =>
      some (midnight (Text.digitsValue (text.take 4))
        (Text.digitsValue ((text.drop 4).take 2)) (Text.digitsValue (text.drop 6)))
    | 10 => some (Moment.ofSeconds (Text.digitsValue text) 0)
    | 13 =>
      let milliseconds := Text.digitsValue text
      some (Moment.ofSeconds (milliseconds / 1000) (milliseconds % 1000 * 1000000))
    | _ => none

def monthNames : List Text :=
  [utf8 "january", utf8 "february", utf8 "march", utf8 "april", utf8 "may", utf8 "june",
    utf8 "july", utf8 "august", utf8 "september", utf8 "october", utf8 "november",
    utf8 "december"]

def month? (name : Text) : Option Nat :=
  let lower := Number.lowerAscii name
  (monthNames.findIdx? fun full => full == lower || full.take 3 == lower).map (· + 1)

def monthName? (text : Text) : Option (Nat × Text) :=
  (month? (text.takeWhile Text.isLetter)).map fun month => (month, text.dropWhile Text.isLetter)

def hourOfDay (hour : Nat) (afternoon : Bool) : Nat :=
  if afternoon then if hour < 12 then hour + 12 else hour else if hour = 12 then 0 else hour

def afternoon? (text : Text) : Option Bool :=
  if text = utf8 "PM" then some true else if text = utf8 "AM" then some false else none

def monthFirst? (text : Text) : Option Moment := do
  let (month, text) ← monthName? text
  let text ← byte? 32 text
  let (day, text) ← oneOrTwoDigits? text
  let text ← byte? 44 text
  let text ← byte? 32 text
  let (year, text) ← digits? 4 text
  let text ← byte? 32 text
  let (hour, text) ← oneOrTwoDigits? text
  let text ← byte? 58 text
  let (minute, text) ← digits? 2 text
  let text ← byte? 58 text
  let (second, text) ← digits? 2 text
  let text ← byte? 32 text
  let afternoon ← afternoon? text
  if 12 < hour then none
  else some ⟨year, month, day, hourOfDay hour afternoon, minute, second, 0⟩

def dayFirst? (text : Text) : Option Moment := do
  let (day, text) ← oneOrTwoDigits? text
  let text ← byte? 32 text
  let (month, text) ← monthName? text
  let text ← byte? 32 text
  let (year, text) ← digits? 4 text
  if text.isEmpty then some (midnight year month day) else none

def read? (text : Text) : Option Moment :=
  let notations :=
    [dashed?, yearSlashed?, monthSlashed?, packed?, monthFirst?, dayFirst?]
  (notations.findSome? fun reader => reader text).filter Moment.isValid

end Scriptlet.Terminal.DateText
