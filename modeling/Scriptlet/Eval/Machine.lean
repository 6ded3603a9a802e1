import Scriptlet.Calendar.Moment
import Scriptlet.Number.Binary
/-!
What programs meet of the machine they run on. The clock is a sequence of readings, of which every
call of `time` takes the next. A reading comes with the dates that texts name in its time zone; which
texts those are is up to the library that reads dates. Numbers turn into integers of 64 bits by
dropping the fraction, and what becomes of a number beyond them is up to the machine.
-/
namespace Scriptlet

structure Reading where
  moment : Moment
  date? : Text → Option Moment

structure Machine where
  readings : Nat → Reading
  beyond : Float → Int64

namespace Machine

variable (m : Machine)

def now : Reading := m.readings 0

/-- A machine whose clock stands still and which reads no dates. -/
def still (moment : Moment) : Machine where
  readings _ := { moment, date? := fun _ => none }
  beyond _ := Int64.minValue

/-- The machine when a number of readings have been taken. -/
def after (taken : Nat) : Machine := { m with readings := fun n => m.readings (taken + n) }

def whole (x : Float) : Int64 :=
  let integer := Number.truncate x
  if Int64.minValue.toInt ≤ integer ∧ integer ≤ Int64.maxValue.toInt then .ofInt integer
  else m.beyond x

theorem after_zero : m.after 0 = m := by simp [after]

theorem after_after (first second : Nat) :
    (m.after first).after second = m.after (first + second) := by
  simp [after, Nat.add_assoc]

end Machine

end Scriptlet
