import Scriptlet.Text.Basic
/-!
The edit distance of two texts: the least number of single bytes inserted, deleted or replaced on
the way from one to the other. It is computed row by row, with two rows that take turns: the cells of
one are filled from the other, over whatever they held.
-/
namespace Scriptlet.EditDistance

structure Rows where
  upper : Array Nat
  lower : Array Nat

namespace Rows

/-- The row for the empty text is complete: as many insertions as bytes. -/
def start (target : Text) : Rows :=
  { upper := Array.range (target.length + 1), lower := Array.replicate (target.length + 1) 0 }

/-- Fills the lower row behind a column, for the bytes of the second text that are left. -/
def fill (byte : UInt8) : Rows → Nat → Text → Rows
  | rows, _, [] => rows
  | rows, column, other :: rest =>
    let cell :=
      min (min (rows.upper.getD (column + 1) 0 + 1) (rows.lower.getD column 0 + 1))
        (rows.upper.getD column 0 + if byte = other then 0 else 1)
    fill byte { rows with lower := rows.lower.setIfInBounds (column + 1) cell } (column + 1) rest

/-- The rows for one more byte of the first text, which comes after so many others. -/
def turn (target : Text) (rows : Rows) (before : Nat) (byte : UInt8) : Rows :=
  let begun := { rows with lower := rows.lower.setIfInBounds 0 (before + 1) }
  let filled := begun.fill byte 0 target
  { upper := filled.lower, lower := filled.upper }

def turns (target : Text) : Rows → Nat → Text → Rows
  | rows, _, [] => rows
  | rows, before, byte :: rest => turns target (rows.turn target before byte) (before + 1) rest

end Rows

def distance (a b : Text) : Nat :=
  if a = [] then b.length
  else if b = [] then a.length
  else ((Rows.start b).turns b 0 a).upper.getD b.length 0

end Scriptlet.EditDistance
