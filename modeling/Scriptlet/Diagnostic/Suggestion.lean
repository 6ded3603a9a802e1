import Scriptlet.Diagnostic.Catalog
import Scriptlet.Diagnostic.EditDistance
import Scriptlet.Text.Case
/-!
Suggestions for names that are not declared: the nearest of the names that are, if it is near
enough. Letter case does not count as a difference, and a name that differs in nothing else is no
suggestion.
-/
namespace Scriptlet

namespace Suggestion

/-- How many edits a name of this length may be away. -/
def threshold (length : Nat) : Nat :=
  if length < 4 then 1 else if length ≤ 6 then 2 else 3

def distance (input candidate : Text) : Nat :=
  EditDistance.distance input.toLower candidate.toLower

/-- A candidate takes the place of the best one so far if it is nearer, or if there is none so far. -/
def nearer (distance : Text → Nat) : Option (Text × Nat) → Text → Option (Text × Nat)
  | none, candidate => some (candidate, distance candidate)
  | some (best, least), candidate =>
    if distance candidate < least then some (candidate, distance candidate) else some (best, least)

/-- The first candidate at the least distance, with its distance. -/
def nearest? (distance : Text → Nat) (candidates : List Text) : Option (Text × Nat) :=
  candidates.foldl (nearer distance) none

/-- The suggestion for a name: of the candidates at the least distance the first in bytewise order,
if that distance is neither zero nor above the threshold. -/
def closest? (input : Text) (candidates : List Text) : Option Text :=
  if input = [] then none
  else
    match nearest? (distance input) (Text.sort candidates) with
    | none => none
    | some (candidate, best) =>
      if best = 0 || threshold input.length < best then none else some candidate

end Suggestion

def Diagnostic.undeclared (name : Text) (available : List Text) : Diagnostic :=
  let fault := Fault.undeclaredName.about "Name" name
  match Suggestion.closest? name available with
  | none | some [] => fault
  | some suggestion => fault.withHint (utf8 "Did you mean `" ++ suggestion ++ utf8 "`?")

end Scriptlet
