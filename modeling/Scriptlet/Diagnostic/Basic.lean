import Scriptlet.Position
/-!
A diagnostic is what a source gets told when it cannot be scanned, parsed or evaluated: a class, a
code of the catalogue, a message with optional hints, a place, and the values its message was made
from.
-/
namespace Scriptlet

inductive FaultClass where
  | lexical
  | grammar
  | resolution
  | type
  | other (name : Text)
  deriving DecidableEq, Repr

def FaultClass.name : FaultClass → Text
  | .lexical => utf8 "lexical"
  | .grammar => utf8 "syntax"
  | .resolution => utf8 "resolution"
  | .type => utf8 "type"
  | .other name => name

/-- The class with a given name; faults without one count as type faults. -/
def FaultClass.ofName (name : Text) : FaultClass :=
  if name = [] then .type
  else if name = utf8 "lexical" then .lexical
  else if name = utf8 "syntax" then .grammar
  else if name = utf8 "resolution" then .resolution
  else if name = utf8 "type" then .type
  else .other name

inductive Datum where
  | text (value : Text)
  | integer (value : Int)
  | boolean (value : Bool)
  | none
  deriving DecidableEq, Repr

abbrev Details := List (Text × Datum)

structure Diagnostic where
  faultClass : FaultClass
  code : Text
  message : Text
  hints : List Text := []
  position : Position := .unknown
  file : Text := []
  details : Option Details := none
  deriving DecidableEq, Repr

namespace Diagnostic

def placedAt (d : Diagnostic) (p : Position) : Diagnostic := { d with position := p }

def inFile (d : Diagnostic) (file : Text) : Diagnostic := { d with file }

/-- The fault in a file, unless it names one already. -/
def orInFile (d : Diagnostic) (file : Text) : Diagnostic :=
  if d.file = [] then d.inFile file else d

/-- The fault with one more hint, none when the hint is empty. -/
def withHint (d : Diagnostic) (hint : Text) : Diagnostic :=
  if hint = [] then d else { d with hints := d.hints ++ [hint] }

def isStatic (d : Diagnostic) : Bool :=
  d.faultClass = .lexical || d.faultClass = .grammar

end Diagnostic

end Scriptlet
