import Scriptlet.Diagnostic.Catalog
import Scriptlet.Token.Basic
/-!
A cursor stands on one token of a sequence that ends with the end of input. It moves forward one
token at a time, stays on the last one, and can be sent back to the first.
-/
namespace Scriptlet

structure Cursor where
  /-- The tokens before, the nearest first. -/
  passed : List Token
  current : Token
  later : List Token
  ahead : Nat
  counted : ahead = later.length := by simp
  deriving DecidableEq, Repr

namespace Cursor

def closing : Token := ⟨.endOfInput, [], ⟨1, 0⟩⟩

def startOf : List Token → Cursor
  | [] => { passed := [], current := closing, later := [], ahead := 0 }
  | first :: rest => { passed := [], current := first, later := rest, ahead := rest.length }

/-- The cursor on the first token. A sequence that does not end with the end of input gets one. -/
def ofTokens (tokens : List Token) : Cursor :=
  let complete :=
    match tokens.getLast? with
    | some last => if last.kind = .endOfInput then tokens else tokens ++ [closing]
    | none => [closing]
  startOf complete

def tokens (c : Cursor) : List Token := c.passed.reverse ++ c.current :: c.later

def size (c : Cursor) : Nat := c.passed.length + c.ahead + 1

def remaining (c : Cursor) : Nat := c.ahead + 1

/-- The cursor one token further, or where it is on the last token. -/
def advance (c : Cursor) : Cursor :=
  match _after : c.later with
  | [] => c
  | next :: rest =>
    { passed := c.current :: c.passed, current := next, later := rest, ahead := c.ahead - 1
      counted := by simp [c.counted, _after] }

def restart (c : Cursor) : Cursor := startOf c.tokens

/-- The token `offset` places ahead, or the last or the first one when there is none. -/
def peekAt (c : Cursor) (offset : Int) : Token :=
  match offset with
  | .ofNat ahead => (c.current :: c.later).getD ahead ((c.current :: c.later).getLastD c.current)
  | .negSucc back => c.passed.getD back (c.passed.getLastD c.current)

def isAt (c : Cursor) (kind : Kind) : Bool := c.current.kind = kind

def more (c : Cursor) : Bool := c.current.kind ≠ .endOfInput

def unexpected (kind : Kind) (hint : Text) (found : Token) : Diagnostic :=
  let details := [(utf8 "Expected", .text kind.label), (utf8 "Got", .text found.display)]
  ((Fault.unexpectedKind.diagnose (some details)).placedAt found.position).withHint hint

def expectation (c : Cursor) (kind : Kind) (hint : Text) : Option Diagnostic :=
  if c.isAt kind then none else some (unexpected kind hint c.current)

end Cursor

end Scriptlet
