import Scriptlet.Token.Cursor
/-!
Parsers read tokens at a cursor and either fail with a diagnostic or return a result and the cursor
behind what they read. A parser that fails leaves no cursor, so it does not matter whether it has read
the token that it blames. Repetition is bounded by the tokens that remain, since every round reads at
least one.
-/
namespace Scriptlet

abbrev Parse := StateT Cursor (Except Diagnostic)

namespace Parse

variable {α σ : Type}

def peek : Parse Token := do return (← get).current

def isAt (kind : Kind) : Parse Bool := do return (← get).isAt kind

def next : Parse Token := do
  let cursor ← get
  set cursor.advance
  return cursor.current

def failAt (token : Token) (fault : Diagnostic) : Parse α := throw (fault.placedAt token.position)

/-- Reads a token of a kind; the hint is added to the fault when another stands there. -/
def expect (kind : Kind) (hint : Text) : Parse Token := do
  match (← get).expectation kind hint with
  | none => next
  | some fault => throw fault

def collect (starts : Kind → Bool) (item : Parse α) : Nat → Parse (List α)
  | 0 => return []
  | bound + 1 => do
    if starts (← peek).kind then
      let first ← item
      let rest ← collect starts item bound
      return first :: rest
    else return []

def many (starts : Kind → Bool) (item : Parse α) : Parse (List α) := do
  collect starts item (← get).remaining

def extend (starts : Token → Bool) (step : σ → Parse σ) : Nat → σ → Parse σ
  | 0, state => return state
  | bound + 1, state => do
    if starts (← peek) then extend starts step bound (← step state) else return state

def chain (starts : Token → Bool) (step : σ → Parse σ) (state : σ) : Parse σ := do
  extend starts step (← get).remaining state

end Parse

end Scriptlet
