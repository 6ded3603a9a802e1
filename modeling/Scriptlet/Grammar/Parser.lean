import Scriptlet.Grammar.Statement
import Scriptlet.Token.Scanner
/-!
Parsing sources. A parser keeps the tokens of the last source that it could scan, and parses the
same source again without scanning it again.
-/
namespace Scriptlet

structure Parser where
  keywords : Keywords := Keywords.default
  /-- The last source and its tokens, if it could be scanned. -/
  held : Option (Text × Cursor) := none
  scans : Nat := 0
  faults : List Diagnostic := []

namespace Parser

def parseFresh (keywords : Keywords) (source : Text) : Except Diagnostic Program := do
  let tokens ← scan keywords source
  Grammar.parseAt (Cursor.ofTokens tokens)

def finish (parser : Parser) (cursor : Cursor) : Except Diagnostic Program × Parser :=
  match Grammar.parseAt cursor with
  | .ok program => (.ok program, { parser with faults := [] })
  | .error fault => (.error fault, { parser with faults := [fault] })

def parseNew (parser : Parser) (source : Text) : Except Diagnostic Program × Parser :=
  match scan parser.keywords source with
  | .ok tokens =>
    let cursor := Cursor.ofTokens tokens
    finish { parser with held := some (source, cursor), scans := parser.scans + 1 } cursor
  | .error fault =>
    (.error fault, { parser with held := none, scans := parser.scans + 1, faults := [fault] })

def parse (parser : Parser) (source : Text) : Except Diagnostic Program × Parser :=
  match parser.held with
  | some (text, cursor) =>
    if text = source then finish parser cursor.restart else parseNew parser source
  | none => parseNew parser source

end Parser

/-- Whether a source can be parsed: the fault if it cannot. The fault names the file if one is
given. -/
def check (file source : Text) : Option Diagnostic :=
  match Parser.parseFresh Keywords.default source with
  | .ok _ => none
  | .error fault => some (if file = [] then fault else fault.inFile file)

end Scriptlet
