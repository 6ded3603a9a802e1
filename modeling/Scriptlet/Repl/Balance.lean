import Scriptlet.Text.Space
import Scriptlet.Token.Lexeme
/-!
Whether an entry is finished: it is not while a brace, bracket or parenthesis is open. Quoted texts
and comments do not count.
-/
namespace Scriptlet.Repl

inductive Surrounding where
  | code
  | comment
  | quotation
  | escape
  deriving DecidableEq, Repr

structure Balance where
  surrounding : Surrounding := .code
  braces : Int := 0
  brackets : Int := 0
  parens : Int := 0
  deriving DecidableEq, Repr

namespace Balance

def addCode (b : Balance) (byte : UInt8) : Balance :=
  if Lexeme.isQuote byte then { b with surrounding := .quotation }
  else if byte == 35 then { b with surrounding := .comment }
  else if byte == 123 then { b with braces := b.braces + 1 }
  else if byte == 125 then { b with braces := b.braces - 1 }
  else if byte == 91 then { b with brackets := b.brackets + 1 }
  else if byte == 93 then { b with brackets := b.brackets - 1 }
  else if byte == 40 then { b with parens := b.parens + 1 }
  else if byte == 41 then { b with parens := b.parens - 1 }
  else b

def add (b : Balance) (byte : UInt8) : Balance :=
  match b.surrounding with
  | .code => b.addCode byte
  | .comment => if byte = Text.lineFeed then { b with surrounding := .code } else b
  | .quotation =>
    if byte = Text.backslash then { b with surrounding := .escape }
    else if Lexeme.isQuote byte then { b with surrounding := .code }
    else b
  | .escape => { b with surrounding := .quotation }

def ofText (text : Text) : Balance := text.foldl add {}

def isOpen (b : Balance) : Bool := 0 < b.braces || 0 < b.brackets || 0 < b.parens

end Balance

def needsMore (entry : Text) : Bool := (Balance.ofText entry.trim).isOpen

end Scriptlet.Repl
