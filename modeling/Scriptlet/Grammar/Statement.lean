import Scriptlet.Grammar.Expression
/-!
The grammar of statements and programs. As for expressions, each form takes the parser of whole
statements as an argument.
-/
namespace Scriptlet.Grammar

open Parse

/-- `let` or `const`, a name, and an initial value. A comparison left over behind the value belongs
to it. -/
def declaration : Parse Declaration := do
  let token ← next
  if token.kind ≠ .letWord && token.kind ≠ .constWord then
    throw (Cursor.unexpected .letWord [] token)
  else
    let constant := token.kind = .constWord
    let word ← expect .name (utf8 "expected a name after " ++ token.literal)
    let name : Ident := ⟨word, word.literal⟩
    if ← isAt .semicolon then
      if constant then failAt word (Fault.uninitializedConstant.about "Name" word.literal)
      else
        let _ ← next
        return ⟨token, name, constant, .absent⟩
    else
      let _ ← expect .assign (utf8 "expected '=' after the variable name")
      let first ← expression
      let value ← if ← isAt .booleanOperator then operation expression first else pure first
      let _ ← expect .semicolon (utf8 "expected ';' after the declaration")
      return ⟨token, name, constant, value⟩

def block (inner : Parse Stmt) : Parse (List Stmt) := do
  let _ ← expect .openBrace (utf8 "expected '\x7b' to open a block")
  let body ← many insideBraces inner
  let _ ← expect .closeBrace (utf8 "expected '\x7d' to close the block")
  return body

def parameters (function : Token) : List Expr → Parse (List Ident)
  | [] => return []
  | .ident name :: rest => return name :: (← parameters function rest)
  | other :: _ => failAt function (Fault.parameterNotName.about "Got" other.text)

def function (inner : Parse Stmt) : Parse Stmt := do
  let token ← next
  let word ← expect .name (utf8 "expected a function name after func")
  let names ← parameters word (← arguments expression)
  return .function token ⟨word, word.literal⟩ names (← block inner)

def guarded (inner : Parse Stmt) : Parse (Guarded Stmt) := do
  let token ← next
  let _ ← expect .openParen (utf8 "expected '(' after " ++ token.literal)
  let condition ← expression
  let _ ← expect .closeParen (utf8 "expected ')' after the condition")
  return ⟨token, condition, ← block inner⟩

/-- The link that closes a conditional chain, if there is one. -/
def otherwise (inner : Parse Stmt) : Parse (List (Guarded Stmt)) := do
  if ← isAt .elseWord then
    let token ← next
    return [⟨token, .boolean token true, ← block inner⟩]
  else return []

def branch (inner : Parse Stmt) : Parse Stmt := do
  let first ← guarded inner
  let others ← many (· = .elifWord) (guarded inner)
  let last ← otherwise inner
  return .branch first (others ++ last)

/-- A `while` loop. Its condition is a comparison. -/
def whileLoop (inner : Parse Stmt) : Parse Stmt := do
  let token ← next
  let _ ← expect .openParen (utf8 "expected '(' after while")
  let condition ← comparison expression
  let _ ← expect .closeParen (utf8 "expected ')' after the condition")
  return .whileLoop token condition (← block inner)

/-- A `for` loop. Its step is read only if it starts with a name. -/
def forLoop (inner : Parse Stmt) : Parse Stmt := do
  let token ← next
  let _ ← expect .openParen (utf8 "expected '(' after for")
  let start ← declaration
  let condition ← comparison expression
  let _ ← expect .semicolon (utf8 "expected ';' after the loop condition")
  let step ← if ← isAt .name then expression else pure .absent
  let _ ← expect .closeParen (utf8 "expected ')' to close the loop header")
  return .forLoop token (some start) condition step (← block inner)

/-- An expression as a statement. The semicolon behind it may be left out. -/
def expressionStatement : Parse Stmt := do
  let value ← expression
  if ← isAt .semicolon then
    let _ ← next
    return .expr value
  else return .expr value

def statementOf (inner : Parse Stmt) : Parse Stmt := do
  match (← peek).kind with
  | .letWord | .constWord => return .declare (← declaration)
  | .funcWord => function inner
  | .ifWord => branch inner
  | .whileWord => whileLoop inner
  | .forWord => forLoop inner
  | _ => expressionStatement

def nestedStatement : Nat → Parse Stmt
  | 0 => do unexpectedToken (← peek)
  | depth + 1 => statementOf (nestedStatement depth)

def statement : Parse Stmt := do nestedStatement (← get).remaining

def program : Parse Program := many (· ≠ .endOfInput) statement

def parseAt (cursor : Cursor) : Except Diagnostic Program := (·.1) <$> program.run cursor

end Scriptlet.Grammar
