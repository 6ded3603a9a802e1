import Scriptlet.Grammar.Parse
import Scriptlet.Number.Reading
import Scriptlet.Tree.Printer
/-!
The grammar of expressions, from the loosest to the tightest level: assignment, object, sum with
operators behind it, product, comparison, call and member access, and the primary expressions.
Comparisons bind tighter than arithmetic.

Each level is a parser that takes the parser of whole expressions as an argument; the levels are
tied together at the end, one round of the ladder for each level of nesting.
-/
namespace Scriptlet.Grammar

open Parse

def unexpectedToken {α : Type} (token : Token) : Parse α :=
  failAt token (Fault.unexpectedToken.about "Got" token.display)

def quotedText (quote : Token) : Parse Expr := do
  let _ ← next
  let value ← expect .string []
  let _ ← expect quote.kind []
  return .string value value.literal

def group (inner : Parse Expr) : Parse Expr := do
  let _ ← next
  let value ← inner
  let _ ← expect .closeParen (utf8 "expected ')' to close the parenthesised expression")
  return value

def numberLiteral (token : Token) : Parse Expr := do
  let _ ← next
  match Number.read? token.literal with
  | some value => return .number token value token.literal
  | none => failAt token (Fault.unreadableNumber.about "Literal" token.literal)

def primary (inner : Parse Expr) : Parse Expr := do
  let token ← peek
  match token.kind with
  | .name =>
    let _ ← next
    return .ident ⟨token, token.literal⟩
  | .number => numberLiteral token
  | .openParen => group inner
  | .quote | .apostrophe => quotedText token
  | .unaryOperator =>
    let _ ← next
    return .unary token token.literal .absent
  | _ => unexpectedToken token

def arguments (inner : Parse Expr) : Parse (List Expr) := do
  let _ ← expect .openParen (utf8 "expected '('")
  if ← isAt .closeParen then
    let _ ← next
    return []
  else
    let first ← inner
    let others ← many (· = .comma) do
      let _ ← next
      inner
    let _ ← expect .closeParen (utf8 "expected ')' after the arguments")
    return first :: others

/-- The decimal that a point between two number literals makes of them. -/
def joinDecimal (token : Token) (whole fraction : Text) : Parse Expr :=
  let text := whole ++ utf8 "." ++ fraction
  if whole.contains 46 || fraction.contains 46 then
    failAt token (Fault.secondDecimalPoint.about "Literal" text)
  else
    match Number.read? text with
    | some value => return .number token value text
    | none => failAt token (Fault.unreadableNumber.about "Literal" text)

/-- What stands behind a point: the name of a member, or the fraction of a decimal. -/
def namedMember (inner : Parse Expr) (object : Expr) : Parse Expr := do
  let point ← next
  let token ← peek
  let property ← primary inner
  match object, property with
  | .number whole _ wholeText, .number _ _ fractionText => joinDecimal whole wholeText fractionText
  | _, .ident _ => return .member point object property false
  | _, _ => failAt token (Fault.memberNotName.about "Got" property.text)

def computedMember (inner : Parse Expr) (object : Expr) : Parse Expr := do
  let bracket ← next
  let property ← inner
  let _ ← expect .closeBracket (utf8 "expected ']' after the computed property")
  return .member bracket object property true

def suffix (inner : Parse Expr) (value : Expr) : Parse Expr := do
  let token ← peek
  match token.kind with
  | .openParen => return .call token value (← arguments inner)
  | .openBracket => computedMember inner value
  | _ => namedMember inner value

def startsSuffix (token : Token) : Bool :=
  token.kind = .openParen || token.kind = .openBracket || token.kind = .dot

def access (inner : Parse Expr) : Parse Expr := do
  chain startsSuffix (suffix inner) (← primary inner)

def operation (operand : Parse Expr) (left : Expr) : Parse Expr := do
  let token ← next
  let right ← operand
  return .binary token token.literal left right

def comparison (inner : Parse Expr) : Parse Expr := do
  chain (·.kind = .booleanOperator) (operation (access inner)) (← access inner)

def isOperator (operators : List Text) (token : Token) : Bool :=
  token.kind = .binaryOperator && operators.contains token.literal

def product (inner : Parse Expr) : Parse Expr := do
  chain (isOperator [utf8 "*", utf8 "/", utf8 "%"]) (operation (comparison inner))
    (← comparison inner)

def increment (operand : Expr) : Parse Expr := do
  let token ← next
  return .unary token token.literal operand

/-- A sum, with operators behind it that apply to the whole. -/
def sum (inner : Parse Expr) : Parse Expr := do
  let value ← chain (isOperator [utf8 "+", utf8 "-"]) (operation (product inner)) (← product inner)
  chain (·.kind = .unaryOperator) increment value

def property (inner : Parse Expr) : Parse (Ident × Expr) := do
  let key ← next
  if key.kind ≠ .name then failAt key (Fault.keyNotName.about "Got" key.display)
  else
    let name : Ident := ⟨key, key.literal⟩
    match (← peek).kind with
    | .comma =>
      let _ ← next
      return (name, .absent)
    | .closeBrace => return (name, .absent)
    | _ =>
      let _ ← expect .colon (utf8 "expected ':' after the property name")
      let value ← inner
      if ← isAt .closeBrace then return (name, value)
      else
        let _ ← expect .comma (utf8 "expected ',' or '\x7d' after the property")
        return (name, value)

def insideBraces (kind : Kind) : Bool := kind ≠ .endOfInput && kind ≠ .closeBrace

def object (inner : Parse Expr) : Parse Expr := do
  if ← isAt .openBrace then
    let brace ← next
    let properties ← many insideBraces (property inner)
    let _ ← expect .closeBrace (utf8 "object literal is missing its closing '\x7d'")
    return .object brace properties
  else sum inner

def assignment (inner : Parse Expr) : Parse Expr := do
  let target ← object inner
  if ← isAt .assign then
    let token ← next
    return .assign token target (← inner)
  else return target

def nested : Nat → Parse Expr
  | 0 => do unexpectedToken (← peek)
  | depth + 1 => assignment (nested depth)

/-- A whole expression. Nesting takes a token a level, so the tokens that remain bound it. -/
def expression : Parse Expr := do nested (← get).remaining

end Scriptlet.Grammar
