import Scriptlet.Eval.Native
import Scriptlet.Eval.Operator
import Scriptlet.Tree.Printer
/-!
Evaluation. The rules of the language say what a statement does in terms of what its parts do, so
each rule takes the evaluation of parts as an argument; evaluation with a bound ties the rules
together, one use of a rule for each unit of the bound. The bound also limits the rounds of a loop.
A program that ends does so under every bound that is large enough, with the same result.
-/
namespace Scriptlet.Eval

open Scriptlet.Action

abbrev Evaluation := Stmt → Scope → Action Value

variable (eval : Evaluation)

def valueOf (e : Expr) (scope : Scope) : Action Value := eval (.expr e) scope

/-- Runs statements in order. The result is that of the last one, `last` if there is none. -/
def sequence (scope : Scope) : Value → List Stmt → Action Value
  | last, [] => pure last
  | _, statement :: rest => do sequence scope (← eval statement scope) rest

def body (scope : Scope) (statements : List Stmt) : Action Value :=
  sequence eval scope .null statements

def values (scope : Scope) : List Expr → Action (List Value)
  | [] => pure []
  | e :: rest => do
    let first ← valueOf eval e scope
    let others ← values scope rest
    return first :: others

def condition (scope : Scope) (token : Token) (e : Expr) : Action Bool := do
  match ← valueOf eval e scope with
  | .boolean value => return value
  | other => failAt token (Fault.conditionNotBoolean.about "Got" other.typeName)

/-- The value of an expression that may be left out; null if it is. -/
def optionalValue (scope : Scope) : Expr → Action Value
  | .absent => pure .null
  | e => valueOf eval e scope

def declaration (scope : Scope) (d : Declaration) : Action Value := do
  let value ← optionalValue eval scope d.value
  declare scope d.name.text value d.constant d.name.token

/-- The first link of a chain whose condition holds. All links share a scope. -/
def links (scope : Scope) : List (Guarded Stmt) → Action Value
  | [] => pure .null
  | link :: rest => do
    if ← condition eval scope link.token link.condition then body eval scope link.body
    else links scope rest

def rounds (round : Action Bool) : Nat → Action Unit
  | 0 => throw .exhausted
  | bound + 1 => do if ← round then rounds round bound else pure ()

/-- One round of a loop: the condition, and if it holds the body and the step. The result tells
whether it held. -/
def round (scope : Scope) (token : Token) (test step : Expr) (statements : List Stmt) :
    Action Bool := do
  if ← condition eval scope token test then
    let _ ← body eval scope statements
    let _ ← optionalValue eval scope step
    return true
  else return false

/-- Rounds of a loop in its scope. The result is the value of the condition that ended it. -/
def loop (bound : Nat) (scope : Scope) (token : Token) (test step : Expr) (statements : List Stmt) :
    Action Value := do
  rounds (round eval scope token test step statements) bound
  return .boolean false

def opening (scope : Scope) : Option Declaration → Action Value
  | none => pure .null
  | some d => eval (.declare d) scope

/-- The value of a property: that of its expression, or without one that of the variable it is named
for. -/
def propertyValue (scope : Scope) (key : Ident) : Expr → Action Value
  | .absent => lookup scope key.text key.token
  | e => valueOf eval e scope

/-- The properties of an object, added to those before. Each name may occur once. -/
def properties (scope : Scope) :
    List (Text × Value) → List (Ident × Expr) → Action (List (Text × Value))
  | known, [] => pure known.reverse
  | known, (key, e) :: rest => do
    let value ← propertyValue eval scope key e
    if (known.lookup key.text).isSome then
      failAt key.token (Fault.alreadyDeclared.about "Name" key.text)
    else properties scope ((key.text, value) :: known) rest

/-- Assigns the value of an expression, which is computed only if the target is a name. -/
def assignment (scope : Scope) (token : Token) (target e : Expr) : Action Value := do
  match target with
  | .ident name =>
    let value ← valueOf eval e scope
    assign scope name.text value name.token
  | other => failAt token (Fault.targetNotName.about "Got" other.text)

def binary (token : Token) (operator : Text) (left right : Value) : Action Value :=
  if token.kind = .booleanOperator then
    match Comparison.onValues? operator left right with
    | some result => pure (.boolean result)
    | none => failAt token (Comparison.unsupported operator left right)
  else pure (Arithmetic.onValues operator left right)

/-- An operator behind its operand. Behind a name it also assigns. -/
def unary (scope : Scope) (token : Token) (operator : Text) (operand : Expr) : Action Value := do
  match operand with
  | .absent => failAt token (Fault.missingOperand.about "Operator" operator)
  | operand =>
    match ← valueOf eval operand scope with
    | .number value =>
      match increment? operator value with
      | none => failAt token (Fault.unsupportedUnary.about "Operator" operator)
      | some result =>
        match operand with
        | .ident name => assign scope name.text (.number result) name.token
        | _ => pure (.number result)
    | other =>
      failAt token (Fault.operandNotNumber.diagnose
        (some [(utf8 "Operator", .text operator), (utf8 "Got", .text other.typeName)]))

def memberName (scope : Scope) (token : Token) (property : Expr) (computed : Bool) :
    Action Text := do
  if computed then
    match ← valueOf eval property scope with
    | .string name => return name
    | other => failAt token (Fault.keyNotString.about "Got" other.typeName)
  else
    match property with
    | .ident name => return name.text
    | other => failAt token (Fault.keyNotString.about "Got" other.text)

def member (scope : Scope) (token : Token) (object property : Expr) (computed : Bool) :
    Action Value := do
  match ← valueOf eval object scope with
  | .object properties =>
    let name ← memberName eval scope token property computed
    match properties.lookup name with
    | some value => return value
    | none => failAt token (Fault.missingProperty.about "Name" name)
  | other => failAt token (Fault.notObject.about "Got" other.typeName)

/-- Declares parameters with the arguments there are for them. -/
def bindParameters (scope : Scope) (token : Token) : List Text → List Value → Action Unit
  | name :: names, value :: values => do
    let _ ← declare scope name value false token
    bindParameters scope token names values
  | _, _ => pure ()

def apply (token : Token) (callee : Value) (arguments : List Value) : Action Value := do
  match callee with
  | .native function => function.apply arguments
  | .function _ parameters statements scope =>
    let inside ← enclosed scope
    bindParameters inside token parameters arguments
    body eval inside statements
  | other => failAt token (Fault.notCallable.about "Got" other.typeName)

def expression (scope : Scope) : Expr → Action Value
  | .absent => pure .null
  | .ident name => lookup scope name.text name.token
  | .number _ value _ => pure (.number value)
  | .string _ value => pure (.string value)
  | .boolean _ value => pure (.boolean value)
  | .object _ entries => do return .object (← properties eval scope [] entries)
  | .assign token target e => assignment eval scope token target e
  | .binary token operator left right => do
    let a ← valueOf eval left scope
    let b ← valueOf eval right scope
    binary token operator a b
  | .unary token operator operand => unary eval scope token operator operand
  | .call token callee arguments => do
    let function ← valueOf eval callee scope
    let arguments ← values eval scope arguments
    apply eval token function arguments
  | .member token object property computed => member eval scope token object property computed

def rule (bound : Nat) (statement : Stmt) (scope : Scope) : Action Value := do
  match statement with
  | .expr e => expression eval scope e
  | .declare d => declaration eval scope d
  | .function _ name parameters statements =>
    let value := Value.function name.text (parameters.map Ident.text) statements scope
    declare scope name.text value true name.token
  | .branch first others =>
    let inside ← enclosed scope
    links eval inside (first :: others)
  | .whileLoop token test statements =>
    let inside ← enclosed scope
    loop eval bound inside token test .absent statements
  | .forLoop token start test step statements =>
    let inside ← enclosed scope
    let _ ← opening eval inside start
    loop eval bound inside token test step statements

end Eval

def Stmt.eval : Nat → Eval.Evaluation
  | 0, _, _ => throw .exhausted
  | bound + 1, statement, scope => Eval.rule (Stmt.eval bound) bound statement scope

def Program.eval (bound : Nat) (program : Program) (scope : Scope) : Action Value :=
  Eval.body (Stmt.eval bound) scope program

end Scriptlet
