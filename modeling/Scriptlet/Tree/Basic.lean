import Scriptlet.Token.Basic
/-!
Programs as trees. Every node keeps the token it was read at, whose place is where a fault of the
node is reported.
-/
namespace Scriptlet

structure Ident where
  token : Token
  text : Text
  deriving DecidableEq, Repr

inductive Expr where
  /-- Nothing: an initial value, property value, operand or step that is left out. -/
  | absent
  | ident (name : Ident)
  | number (token : Token) (value : Float) (text : Text)
  | string (token : Token) (value : Text)
  | boolean (token : Token) (value : Bool)
  /-- An object of properties. A property without a value takes that of the variable it is named
  for. -/
  | object (token : Token) (properties : List (Ident × Expr))
  | assign (token : Token) (target value : Expr)
  | binary (token : Token) (operator : Text) (left right : Expr)
  | unary (token : Token) (operator : Text) (operand : Expr)
  | call (token : Token) (callee : Expr) (arguments : List Expr)
  | member (token : Token) (object property : Expr) (computed : Bool)
  deriving Inhabited

structure Declaration where
  token : Token
  name : Ident
  constant : Bool
  value : Expr

/-- A body that runs under a condition: one link of a chain of `if`, `elif` and `else`, which has
the condition `true`. -/
structure Guarded (σ : Type) where
  token : Token
  condition : Expr
  body : List σ

inductive Stmt where
  | expr (value : Expr)
  | declare (declaration : Declaration)
  | function (token : Token) (name : Ident) (parameters : List Ident) (body : List Stmt)
  | branch (first : Guarded Stmt) (others : List (Guarded Stmt))
  | whileLoop (token : Token) (condition : Expr) (body : List Stmt)
  | forLoop (token : Token) (start : Option Declaration) (condition step : Expr)
    (body : List Stmt)

instance : Inhabited Stmt := ⟨.expr .absent⟩

abbrev Program := List Stmt

def Expr.token : Expr → Token
  | .absent => .none
  | .ident name => name.token
  | .number token _ _ | .string token _ | .boolean token _ | .object token _ | .assign token _ _
  | .binary token _ _ _ | .unary token _ _ | .call token _ _ | .member token _ _ _ => token

def Stmt.token : Stmt → Token
  | .expr value => value.token
  | .declare declaration => declaration.token
  | .function token _ _ _ => token
  | .branch first _ => first.token
  | .whileLoop token _ _ => token
  | .forLoop token _ _ _ _ => token

/-- The literal of the first token of a program that stands for a node. -/
def Program.literal : Program → Text
  | [] => []
  | first :: _ => first.token.literal

end Scriptlet
