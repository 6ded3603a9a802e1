import Scriptlet.Tree.Basic
/-!
The canonical text of programs: one statement a line, every operation in parentheses.
-/
namespace Scriptlet

private def comma : Text := utf8 ", "

mutual

def Expr.text : Expr → Text
  | .absent => []
  | .ident name => name.text
  | .number _ _ text => text
  | .string _ value => Text.quoteMark :: value ++ [Text.quoteMark]
  | .boolean _ value => Text.ofBool value
  | .object _ properties =>
    utf8 "\x7b" ++ Text.join comma (propertyTexts properties) ++ utf8 "\x7d"
  | .assign _ target value => target.text ++ utf8 " = " ++ value.text
  | .binary _ operator left right =>
    utf8 "(" ++ left.text ++ utf8 " " ++ operator ++ utf8 " " ++ right.text ++ utf8 ")"
  | .unary _ operator .absent => operator
  | .unary _ operator operand => utf8 "(" ++ operand.text ++ operator ++ utf8 ")"
  | .call _ callee arguments =>
    callee.text ++ utf8 "(" ++ Text.join comma (expressionTexts arguments) ++ utf8 ")"
  | .member _ object property computed =>
    if computed then object.text ++ utf8 "[" ++ property.text ++ utf8 "]"
    else object.text ++ utf8 "." ++ property.text

def expressionTexts : List Expr → List Text
  | [] => []
  | e :: rest => e.text :: expressionTexts rest

def propertyTexts : List (Ident × Expr) → List Text
  | [] => []
  | (key, .absent) :: rest => key.text :: propertyTexts rest
  | (key, value) :: rest => (key.text ++ utf8 ": " ++ value.text) :: propertyTexts rest

end

def Declaration.text (d : Declaration) : Text :=
  (if d.constant then utf8 "const " else utf8 "let ") ++ d.name.text
    ++ (match d.value with
      | .absent => []
      | value => utf8 " = " ++ value.text)
    ++ utf8 ";"

def guardText (token : Token) (condition : Expr) : Text :=
  match token.kind with
  | .elseWord => utf8 "else "
  | .elifWord => utf8 "elif (" ++ condition.text ++ utf8 ") "
  | _ => utf8 "if (" ++ condition.text ++ utf8 ") "

def forText (start : Option Declaration) (condition step : Expr) : Text :=
  utf8 "for (" ++ (start.map Declaration.text).getD [] ++ utf8 " " ++ condition.text ++ utf8 ";"
    ++ (match step with
      | .absent => []
      | step => utf8 " " ++ step.text)
    ++ utf8 ") "

def blockText : List Text → Text
  | [] => utf8 "\x7b \x7d"
  | texts => utf8 "\x7b " ++ Text.join (utf8 " ") texts ++ utf8 " \x7d"

mutual

def Stmt.text : Stmt → Text
  | .expr value => value.text ++ utf8 ";"
  | .declare declaration => declaration.text
  | .function _ name parameters body =>
    utf8 "func " ++ name.text ++ utf8 "(" ++ Text.join comma (parameters.map Ident.text)
      ++ utf8 ") " ++ blockText (statementTexts body)
  | .branch ⟨token, condition, body⟩ others =>
    guardText token condition ++ blockText (statementTexts body) ++ linksText others
  | .whileLoop _ condition body =>
    utf8 "while (" ++ condition.text ++ utf8 ") " ++ blockText (statementTexts body)
  | .forLoop _ start condition step body =>
    forText start condition step ++ blockText (statementTexts body)

def statementTexts : List Stmt → List Text
  | [] => []
  | statement :: rest => statement.text :: statementTexts rest

def linksText : List (Guarded Stmt) → Text
  | [] => []
  | ⟨token, condition, body⟩ :: rest =>
    utf8 " " ++ guardText token condition ++ blockText (statementTexts body) ++ linksText rest

end

def Program.text (program : Program) : Text := Text.join (utf8 "\n") (statementTexts program)

def Stmt.bareText : Stmt → Text
  | .expr value => value.text
  | statement => statement.text

end Scriptlet
