import Scriptlet.Diagnostic.Basic
/-!
The catalogue of diagnostics: for each fault its code, its class, and templates of its message and
hints. A template is text with named gaps that the details of a fault fill.
-/
namespace Scriptlet

inductive TemplatePart where
  | literal (text : Text)
  | gap (name : Text)
  deriving DecidableEq, Repr

abbrev Template := List TemplatePart

/-- The text that fills a gap when there is nothing to fill it with. -/
def noValue : Text := utf8 "<no value>"

def Datum.shown : Datum → Text
  | .text value => value
  | .integer value => Text.ofInt value
  | .boolean value => Text.ofBool value
  | .none => noValue

def Details.fill (details : Details) (name : Text) : Text :=
  match details.lookup name with
  | some datum => datum.shown
  | none => noValue

/-- A part of a template, filled from the details. Without details the gap itself is shown. -/
def TemplatePart.render (details : Option Details) : TemplatePart → Text
  | .literal text => text
  | .gap name =>
    match details with
    | some details => details.fill name
    | none => utf8 "\x7b\x7b." ++ name ++ utf8 "\x7d\x7d"

def Template.render (details : Option Details) (template : Template) : Text :=
  template.flatMap (TemplatePart.render details)

inductive Fault where
  | unrecognizedCharacter
  | unterminatedString
  | mismatchedQuotes
  | unknownEscape
  | loneOperatorHalf
  | unexpectedKind
  | unexpectedToken
  | parameterNotName
  | uninitializedConstant
  | secondDecimalPoint
  | unreadableNumber
  | memberNotName
  | keyNotName
  | undeclaredName
  | alreadyDeclared
  | assignedConstant
  | assignedUndeclared
  | missingProperty
  | unsupportedOperands
  | operandNotNumber
  | missingOperand
  | unsupportedUnary
  | notCallable
  | targetNotName
  | conditionNotBoolean
  | notObject
  | keyNotString
  deriving DecidableEq, Repr

structure CatalogEntry where
  code : Text
  faultClass : FaultClass
  message : Template
  hints : List Template := []

private def lit (s : String) : TemplatePart := .literal (utf8 s)

private def gap (s : String) : TemplatePart := .gap (utf8 s)

namespace Fault

def all : List Fault :=
  [.unrecognizedCharacter, .unterminatedString, .mismatchedQuotes, .unknownEscape,
    .loneOperatorHalf, .unexpectedKind, .unexpectedToken, .parameterNotName,
    .uninitializedConstant, .secondDecimalPoint, .unreadableNumber, .memberNotName, .keyNotName,
    .undeclaredName, .alreadyDeclared, .assignedConstant, .assignedUndeclared, .missingProperty,
    .unsupportedOperands, .operandNotNumber, .missingOperand, .unsupportedUnary, .notCallable,
    .targetNotName, .conditionNotBoolean, .notObject, .keyNotString]

def entry : Fault → CatalogEntry
  | .unrecognizedCharacter =>
    { code := utf8 "LEX-0001", faultClass := .lexical
      message := [lit "unrecognized character '", gap "Char", lit "'"] }
  | .unterminatedString =>
    { code := utf8 "LEX-0002", faultClass := .lexical
      message := [lit "unterminated string literal"]
      hints := [[lit "close the string with ", gap "Quote"]] }
  | .mismatchedQuotes =>
    { code := utf8 "LEX-0003", faultClass := .lexical
      message := [lit "string opened with ", gap "Open", lit " but closed with ", gap "Close"] }
  | .unknownEscape =>
    { code := utf8 "LEX-0004", faultClass := .lexical
      message := [lit "unknown escape sequence '\\", gap "Char", lit "'"]
      hints := [[lit "recognized escapes are \\n \\r \\t \\v \\f \\0 \\\" \\' \\\\"]] }
  | .loneOperatorHalf =>
    { code := utf8 "LEX-0005", faultClass := .lexical
      message := [lit "'", gap "Char", lit "' must be doubled to form '", gap "Char", gap "Char",
        lit "'"] }
  | .unexpectedKind =>
    { code := utf8 "SYNTAX-0001", faultClass := .grammar
      message := [lit "expected ", gap "Expected", lit ", got '", gap "Got", lit "'"] }
  | .unexpectedToken =>
    { code := utf8 "SYNTAX-0002", faultClass := .grammar
      message := [lit "unexpected token '", gap "Got", lit "'"] }
  | .parameterNotName =>
    { code := utf8 "SYNTAX-0003", faultClass := .grammar
      message := [lit "function parameters must be identifiers, got '", gap "Got", lit "'"] }
  | .uninitializedConstant =>
    { code := utf8 "SYNTAX-0004", faultClass := .grammar
      message := [lit "constant '", gap "Name", lit "' must be initialized"]
      hints := [[lit "const ", gap "Name", lit " = value;"]] }
  | .secondDecimalPoint =>
    { code := utf8 "SYNTAX-0005", faultClass := .grammar
      message := [lit "number literal '", gap "Literal", lit "' has more than one decimal point"] }
  | .unreadableNumber =>
    { code := utf8 "SYNTAX-0006", faultClass := .grammar
      message := [lit "invalid number literal '", gap "Literal", lit "'"] }
  | .memberNotName =>
    { code := utf8 "SYNTAX-0007", faultClass := .grammar
      message := [lit "member access with '.' requires an identifier, got '", gap "Got", lit "'"] }
  | .keyNotName =>
    { code := utf8 "SYNTAX-0008", faultClass := .grammar
      message := [lit "object literal keys must be identifiers, got '", gap "Got", lit "'"] }
  | .undeclaredName =>
    { code := utf8 "RESOLVE-0001", faultClass := .resolution
      message := [lit "identifier not found: ", gap "Name"] }
  | .alreadyDeclared =>
    { code := utf8 "RESOLVE-0002", faultClass := .resolution
      message := [lit "'", gap "Name", lit "' is already declared in this scope"] }
  | .assignedConstant =>
    { code := utf8 "RESOLVE-0003", faultClass := .resolution
      message := [lit "cannot assign to constant '", gap "Name", lit "'"] }
  | .assignedUndeclared =>
    { code := utf8 "RESOLVE-0004", faultClass := .resolution
      message := [lit "cannot assign to undeclared variable '", gap "Name", lit "'"]
      hints := [[lit "let ", gap "Name", lit " = value;"]] }
  | .missingProperty =>
    { code := utf8 "RESOLVE-0005", faultClass := .resolution
      message := [lit "object has no property '", gap "Name", lit "'"] }
  | .unsupportedOperands =>
    { code := utf8 "TYPE-0001", faultClass := .type
      message := [lit "operator '", gap "Operator", lit "' is not supported for ", gap "Left",
        lit " and ", gap "Right"] }
  | .operandNotNumber =>
    { code := utf8 "TYPE-0002", faultClass := .type
      message := [lit "operator '", gap "Operator", lit "' requires a number operand, got ",
        gap "Got"] }
  | .missingOperand =>
    { code := utf8 "TYPE-0003", faultClass := .type
      message := [lit "operator '", gap "Operator", lit "' has no operand"] }
  | .unsupportedUnary =>
    { code := utf8 "TYPE-0004", faultClass := .type
      message := [lit "unary operator '", gap "Operator", lit "' is not supported"] }
  | .notCallable =>
    { code := utf8 "TYPE-0005", faultClass := .type
      message := [gap "Got", lit " is not a function"] }
  | .targetNotName =>
    { code := utf8 "TYPE-0006", faultClass := .type
      message := [lit "assignment target must be an identifier, got ", gap "Got"] }
  | .conditionNotBoolean =>
    { code := utf8 "TYPE-0007", faultClass := .type
      message := [lit "condition must be a boolean, got ", gap "Got"] }
  | .notObject =>
    { code := utf8 "TYPE-0008", faultClass := .type
      message := [lit "member access requires an object, got ", gap "Got"] }
  | .keyNotString =>
    { code := utf8 "TYPE-0009", faultClass := .type
      message := [lit "computed member access requires a string key, got ", gap "Got"] }

def ofCode? (code : Text) : Option Fault := all.find? fun fault => fault.entry.code == code

def diagnose (fault : Fault) (details : Option Details) : Diagnostic :=
  { faultClass := fault.entry.faultClass
    code := fault.entry.code
    message := fault.entry.message.render details
    hints := fault.entry.hints.map (Template.render details)
    details }

def about (fault : Fault) (name : String) (value : Text) : Diagnostic :=
  fault.diagnose (some [(utf8 name, .text value)])

end Fault

/-- The diagnostic for a code, which need not be one of the catalogue. -/
def Diagnostic.ofCode (code : Text) (details : Option Details) : Diagnostic :=
  match Fault.ofCode? code with
  | some fault => fault.diagnose details
  | none =>
    { faultClass := .type, code, message := utf8 "unknown error code: " ++ code, details }

end Scriptlet
