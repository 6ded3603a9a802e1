import Scriptlet.Position
/-!
Tokens: the kinds of words a source is made of, and the words with their places.
-/
namespace Scriptlet

inductive Kind where
  | endOfInput
  | number
  | string
  | name
  | letWord
  | constWord
  | funcWord
  | ifWord
  | elifWord
  | elseWord
  | forWord
  | whileWord
  | binaryOperator
  | booleanOperator
  | unaryOperator
  | assign
  | comma
  | dot
  | colon
  | semicolon
  | openParen
  | closeParen
  | openBrace
  | closeBrace
  | openBracket
  | closeBracket
  | quote
  | apostrophe
  /-- A number that no kind of the language has. -/
  | other (number : Int)
  deriving DecidableEq, Repr

namespace Kind

def all : List Kind :=
  [.endOfInput, .number, .string, .name, .letWord, .constWord, .funcWord, .ifWord, .elifWord,
    .elseWord, .forWord, .whileWord, .binaryOperator, .booleanOperator, .unaryOperator, .assign,
    .comma, .dot, .colon, .semicolon, .openParen, .closeParen, .openBrace, .closeBrace,
    .openBracket, .closeBracket, .quote, .apostrophe]

def ofNumber (n : Int) : Kind :=
  match n with
  | .ofNat i => all.getD i (.other n)
  | .negSucc _ => .other n

def label : Kind → Text
  | .endOfInput => utf8 "EOF"
  | .number => utf8 "NUMBER"
  | .string => utf8 "STRING"
  | .name => utf8 "IDENT"
  | .letWord => utf8 "LET"
  | .constWord => utf8 "CONST"
  | .funcWord => utf8 "FUNC"
  | .ifWord => utf8 "IF"
  | .elifWord => utf8 "ELIF"
  | .elseWord => utf8 "ELSE"
  | .forWord => utf8 "FOR"
  | .whileWord => utf8 "WHILE"
  | .binaryOperator => utf8 "BINARY_OP"
  | .booleanOperator => utf8 "BOOLEAN_OP"
  | .unaryOperator => utf8 "UNARY_OP"
  | .assign => utf8 "ASSIGN"
  | .comma => utf8 "COMMA"
  | .dot => utf8 "DOT"
  | .colon => utf8 "COLON"
  | .semicolon => utf8 "SEMICOLON"
  | .openParen => utf8 "LPAREN"
  | .closeParen => utf8 "RPAREN"
  | .openBrace => utf8 "LBRACE"
  | .closeBrace => utf8 "RBRACE"
  | .openBracket => utf8 "LBRACKET"
  | .closeBracket => utf8 "RBRACKET"
  | .quote => utf8 "QUOTE"
  | .apostrophe => utf8 "APOSTROPHE"
  | .other n => utf8 "TokenType(" ++ Text.ofInt n ++ utf8 ")"

def ofLabel? (label : Text) : Option Kind := all.find? fun kind => kind.label == label

end Kind

/-- A word of a source. The literal of a string token is the text it stands for. -/
structure Token where
  kind : Kind
  literal : Text
  position : Position
  deriving DecidableEq, Repr

namespace Token

def none : Token := ⟨.endOfInput, [], .unknown⟩

def describe (t : Token) : Text :=
  utf8 "\x7bType: " ++ t.kind.label ++ utf8 ", Literal: " ++ t.literal ++ utf8 ", Line: "
    ++ Text.ofInt t.position.line ++ utf8 ", Column: " ++ Text.ofInt t.position.column
    ++ utf8 "\x7d"

def display (t : Token) : Text :=
  match t.kind with
  | .endOfInput => utf8 "end of input"
  | .string => Text.quoteMark :: t.literal ++ [Text.quoteMark]
  | _ => t.literal

end Token

abbrev Keywords := List (Text × Kind)

namespace Keywords

def default : Keywords :=
  [(utf8 "let", .letWord), (utf8 "const", .constWord), (utf8 "func", .funcWord),
    (utf8 "if", .ifWord), (utf8 "elif", .elifWord), (utf8 "else", .elseWord),
    (utf8 "for", .forWord), (utf8 "while", .whileWord)]

def kindOf (keywords : Keywords) (word : Text) : Kind := (keywords.lookup word).getD .name

end Keywords

end Scriptlet
