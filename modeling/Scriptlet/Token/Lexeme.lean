import Scriptlet.Diagnostic.Catalog
import Scriptlet.Text.Utf8
import Scriptlet.Token.Basic
/-!
Lexemes: the shortest pieces of a source that mean something, and the gaps between them. Each reader
takes the longest piece at the head of the input and returns what follows it; places play no part
here, they are recovered from the bytes that were read.
-/
namespace Scriptlet

inductive Lexeme where
  | symbol (kind : Kind) (text : Text)
  | word (text : Text)
  | digits (text : Text)
  /-- A quoted text: its quote byte, what is written between the quotes, and what that means. -/
  | quoted (mark : UInt8) (body value : Text)
  deriving DecidableEq, Repr

/-- Why no lexeme could be read. The texts are what was read of it before the fault. -/
inductive LexicalFault where
  | unrecognized (byte : UInt8)
  | half (byte : UInt8)
  | unterminated (mark : UInt8)
  | escape (before : Text) (byte : UInt8)
  | mismatch (mark close : UInt8) (before : Text)
  deriving DecidableEq, Repr

namespace Lexeme

def raw : Lexeme → Text
  | .symbol _ text => text
  | .word text => text
  | .digits text => text
  | .quoted mark body _ => mark :: body ++ [mark]

def isBlank (byte : UInt8) : Bool := byte == 32 || byte == 9 || byte == 13 || byte == 10

/-- Splits off the gap at the head of the input: blanks, and comments from `#` to the end of their
line. The flag tells that a comment is open. -/
def splitGap : Bool → Text → Text × Text
  | _, [] => ([], [])
  | true, byte :: rest =>
    let (gap, after) := splitGap (byte != Text.lineFeed) rest
    (byte :: gap, after)
  | false, byte :: rest =>
    if isBlank byte then
      let (gap, after) := splitGap false rest
      (byte :: gap, after)
    else if byte == 35 then
      let (gap, after) := splitGap true rest
      (byte :: gap, after)
    else ([], byte :: rest)

def delimiter? (byte : UInt8) : Option Kind :=
  if byte == 40 then some .openParen
  else if byte == 41 then some .closeParen
  else if byte == 123 then some .openBrace
  else if byte == 125 then some .closeBrace
  else if byte == 91 then some .openBracket
  else if byte == 93 then some .closeBracket
  else if byte == 59 then some .semicolon
  else if byte == 58 then some .colon
  else if byte == 44 then some .comma
  else if byte == 46 then some .dot
  else if byte == 37 then some .binaryOperator
  else none

def escaped? (byte : UInt8) : Option UInt8 :=
  if byte == 110 then some 10
  else if byte == 114 then some 13
  else if byte == 116 then some 9
  else if byte == 118 then some 11
  else if byte == 102 then some 12
  else if byte == 48 then some 0
  else if byte == 34 || byte == 39 || byte == 92 then some byte
  else none

def isQuote (byte : UInt8) : Bool := byte == Text.quoteMark || byte == Text.apostrophe

inductive Quotation where
  /-- What is written before the quote, what it means, the quote, and what follows it. -/
  | closed (body value : Text) (close : UInt8) (rest : Text)
  | unclosed
  /-- What is written up to a backslash and the byte behind it, which it cannot escape. -/
  | escape (before : Text) (byte : UInt8)

def Quotation.after (body value : Text) : Quotation → Quotation
  | .closed more moreValue close rest => .closed (body ++ more) (value ++ moreValue) close rest
  | .unclosed => .unclosed
  | .escape before byte => .escape (body ++ before) byte

def readQuotation : Text → Quotation
  | [] => .unclosed
  | byte :: rest =>
    if isQuote byte then .closed [] [] byte rest
    else if byte == Text.backslash then
      match rest with
      | [] => .unclosed
      | letter :: more =>
        match escaped? letter with
        | none => .escape [byte] letter
        | some value => (readQuotation more).after [byte, letter] [value]
    else (readQuotation rest).after [byte] [byte]

/-- Reads an operator that may be written twice: doubled it is unary, alone it is binary. -/
def readDoubling (byte : UInt8) (rest : Text) : Lexeme × Text :=
  match rest with
  | next :: after =>
    if next == byte then (.symbol .unaryOperator [byte, byte], after)
    else (.symbol .binaryOperator [byte], rest)
  | [] => (.symbol .binaryOperator [byte], rest)

/-- Reads an operator that may be followed by an equals sign, which makes it a comparison. -/
def readEquals (alone : Kind) (byte : UInt8) (rest : Text) : Lexeme × Text :=
  match rest with
  | next :: after =>
    if next == 61 then (.symbol .booleanOperator [byte, 61], after)
    else (.symbol alone [byte], rest)
  | [] => (.symbol alone [byte], rest)

def read (byte : UInt8) (rest : Text) : Except LexicalFault (Lexeme × Text) :=
  match delimiter? byte with
  | some kind => .ok (.symbol kind [byte], rest)
  | none =>
    if isQuote byte then
      match readQuotation rest with
      | .closed body value close after =>
        if close == byte then .ok (.quoted byte body value, after)
        else .error (.mismatch byte close (byte :: body))
      | .unclosed => .error (.unterminated byte)
      | .escape before letter => .error (.escape (byte :: before) letter)
    else if byte == 43 || byte == 45 || byte == 42 || byte == 47 then .ok (readDoubling byte rest)
    else if byte == 62 || byte == 60 then .ok (readEquals .booleanOperator byte rest)
    else if byte == 61 then .ok (readEquals .assign byte rest)
    else if byte == 38 || byte == 124 then
      match rest with
      | next :: after =>
        if next == byte then .ok (.symbol .booleanOperator [byte, byte], after)
        else .error (.half byte)
      | [] => .error (.half byte)
    else if Text.isLetter byte then
      let isWordByte := fun b => Text.isLetter b || Text.isDigit b
      .ok (.word (byte :: rest.takeWhile isWordByte), rest.dropWhile isWordByte)
    else if Text.isDigit byte then
      .ok (.digits (byte :: rest.takeWhile Text.isDigit), rest.dropWhile Text.isDigit)
    else .error (.unrecognized byte)

/-- The tokens of a lexeme that stands at `p`. A quoted text gives three: its quotes and, between
them, what it means. -/
def tokens (keywords : Keywords) (p : Position) : Lexeme → List Token
  | .symbol kind text => [⟨kind, text, p⟩]
  | .word text => [⟨keywords.kindOf text, text, p⟩]
  | .digits text => [⟨.number, text, p⟩]
  | .quoted mark body value =>
    let kind := if mark = Text.apostrophe then .apostrophe else .quote
    [⟨kind, [mark], p⟩, ⟨.string, value, p.next mark⟩, ⟨kind, [mark], p.after (mark :: body)⟩]

end Lexeme

namespace LexicalFault

/-- The name of a byte in a message is the character with that code point. -/
def charText (byte : UInt8) : Text := Text.encode byte.toNat

def diagnose (p : Position) : LexicalFault → Diagnostic
  | .unrecognized byte =>
    (Fault.unrecognizedCharacter.about "Char" (charText byte)).placedAt p
  | .half byte => (Fault.loneOperatorHalf.about "Char" (charText byte)).placedAt p
  | .unterminated mark => (Fault.unterminatedString.about "Quote" (charText mark)).placedAt p
  | .escape before byte =>
    (Fault.unknownEscape.about "Char" (charText byte)).placedAt (p.after before)
  | .mismatch mark close before =>
    let details := [(utf8 "Open", .text (charText mark)), (utf8 "Close", .text (charText close))]
    (Fault.mismatchedQuotes.diagnose (some details)).placedAt (p.after before)

end LexicalFault

end Scriptlet
