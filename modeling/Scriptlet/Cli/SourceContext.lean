import Scriptlet.Diagnostic.Printer
/-!
A fault is shown with the line of the source that it is in. The line loses its indentation, and a
caret below it stands under the column of the fault, as a terminal shows it.
-/
namespace Scriptlet.Cli

def tab : UInt8 := 9

def byteWidth (byte : UInt8) : Nat := if byte = tab then 8 else 1

def widthBefore : Nat → Text → Nat
  | 0, _ => 0
  | _, [] => 0
  | count + 1, byte :: rest => byteWidth byte + widthBefore count rest

/-- The columns of the indentation of a line, which ends at the first byte that is neither a space nor
a tab. -/
def indentationWidth : Text → Nat
  | [] => 0
  | byte :: rest =>
    if byte = tab then 8 + indentationWidth rest
    else if byte = Text.space then 1 + indentationWidth rest
    else 0

def isIndentation (byte : UInt8) : Bool := byte == Text.space || byte == tab

/-- The distance of the caret from where the line is shown to start. It is not negative, so a column
inside the indentation has the caret at the start. -/
def caretOffset (line : Text) (column : Nat) : Nat :=
  widthBefore (column - 1) line - indentationWidth line

def margin : Text := utf8 "    "

/-- The line of the caret, none for columns before the first. -/
def caretLine (line : Text) (column : Int) : Text :=
  if 0 < column then
    margin ++ List.replicate (caretOffset line column.toNat) Text.space ++ utf8 "^\n"
  else []

def sourceContext (lines : List Text) (p : Position) : Text :=
  if p.line ≤ 0 then []
  else
    match lines[(p.line - 1).toNat]? with
    | none => []
    | some line =>
      margin ++ line.dropWhile isIndentation ++ utf8 "\n" ++ caretLine line p.column

def sourceLines (source : Text) : List Text := Text.splitOn Text.lineFeed source

def faultReport (fault : Diagnostic) (source : Text) : Text :=
  fault.pretty ++ utf8 "\n" ++ sourceContext (sourceLines source) fault.position

def failureReport (message : Text) : Text := utf8 "Error: " ++ message ++ utf8 "\n"

end Scriptlet.Cli
