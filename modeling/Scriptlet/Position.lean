import Scriptlet.Text.Basic
/-!
Places in a source. Lines and columns start at one and columns count bytes; a line feed stands at
the end of its own line.
-/
namespace Scriptlet

/-- A line and a column. Zero stands for a place that is not known. -/
structure Position where
  line : Int
  column : Int
  deriving DecidableEq, Repr

namespace Position

def start : Position := ⟨1, 1⟩

def unknown : Position := ⟨0, 0⟩

def next (p : Position) (byte : UInt8) : Position :=
  if byte = Text.lineFeed then ⟨p.line + 1, 1⟩ else ⟨p.line, p.column + 1⟩

def after (p : Position) (text : Text) : Position := text.foldl next p

/-- The place that is reported for the end of input: the column of the last byte of the last line,
zero when that line is empty. -/
def atEnd (p : Position) : Position := ⟨p.line, p.column - 1⟩

@[simp]
theorem after_nil (p : Position) : p.after [] = p := rfl

@[simp]
theorem after_cons (p : Position) (byte : UInt8) (rest : Text) :
    p.after (byte :: rest) = (p.next byte).after rest := rfl

theorem after_append (p : Position) (a b : Text) : p.after (a ++ b) = (p.after a).after b :=
  List.foldl_append

end Position

end Scriptlet
