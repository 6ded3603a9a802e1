import Scriptlet.Text.Basic
/-!
What a program prints: texts, some of which end a line. A stream takes them as they come; a buffer
keeps complete lines apart from what was printed since.
-/
namespace Scriptlet

inductive Printed where
  | part (text : Text)
  | line (text : Text)
  deriving DecidableEq, Repr

namespace Printed

def values (texts : List Text) : Text := Text.join (utf8 " ") texts

def bytes : Printed → Text
  | .part text => text
  | .line text => text ++ utf8 "\n"

def stream (printed : List Printed) : Text := printed.flatMap bytes

end Printed

/-- Printed text that is kept: the complete lines, and what was printed since the last one ended. -/
structure PrintBuffer where
  lines : List Text := []
  pending : Text := []
  deriving DecidableEq, Repr

namespace PrintBuffer

def add (buffer : PrintBuffer) : Printed → PrintBuffer
  | .part text => { buffer with pending := buffer.pending ++ text }
  | .line text => { lines := buffer.lines ++ [buffer.pending ++ text], pending := [] }

def addAll (buffer : PrintBuffer) (printed : List Printed) : PrintBuffer :=
  printed.foldl add buffer

def text (buffer : PrintBuffer) : Text :=
  Text.join (utf8 "\n") buffer.lines ++ (if buffer.lines = [] then [] else utf8 "\n")
    ++ buffer.pending

end PrintBuffer

end Scriptlet
