import Scriptlet.Output.Printed
/-!
Loggers. What programs print can go to a logger: a stream, to which it is written at once, or a
buffer, which keeps it until it is asked for. A call gives values of any kind that can be shown, and
says whether the line ends with them.
-/
namespace Scriptlet

inductive LogCall (α : Type) where
  | log (values : List α)
  | logLine (values : List α)

namespace LogCall
variable {α : Type}

def printed (format : List α → Text) : LogCall α → Printed
  | .log values => .part (format values)
  | .logLine values => .line (format values)

def endsLine : LogCall α → Bool
  | .log _ => false
  | .logLine _ => true

end LogCall

inductive BufferRequest (α : Type) where
  | call (call : LogCall α)
  | reset

namespace Logger
variable {α : Type} (shown : α → Text)

def joined (values : List α) : Text := Printed.values (values.map shown)

/-- The text of values elsewhere, where no values are a case of their own. -/
def formatted (values : List α) : Text :=
  if values.isEmpty then [] else Printed.values (values.map shown)

def write (format : List α → Text) (written : Text) (call : LogCall α) : Text :=
  written ++ (call.printed format).bytes

def stdout (calls : List (LogCall α)) : Text := calls.foldl (write (joined shown)) []

def writer (calls : List (LogCall α)) : Text := calls.foldl (write (formatted shown)) []

def serve (buffer : PrintBuffer) : BufferRequest α → PrintBuffer
  | .call call => buffer.add (call.printed (formatted shown))
  | .reset => {}

def buffered (requests : List (BufferRequest α)) : PrintBuffer := requests.foldl (serve shown) {}

end Logger

end Scriptlet
