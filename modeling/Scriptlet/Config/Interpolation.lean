import Scriptlet.Text.Pattern
/-!
References to the environment in a text: a dollar sign and, in braces, a name and optionally `:-`
and a default. They are found from left to right. Each is replaced by the value of its name, or by the
default if that is empty; what is put in is not looked at again.
-/
namespace Scriptlet.Interpolation

def inName (byte : UInt8) : Bool := byte != 125 && byte != 58

def inDefault (byte : UInt8) : Bool := byte != 125

def opening : Text := utf8 "$\x7b"

def separator : Text := utf8 ":-"

def closing : Text := utf8 "\x7d"

def namePattern : Pattern := .group (.followedBy (.one inName) (.many inName))

def defaultPattern : Pattern := .followedBy (.exactly separator) (.group (.many inDefault))

/-- A reference. The first group is its name, the second its default. -/
def pattern : Pattern :=
  .followedBy (.exactly opening)
    (.followedBy namePattern (.followedBy (.optional defaultPattern) (.exactly closing)))

theorem pattern_consuming : 1 ≤ pattern.least := by decide

/-- What a group of a reference matched, empty if it was left out. -/
def part (groups : Pattern.Groups) (index : Nat) : Text := (groups.getD index none).getD []

/-- What a reference is replaced by. It is matched on its own, for its groups. -/
def substitute (environment : Text → Text) (reference : Text) : Text :=
  match pattern.find? reference with
  | none => reference
  | some found =>
    let value := environment (part found.groups 0)
    let default := part found.groups 1
    if value = [] && default ≠ [] then default else value

def interpolate (environment : Text → Text) (text : Text) : Text :=
  pattern.replaceAll pattern_consuming (substitute environment) text

def names (text : Text) : List Text :=
  (pattern.occurrences pattern_consuming text).1.map fun found => part found.groups 0

end Scriptlet.Interpolation
