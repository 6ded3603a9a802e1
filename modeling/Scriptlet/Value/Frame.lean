import Scriptlet.Diagnostic.Suggestion
import Scriptlet.Value.Basic
/-!
Frames and the rules for names. A name is declared in one frame, once; it is looked up in the frames
of a scope from the inside to the outside, and an assignment changes the binding that is found
unless it is constant.
-/
namespace Scriptlet

structure Binding where
  name : Text
  value : Value
  constant : Bool

/-- The bindings of one frame, each name at most once. -/
abbrev Frame := List Binding

namespace Frame

def find (frame : Frame) (name : Text) : Option Binding := frame.find? fun b => b.name == name

def binds (frame : Frame) (name : Text) : Bool := (frame.find name).isSome

def declare (frame : Frame) (name : Text) (value : Value) (constant : Bool) : Frame :=
  ⟨name, value, constant⟩ :: frame

def update (frame : Frame) (name : Text) (value : Value) : Frame :=
  frame.map fun b => if b.name = name then { b with value } else b

def names (frame : Frame) : List Text := frame.map Binding.name

def predeclared : Frame :=
  [⟨utf8 "true", .boolean true, true⟩, ⟨utf8 "false", .boolean false, true⟩,
    ⟨utf8 "null", .null, true⟩, ⟨utf8 "print", .native .print, true⟩,
    ⟨utf8 "println", .native .println, true⟩, ⟨utf8 "time", .native .time, true⟩,
    ⟨utf8 "exit", .native .exit, true⟩]

end Frame

abbrev Frames := Array Frame

namespace Frames

def frame (frames : Frames) (id : FrameId) : Frame := frames.getD id []

def owner? (frames : Frames) (scope : Scope) (name : Text) : Option FrameId :=
  scope.chain.find? fun id => (frames.frame id).binds name

def binding? (frames : Frames) (scope : Scope) (name : Text) : Option Binding :=
  (frames.owner? scope name).bind fun id => (frames.frame id).find name

def get? (frames : Frames) (scope : Scope) (name : Text) : Option Value :=
  (frames.binding? scope name).map Binding.value

def isConstant (frames : Frames) (scope : Scope) (name : Text) : Bool :=
  match frames.binding? scope name with
  | some b => b.constant
  | none => false

def visible (frames : Frames) (scope : Scope) : List Text :=
  (scope.chain.flatMap fun id => (frames.frame id).names).eraseDups

def declarationFault? (frames : Frames) (scope : Scope) (name : Text) : Option Diagnostic :=
  if (frames.frame scope.innermost).binds name then some (Fault.alreadyDeclared.about "Name" name)
  else none

def bind (frames : Frames) (scope : Scope) (name : Text) (value : Value) (constant : Bool) :
    Frames :=
  frames.modify scope.innermost fun frame => frame.declare name value constant

def declare (frames : Frames) (scope : Scope) (name : Text) (value : Value) (constant : Bool) :
    Except Diagnostic Frames :=
  match frames.declarationFault? scope name with
  | some fault => .error fault
  | none => .ok (frames.bind scope name value constant)

def assignmentFault? (frames : Frames) (scope : Scope) (name : Text) : Option Diagnostic :=
  match frames.binding? scope name with
  | none => some (Fault.assignedUndeclared.about "Name" name)
  | some b => if b.constant then some (Fault.assignedConstant.about "Name" name) else none

def rebind (frames : Frames) (scope : Scope) (name : Text) (value : Value) : Frames :=
  match frames.owner? scope name with
  | some id => frames.modify id fun frame => frame.update name value
  | none => frames

def assign (frames : Frames) (scope : Scope) (name : Text) (value : Value) :
    Except Diagnostic Frames :=
  match frames.assignmentFault? scope name with
  | some fault => .error fault
  | none => .ok (frames.rebind scope name value)

def lookup (frames : Frames) (scope : Scope) (name : Text) : Except Diagnostic Value :=
  match frames.get? scope name with
  | some value => .ok value
  | none => .error (Diagnostic.undeclared name (frames.visible scope))

def grow (frames : Frames) : Frames := frames.push []

/-- Whether a binding was there before the program: natives anywhere, and in an outermost frame the
constants for the truth values and null. -/
def isPredeclared (scope : Scope) (b : Binding) : Bool :=
  match b.value with
  | .native _ => true
  | _ =>
    scope.around.isEmpty && b.constant
      && (b.name == utf8 "true" || b.name == utf8 "false" || b.name == utf8 "null")

/-- The bindings of the innermost frame of a scope that the program declared, in the order of their
names. -/
def userVariables (frames : Frames) (scope : Scope) : List Binding :=
  ((frames.frame scope.innermost).filter fun b => !isPredeclared scope b).mergeSort
    fun a b => Text.le a.name b.name

end Frames

end Scriptlet
