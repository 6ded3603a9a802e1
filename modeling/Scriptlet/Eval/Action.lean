import Scriptlet.Eval.Machine
import Scriptlet.Output.Printed
import Scriptlet.Value.Frame
/-!
Evaluation acts on a store and either gives a value or stops: with a diagnostic, because the program
asked to, or because the bound on its steps was reached. What stops an action stops every action it
is part of.
-/
namespace Scriptlet

structure Halt where
  code : Int64
  message : Text
  deriving DecidableEq, Repr

def Halt.report (halt : Halt) : Text :=
  utf8 "Exit code: " ++ Text.ofInt halt.code.toInt
    ++ if halt.message = [] then [] else utf8 " " ++ halt.message

inductive Stop where
  | failed (fault : Diagnostic)
  | halted (halt : Halt)
  | exhausted
  deriving DecidableEq, Repr

structure Store where
  frames : Frames
  /-- What was printed, the latest first. -/
  printed : List Printed := []
  machine : Machine

abbrev Action := ExceptT Stop (StateM Store)

namespace Action

variable {α : Type}

def failAt (token : Token) (fault : Diagnostic) : Action α :=
  throw (.failed (fault.placedAt token.position))

/-- Goes on unless there is a fault, which is placed at a token. -/
def allow (token : Token) (fault : Option Diagnostic) : Action Unit :=
  match fault with
  | some fault => failAt token fault
  | none => pure ()

def lookup (scope : Scope) (name : Text) (token : Token) : Action Value := do
  match (← get).frames.lookup scope name with
  | .ok value => return value
  | .error fault => failAt token fault

def declare (scope : Scope) (name : Text) (value : Value) (constant : Bool) (token : Token) :
    Action Value := do
  allow token ((← get).frames.declarationFault? scope name)
  modify fun store => { store with frames := store.frames.bind scope name value constant }
  return value

def assign (scope : Scope) (name : Text) (value : Value) (token : Token) : Action Value := do
  allow token ((← get).frames.assignmentFault? scope name)
  modify fun store => { store with frames := store.frames.rebind scope name value }
  return value

def enclosed (scope : Scope) : Action Scope := do
  let inside := scope.enclose (← get).frames.size
  modify fun store => { store with frames := store.frames.grow }
  return inside

def print (printed : Printed) : Action Unit :=
  modify fun store => { store with printed := printed :: store.printed }

def readClock : Action Reading := do
  let reading := (← get).machine.now
  modify fun store => { store with machine := store.machine.after 1 }
  return reading

end Action

end Scriptlet
