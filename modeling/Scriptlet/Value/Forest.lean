import Scriptlet.Value.Frame
/-!
Scopes as an embedding program makes and uses them. Each has a frame of its own and may be inside an
earlier one; any number of scopes may be inside the same one and share its frames.
-/
namespace Scriptlet

/-- What can be asked for. Scopes go by number, in the order they are made. -/
inductive ScopeOperation where
  | make (around : Option Nat)
  | declare (scope : Nat) (name : Text) (value : Value) (constant : Bool)
  | assign (scope : Nat) (name : Text) (value : Value)
  | lookup (scope : Nat) (name : Text)
  | get (scope : Nat) (name : Text)
  | resolve (scope : Nat) (name : Text)
  | isConstant (scope : Nat) (name : Text)
  | names (scope : Nat)

inductive ScopeAnswer where
  | made (scope : Nat)
  | value (value : Value)
  | fault (fault : Diagnostic)
  | found (value : Option Value)
  | owner (scope : Option Nat)
  | constant (constant : Bool)
  | names (names : List Text)

structure Forest where
  frames : Frames := #[]
  scopes : Array Scope := #[]

namespace Forest

def scope (forest : Forest) (id : Nat) : Scope := forest.scopes.getD id { innermost := id }

def opened (forest : Forest) : Option Nat → Scope
  | none => { innermost := forest.frames.size }
  | some out => (forest.scope out).enclose forest.frames.size

def make (forest : Forest) (around : Option Nat) : Forest :=
  { frames := forest.frames.grow, scopes := forest.scopes.push (forest.opened around) }

def change (forest : Forest) (value : Value) : Except Diagnostic Frames → ScopeAnswer × Forest
  | .ok frames => (.value value, { forest with frames })
  | .error fault => (.fault fault, forest)

def step (forest : Forest) : ScopeOperation → ScopeAnswer × Forest
  | .make around => (.made forest.scopes.size, forest.make around)
  | .declare s name value constant =>
    forest.change value (forest.frames.declare (forest.scope s) name value constant)
  | .assign s name value => forest.change value (forest.frames.assign (forest.scope s) name value)
  | .lookup s name =>
    match forest.frames.lookup (forest.scope s) name with
    | .ok value => (.value value, forest)
    | .error fault => (.fault fault, forest)
  | .get s name => (.found (forest.frames.get? (forest.scope s) name), forest)
  | .resolve s name => (.owner (forest.frames.owner? (forest.scope s) name), forest)
  | .isConstant s name => (.constant (forest.frames.isConstant (forest.scope s) name), forest)
  | .names s => (.names (forest.frames.visible (forest.scope s)), forest)

def run (forest : Forest) : List ScopeOperation → List ScopeAnswer × Forest
  | [] => ([], forest)
  | operation :: rest =>
    let (answer, next) := forest.step operation
    let (answers, last) := next.run rest
    (answer :: answers, last)

end Forest

end Scriptlet
