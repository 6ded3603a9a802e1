import Scriptlet.Proofs.Objects
import Scriptlet.Proofs.Outcome
/-!
Evaluation in direct style. A stop is an object like any other: each rule gets the objects of its parts,
looks whether they unwind, and hands on those that do. What it forgot to look at it would declare,
assign, make a property of or pass to a function.
-/
namespace Scriptlet

abbrev Direct := StateM ObjectStore

namespace Direct

variable {α : Type}

/-- A fault at the place of a token. -/
def failure (token : Token) (found : Diagnostic) : Object :=
  .fault (found.placedAt token.position)

/-- Goes on with an object unless it unwinds. -/
def settle (stopped : Object → α) (first : Direct Object) (next : Object → Direct α) : Direct α := do
  let object ← first
  if object.unwinds then return stopped object else next object

/-- Goes on with a verdict unless it is an object that unwinds. -/
def attempt (first : Direct (Except Object α)) (next : α → Direct Object) : Direct Object := do
  match ← first with
  | .error object => return object
  | .ok verdict => next verdict

/-- Gives the fault of an action that does not know its place that of a token. -/
def placed (token : Token) (first : Direct Object) : Direct Object := do
  return (← first).placedAt token

/-- Looks a name up; the result is its object, or a fault without a place. -/
def lookup (scope : Scope) (name : Text) : Direct Object := do
  let heap := (← get).heap
  match heap.slot? scope name with
  | some slot => return slot.object
  | none => return .fault (.undeclared name (heap.visible scope))

/-- Declares a name; the result is its object, or a fault without a place. -/
def declare (scope : Scope) (name : Text) (object : Object) (constant : Bool) : Direct Object := do
  if ((← get).heap.find name scope.innermost).isSome then
    return .fault (Fault.alreadyDeclared.about "Name" name)
  else
    modify fun store => { store with heap := store.heap.bind scope ⟨name, object, constant⟩ }
    return object

/-- Assigns to a name; the result is its object, or a fault without a place. -/
def assign (scope : Scope) (name : Text) (object : Object) : Direct Object := do
  match (← get).heap.slot? scope name with
  | none => return .fault (Fault.assignedUndeclared.about "Name" name)
  | some slot =>
    if slot.constant then return .fault (Fault.assignedConstant.about "Name" name)
    else
      modify fun store => { store with heap := store.heap.rebind scope name object }
      return object

def enclosed (scope : Scope) : Direct Scope := do
  let inside := scope.enclose (← get).heap.size
  modify fun store => { store with heap := store.heap.grow }
  return inside

/-- Takes a note of the arguments of a call. -/
def pass (arguments : List Object) : Direct Unit :=
  modify fun store => { store with passed := arguments ++ store.passed }

def print (printed : Printed) : Direct Object := do
  modify fun store => { store with printed := printed :: store.printed }
  return .null

def readClock : Direct Reading := do
  let reading := (← get).machine.now
  modify fun store => { store with machine := store.machine.after 1 }
  return reading

def native (function : Native) (arguments : List Object) : Direct Object := do
  let given := arguments.map Object.read
  match function with
  | .print => print (.part (Printed.values (given.map Value.inspect)))
  | .println => print (.line (Printed.values (given.map Value.inspect)))
  | .time => return .ofValue (Native.timeValue (← readClock) given)
  | .exit => return .stop (.halted (Native.haltOf (← get).machine given))

abbrev Evaluation := Stmt → Scope → Direct Object

variable (eval : Evaluation)

def sequence (scope : Scope) : Object → List Stmt → Direct Object
  | last, [] => pure last
  | _, statement :: rest => settle id (eval statement scope) fun object => sequence scope object rest

/-- The objects of expressions, behind those before them; or only the first one that unwinds. -/
def objects (scope : Scope) : List Object → List Expr → Direct (List Object)
  | before, [] => pure before.reverse
  | before, e :: rest =>
    settle (fun object => [object]) (eval (.expr e) scope) fun object =>
      objects scope (object :: before) rest

def condition (scope : Scope) (token : Token) (e : Expr) : Direct (Except Object Bool) :=
  settle .error (eval (.expr e) scope) fun object =>
    match object with
    | .boolean value => pure (.ok value)
    | other =>
      pure (.error (failure token (Fault.conditionNotBoolean.about "Got" other.read.typeName)))

def optionalObject (scope : Scope) : Expr → Direct Object
  | .absent => pure .null
  | e => eval (.expr e) scope

def declaration (scope : Scope) (d : Declaration) : Direct Object :=
  settle id (optionalObject eval scope d.value) fun object =>
    placed d.name.token (declare scope d.name.text object d.constant)

def links (scope : Scope) : List (Guarded Stmt) → Direct Object
  | [] => pure .null
  | link :: rest =>
    attempt (condition eval scope link.token link.condition) fun holds =>
      if holds then sequence eval scope .null link.body else links scope rest

/-- A loop of at most so many rounds. -/
def loop (scope : Scope) (token : Token) (test step : Expr) (statements : List Stmt) :
    Nat → Direct Object
  | 0 => pure (.stop .exhausted)
  | bound + 1 =>
    attempt (condition eval scope token test) fun holds =>
      if holds then
        settle id (sequence eval scope .null statements) fun _ =>
          settle id (optionalObject eval scope step) fun _ =>
            loop scope token test step statements bound
      else pure (.boolean false)

def opening (scope : Scope) : Option Declaration → Direct Object
  | none => pure .null
  | some d => eval (.declare d) scope

def propertyObject (scope : Scope) (key : Ident) : Expr → Direct Object
  | .absent => placed key.token (lookup scope key.text)
  | e => eval (.expr e) scope

def properties (scope : Scope) : List (Text × Object) → List (Ident × Expr) → Direct Object
  | known, [] => pure (.object known.reverse)
  | known, (key, e) :: rest =>
    settle id (propertyObject eval scope key e) fun object =>
      if (known.lookup key.text).isSome then
        pure (failure key.token (Fault.alreadyDeclared.about "Name" key.text))
      else properties scope ((key.text, object) :: known) rest

def assignment (scope : Scope) (token : Token) (target e : Expr) : Direct Object :=
  match target with
  | .ident name =>
    settle id (eval (.expr e) scope) fun object =>
      placed name.token (assign scope name.text object)
  | other => pure (failure token (Fault.targetNotName.about "Got" other.text))

def binary (token : Token) (operator : Text) (left right : Object) : Object :=
  if token.kind = .booleanOperator then
    match Comparison.onValues? operator left.read right.read with
    | some result => .boolean result
    | none => failure token (Comparison.unsupported operator left.read right.read)
  else .ofValue (Arithmetic.onValues operator left.read right.read)

def unary (scope : Scope) (token : Token) (operator : Text) (operand : Expr) : Direct Object :=
  match operand with
  | .absent => pure (failure token (Fault.missingOperand.about "Operator" operator))
  | operand =>
    settle id (eval (.expr operand) scope) fun object =>
      match object with
      | .number value =>
        match increment? operator value with
        | none => pure (failure token (Fault.unsupportedUnary.about "Operator" operator))
        | some result =>
          match operand with
          | .ident name => do
            let changed ← assign scope name.text (.number result)
            if changed.isFault then return changed.placedAt name.token
            else return .number result
          | _ => pure (.number result)
      | other =>
        pure (failure token (Fault.operandNotNumber.diagnose
          (some [(utf8 "Operator", .text operator), (utf8 "Got", .text other.read.typeName)])))

def memberName (scope : Scope) (token : Token) (property : Expr) (computed : Bool) :
    Direct (Except Object Text) :=
  if computed then
    settle .error (eval (.expr property) scope) fun object =>
      match object with
      | .string name => pure (.ok name)
      | other => pure (.error (failure token (Fault.keyNotString.about "Got" other.read.typeName)))
  else
    match property with
    | .ident name => pure (.ok name.text)
    | other => pure (.error (failure token (Fault.keyNotString.about "Got" other.text)))

def member (scope : Scope) (token : Token) (holder property : Expr) (computed : Bool) :
    Direct Object :=
  settle id (eval (.expr holder) scope) fun object =>
    match object with
    | .object properties =>
      attempt (memberName eval scope token property computed) fun name =>
        match properties.lookup name with
        | some object => pure object
        | none => pure (failure token (Fault.missingProperty.about "Name" name))
    | other => pure (failure token (Fault.notObject.about "Got" other.read.typeName))

/-- Declares parameters with the arguments there are for them. -/
def bindParameters (scope : Scope) (token : Token) :
    List Text → List Object → Direct (Except Object Unit)
  | name :: names, object :: objects => do
    let declared ← declare scope name object false
    if declared.isFault then return .error (declared.placedAt token)
    else bindParameters scope token names objects
  | _, _ => pure (.ok ())

def apply (token : Token) (callee : Object) (arguments : List Object) : Direct Object :=
  match callee with
  | .native function => do
    pass arguments
    native function arguments
  | .function _ parameters statements scope => do
    pass arguments
    let inside ← enclosed scope
    attempt (bindParameters inside token parameters arguments) fun _ =>
      sequence eval inside .null statements
  | other => pure (failure token (Fault.notCallable.about "Got" other.read.typeName))

/-- Calls a function unless there is one argument and that unwinds. -/
def call (token : Token) (callee : Object) (arguments : List Object) : Direct Object :=
  match arguments with
  | [object] => if object.unwinds then pure object else apply eval token callee [object]
  | arguments => apply eval token callee arguments

def expression (scope : Scope) : Expr → Direct Object
  | .absent => pure .null
  | .ident name => placed name.token (lookup scope name.text)
  | .number _ value _ => pure (.number value)
  | .string _ value => pure (.string value)
  | .boolean _ value => pure (.boolean value)
  | .object _ entries => properties eval scope [] entries
  | .assign token target e => assignment eval scope token target e
  | .binary token operator left right =>
    settle id (eval (.expr left) scope) fun a =>
      settle id (eval (.expr right) scope) fun b => pure (binary token operator a b)
  | .unary token operator operand => unary eval scope token operator operand
  | .call token callee arguments =>
    settle id (eval (.expr callee) scope) fun function => do
      call eval token function (← objects eval scope [] arguments)
  | .member token holder property computed => member eval scope token holder property computed

def rule (bound : Nat) (statement : Stmt) (scope : Scope) : Direct Object :=
  match statement with
  | .expr e => expression eval scope e
  | .declare d => declaration eval scope d
  | .function _ name parameters statements =>
    let object := Object.function name.text (parameters.map Ident.text) statements scope
    placed name.token (declare scope name.text object true)
  | .branch first others => do
    links eval (← enclosed scope) (first :: others)
  | .whileLoop token test statements => do
    loop eval (← enclosed scope) token test .absent statements bound
  | .forLoop token start test step statements => do
    let inside ← enclosed scope
    settle id (opening eval inside start) fun _ => loop eval inside token test step statements bound

def statement : Nat → Evaluation
  | 0, _, _ => pure (.stop .exhausted)
  | bound + 1, single, scope => rule (statement bound) bound single scope

def node (bound : Nat) : Node → Scope → Direct Object
  | .program statements, scope => sequence (statement bound) scope .null statements
  | .statement single, scope => statement bound single scope

end Direct

end Scriptlet
