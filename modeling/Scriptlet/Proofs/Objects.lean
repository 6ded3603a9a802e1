import Scriptlet.Diagnostic.Printer
import Scriptlet.Eval.Basic
/-!
Objects: values, and the stops of evaluation among them. An object may have a stop for a property, and a
slot, which binds a name to an object, may hold one; nothing about them prevents it. The objects of
values do not: they hold no stop at any depth.
-/
namespace Scriptlet

inductive Object where
  | null
  | boolean (value : Bool)
  | number (value : Float)
  | string (value : Text)
  | object (properties : List (Text × Object))
  | function (name : Text) (parameters : List Text) (body : List Stmt) (scope : Scope)
  | native (function : Native)
  | stop (stop : Stop)
  deriving Inhabited

/-- The text that is shown of a stop where a value is expected. -/
def Stop.shown : Stop → Text
  | .failed fault => fault.inspect
  | .halted halt => halt.report
  | .exhausted => []

mutual

def Object.ofValue : Value → Object
  | .null => .null
  | .boolean value => .boolean value
  | .number value => .number value
  | .string value => .string value
  | .object properties => .object (Object.ofProperties properties)
  | .function name parameters body scope => .function name parameters body scope
  | .native which => .native which

def Object.ofProperties : List (Text × Value) → List (Text × Object)
  | [] => []
  | (name, value) :: rest => (name, Object.ofValue value) :: Object.ofProperties rest

end

mutual

/-- The value that operators and native functions take an object for. -/
def Object.read : Object → Value
  | .null => .null
  | .boolean value => .boolean value
  | .number value => .number value
  | .string value => .string value
  | .object properties => .object (Object.readProperties properties)
  | .function name parameters body scope => .function name parameters body scope
  | .native which => .native which
  | .stop cause => .string cause.shown

def Object.readProperties : List (Text × Object) → List (Text × Value)
  | [] => []
  | (name, value) :: rest => (name, value.read) :: Object.readProperties rest

end

namespace Object

/-- The object is the stop, or has it for a property at some depth. -/
inductive Holds (stop : Stop) : Object → Prop where
  | self : Holds stop (.stop stop)
  | property {properties : List (Text × Object)} {property} :
      property ∈ properties → Holds stop property.2 → Holds stop (.object properties)

def fault (fault : Diagnostic) : Object := .stop (.failed fault)

/-- Whether the object ends the evaluation of what it is a part of. -/
def unwinds : Object → Bool
  | .stop _ => true
  | _ => false

def isFault : Object → Bool
  | .stop (.failed _) => true
  | _ => false

/-- A fault that has no place yet gets that of the token; all other objects stay as they are. -/
def placedAt (token : Token) : Object → Object
  | .stop (.failed found) =>
    if found.position.line = 0 then fault (found.placedAt token.position) else fault found
  | other => other

/-- What an evaluation came to, as an object. -/
def ofResult : Except Stop Value → Object
  | .ok value => ofValue value
  | .error cause => .stop cause

theorem ofProperties_eq (properties : List (Text × Value)) :
    ofProperties properties = properties.map (Prod.map id ofValue) := by
  induction properties with
  | nil => rfl
  | cons property rest ih => rw [ofProperties, ih]; rfl

theorem lookup_ofProperties (properties : List (Text × Value)) (name : Text) :
    (ofProperties properties).lookup name = (properties.lookup name).map ofValue := by
  induction properties with
  | nil => rfl
  | cons property rest ih =>
    rw [ofProperties, List.lookup_cons, List.lookup_cons, ih]
    split <;> rfl

mutual

@[simp]
theorem read_ofValue (value : Value) : (ofValue value).read = value := by
  cases value with
  | object properties => rw [ofValue, read, readProperties_ofProperties]
  | _ => rfl

theorem readProperties_ofProperties (properties : List (Text × Value)) :
    readProperties (ofProperties properties) = properties := by
  cases properties with
  | nil => rfl
  | cons property rest =>
    rw [ofProperties, readProperties, read_ofValue property.2, readProperties_ofProperties rest]

end

@[simp]
theorem map_read_ofValue (values : List Value) : (values.map ofValue).map read = values := by
  rw [List.map_map]
  exact (List.map_congr_left fun value _ => read_ofValue value).trans (List.map_id _)

@[simp]
theorem unwinds_ofValue (value : Value) : (ofValue value).unwinds = false := by
  cases value <;> rfl

@[simp]
theorem isFault_ofValue (value : Value) : (ofValue value).isFault = false := by
  cases value <;> rfl

@[simp]
theorem placedAt_ofValue (token : Token) (value : Value) :
    (ofValue value).placedAt token = ofValue value := by
  cases value <;> rfl

theorem placedAt_fault (token : Token) {found : Diagnostic} (unplaced : found.position = .unknown) :
    (fault found).placedAt token = fault (found.placedAt token.position) := by
  have nowhere : found.position.line = 0 := by rw [unplaced, Position.unknown]
  exact if_pos nowhere

theorem not_holds_ofValue (value : Value) (stop : Stop) : ¬ (ofValue value).Holds stop := by
  intro holds
  generalize same : ofValue value = object at holds
  induction holds generalizing value with
  | self => cases value <;> cases same
  | @property properties property member _ ih =>
    cases value with
    | object inner =>
      rw [ofValue] at same
      obtain rfl := Object.object.inj same
      rw [ofProperties_eq] at member
      obtain ⟨own, -, rfl⟩ := List.mem_map.mp member
      exact ih own.2 rfl
    | _ => cases same

end Object

/-- What a name stands for, stop or not. -/
structure Slot where
  name : Text
  object : Object
  constant : Bool

def Slot.ofBinding (b : Binding) : Slot := ⟨b.name, .ofValue b.value, b.constant⟩

/-- All frames, by number. -/
abbrev Heap := Array (List Slot)

namespace Heap

variable (heap : Heap) (scope : Scope) (name : Text)

/-- The slots of the frame with a number, none if there is no such frame. -/
def frame (id : FrameId) : List Slot := heap.getD id []

def find (id : FrameId) : Option Slot := (heap.frame id).find? fun slot => slot.name == name

/-- The nearest frame of a scope that has a slot for a name. -/
def owner? : Option FrameId := scope.chain.find? fun id => (heap.find name id).isSome

def slot? : Option Slot := (heap.owner? scope name).bind (heap.find name)

def visible : List Text :=
  (scope.chain.flatMap fun id => (heap.frame id).map Slot.name).eraseDups

/-- Adds a slot to the innermost frame of a scope. -/
def bind (slot : Slot) : Heap := heap.modify scope.innermost (slot :: ·)

/-- Changes the object of the nearest slot for a name. -/
def rebind (object : Object) : Heap :=
  match heap.owner? scope name with
  | some id =>
    heap.modify id fun frame =>
      frame.map fun slot => if slot.name = name then { slot with object } else slot
  | none => heap

def grow : Heap := heap.push []

def ofFrames (frames : Frames) : Heap := frames.map (List.map Slot.ofBinding)

variable (frames : Frames)

@[simp]
theorem size_ofFrames : (ofFrames frames).size = frames.size := Array.size_map ..

theorem frame_ofFrames (id : FrameId) :
    (ofFrames frames).frame id = (frames.frame id).map Slot.ofBinding := by
  unfold frame Frames.frame ofFrames
  by_cases there : id < frames.size <;> simp [there]

theorem find_ofFrames (id : FrameId) :
    (ofFrames frames).find name id = ((frames.frame id).find name).map Slot.ofBinding := by
  rw [find, frame_ofFrames, List.find?_map]
  rfl

theorem owner?_ofFrames : (ofFrames frames).owner? scope name = frames.owner? scope name := by
  simp only [owner?, Frames.owner?, find_ofFrames, Option.isSome_map, Frame.binds]

theorem slot?_ofFrames :
    (ofFrames frames).slot? scope name = (frames.binding? scope name).map Slot.ofBinding := by
  rw [slot?, Frames.binding?, owner?_ofFrames]
  cases frames.owner? scope name with
  | none => rfl
  | some id => exact find_ofFrames name frames id

theorem visible_ofFrames : (ofFrames frames).visible scope = frames.visible scope := by
  simp only [visible, Frames.visible, frame_ofFrames, List.map_map, Frame.names]
  rfl

theorem bind_ofFrames (value : Value) (constant : Bool) :
    (ofFrames frames).bind scope ⟨name, .ofValue value, constant⟩ =
      ofFrames (frames.bind scope name value constant) := by
  apply Array.ext
  · simp [bind, Frames.bind]
  · intro id _ _
    simp only [bind, Frames.bind, ofFrames, Array.getElem_map, Array.getElem_modify]
    split <;> rfl

theorem rebind_ofFrames (value : Value) :
    (ofFrames frames).rebind scope name (.ofValue value) =
      ofFrames (frames.rebind scope name value) := by
  rw [rebind, Frames.rebind, owner?_ofFrames]
  cases frames.owner? scope name with
  | none => rfl
  | some owner =>
    apply Array.ext
    · simp
    · intro id _ _
      simp only [ofFrames, Array.getElem_map, Array.getElem_modify]
      split
      · simp only [Frame.update, List.map_map]
        apply List.map_congr_left
        intro b _
        by_cases same : b.name = name <;> simp [Slot.ofBinding, same]
      · rfl

theorem grow_ofFrames : (ofFrames frames).grow = ofFrames frames.grow := by
  rw [grow, ofFrames, ofFrames, Frames.grow, Array.map_push]
  rfl

end Heap

/-- What evaluation with objects reads and changes. -/
structure ObjectStore where
  heap : Heap
  printed : List Printed := []
  machine : Machine
  /-- The arguments of all calls so far. -/
  passed : List Object := []

/-- The store has the objects of the values in another, and no stop was passed to a function. -/
structure ObjectStore.Shows (objects : ObjectStore) (store : Store) : Prop where
  heap : objects.heap = .ofFrames store.frames
  printed : objects.printed = store.printed
  machine : objects.machine = store.machine
  passed : ∀ object ∈ objects.passed, ∀ stop, ¬ object.Holds stop

end Scriptlet
