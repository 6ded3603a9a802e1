import Scriptlet.Proofs.Mirroring
import Scriptlet.Proofs.Persistence
import Scriptlet.Proofs.Whereabouts
/-!
Stops are never stored. Evaluation in direct style would let a stop be bound, be a property or be passed
to a function; but whatever is evaluated, one thing after another, it comes to the store of the objects
of values. The faults of programs that were parsed all have a place.
-/
namespace Scriptlet

namespace ObjectStore

/-- The store in which programs start. -/
def fresh (machine : Machine) : ObjectStore :=
  { heap := .ofFrames (Interpreter.freshStore machine).frames, machine }

/-- The stores that evaluations lead to, one after another, of the nodes that are allowed. -/
inductive Reached (allowed : Node → Prop) (machine : Machine) : ObjectStore → Prop where
  | fresh : Reached allowed machine (.fresh machine)
  | evaluate {objects} (bound : Nat) {node : Node} (scope : Scope) :
      Reached allowed machine objects → allowed node →
        Reached allowed machine ((Direct.node bound node scope).run objects).2

variable {allowed : Node → Prop} {machine : Machine} {objects : ObjectStore}

/-- Evaluations in direct style lead to the objects of what evaluations lead to. -/
theorem Reached.shows (reached : objects.Reached allowed machine) (property : Store → Prop)
    (new : property (Interpreter.freshStore machine))
    (kept : ∀ store bound node scope, allowed node → property store →
      property (node.eval bound scope |>.outcome store).2) :
    ∃ store, objects.Shows store ∧ property store := by
  induction reached with
  | fresh => exact ⟨_, ⟨rfl, rfl, rfl, nofun⟩, new⟩
  | @evaluate objects bound node scope _ permitted ih =>
    obtain ⟨store, shows, holds⟩ := ih
    exact ⟨_, (Direct.mirrors_node bound node scope objects store shows).2,
      kept store bound node scope permitted holds⟩

theorem Shows.not_holds {store : Store} (shows : objects.Shows store) {id : FrameId} {slot : Slot}
    (member : slot ∈ objects.heap.frame id) (stop : Stop) : ¬ slot.object.Holds stop := by
  rw [shows.heap, Heap.frame_ofFrames] at member
  obtain ⟨b, -, rfl⟩ := List.mem_map.mp member
  exact Object.not_holds_ofValue b.value stop

end ObjectStore

/-- A program that a source is parsed to. -/
def Node.Parsed (node : Node) : Prop :=
  ∃ source program, Parser.parseFresh Keywords.default source = .ok program ∧ node = .program program

/-- The token is on a line of a source. -/
def Token.Lined (token : Token) : Prop := 1 ≤ token.position.line

theorem Node.Parsed.marked {node : Node} (parsed : node.Parsed) :
    ∀ statement ∈ node.statements, statement.Marked Token.Lined := by
  obtain ⟨source, program, read, rfl⟩ := parsed
  obtain ⟨tokens, scanned, marked⟩ := Parser.marked_of_parseFresh read
  have lined : ∀ token ∈ tokens, token.Lined :=
    fun token inside => (Token.pointsInto_of_scan scanned inside).1.line_pos
  exact fun statement member => (marked statement member).imp lined

/-- Evaluations of parsed programs keep the functions in the store marked on lines. -/
theorem Node.Parsed.ready {node : Node} (parsed : node.Parsed) {store : Store}
    (ready : (Policy.marked Token.Lined).Ready store) (bound : Nat) (scope : Scope) :
    (Policy.marked Token.Lined).Ready ((node.eval bound scope).outcome store).2 := by
  have keeps : (Policy.marked Token.Lined).Keeps (node.eval bound scope) _ :=
    Policy.keeps_eval trivial parsed.marked (fun _ _ => trivial) bound
  exact (keeps store ready).1.ready ready

/-- Let anything be evaluated in direct style, one thing after another in any scopes, and to whatever
ends, from the store in which programs start. Then no slot of any frame has a stop for its object, or
has one among the properties of its object at any depth; no stop was passed to a function, alone or in
an object; and whatever is evaluated next comes to a stop itself or to an object without any. It comes
to what evaluation comes to, which has led to the same bindings. If only programs that were parsed are
evaluated, all their faults are on lines from 1. -/
theorem stops_never_stored (machine : Machine) :
    (∀ objects : ObjectStore, objects.Reached (fun _ => True) machine →
        (∀ id, ∀ slot ∈ objects.heap.frame id, ∀ stop, ¬ slot.object.Holds stop) ∧
        (∀ object ∈ objects.passed, ∀ stop, ¬ object.Holds stop) ∧
        (∀ bound node scope stop, ((Direct.node bound node scope).run objects).1.Holds stop →
          ((Direct.node bound node scope).run objects).1 = .stop stop) ∧
        ∃ store, (Interpreter.freshStore machine).Reaches store ∧
          objects.heap = .ofFrames store.frames ∧ ∀ bound node scope,
            ((Direct.node bound node scope).run objects).1 =
              .ofResult ((node.eval bound scope).outcome store).1) ∧
      ∀ objects : ObjectStore, objects.Reached Node.Parsed machine →
        ∀ bound node scope, node.Parsed → ∀ found,
          ((Direct.node bound node scope).run objects).1 = .fault found → 1 ≤ found.position.line := by
  constructor
  · intro objects reached
    obtain ⟨store, shows, history⟩ := reached.shows (Interpreter.freshStore machine).Reaches .refl
      fun store bound node scope _ history => history.tail (.step store bound node scope)
    have result (bound node scope) := (Direct.mirrors_node bound node scope objects store shows).1
    refine ⟨fun id slot member => shows.not_holds member, shows.passed, ?_, store, history, shows.heap,
      result⟩
    intro bound node scope stop holds
    rw [result] at holds ⊢
    rcases ended : ((node.eval bound scope).outcome store).1 with found | value
    · rw [ended] at holds
      cases holds
      rfl
    · rw [ended] at holds
      exact absurd holds (Object.not_holds_ofValue value stop)
  · intro objects reached bound node scope parsed found failed
    obtain ⟨store, shows, ready⟩ := reached.shows (Policy.marked Token.Lined).Ready
      (Interpreter.ready_fresh (Nat.zero_le _) machine)
      fun store bound node scope parsed ready => parsed.ready ready bound scope
    rw [(Direct.mirrors_node bound node scope objects store shows).1] at failed
    have within : Task.Within (Policy.marked Token.Lined) ⟨bound, node, scope, store⟩ :=
      ⟨parsed.marked, trivial, fun _ _ => trivial, ready⟩
    rcases ended : (node.eval bound scope).outcome store with ⟨stop | value, after⟩
    · rw [ended] at failed
      cases failed
      obtain ⟨token, lined, same⟩ := Task.atKnown within ended
      rw [same]
      exact lined
    · rw [ended] at failed
      cases value <;> cases failed

/-- What a source is parsed to, nothing if it is not. -/
def Node.ofSource (source : Text) : Node :=
  .program ((Parser.parseFresh Keywords.default source).toOption.getD [])

theorem Node.parsed_ofSource {source : Text}
    (accepted : (Parser.parseFresh Keywords.default source).toOption.isSome = true) :
    (ofSource source).Parsed := by
  rcases read : Parser.parseFresh Keywords.default source with found | program
  · rw [read] at accepted
    cases accepted
  · exact ⟨source, program, read, by rw [ofSource, read]; rfl⟩

/-- The place of a fault. -/
def Object.place? : Object → Option Position
  | .stop (.failed found) => some found.position
  | _ => none

theorem Object.fault_of_place? {object : Object} {place : Position}
    (found : object.place? = some place) : ∃ found, object = .fault found ∧ found.position = place := by
  cases object with
  | stop cause =>
    cases cause with
    | failed fault => exact ⟨fault, rfl, Option.some.inj found⟩
    | _ => cases found
  | _ => cases found

namespace ObjectStore

/-- A call in an object in a call: `f` fails, as numbers have no members. -/
def nested : Node := .ofSource (utf8 "println(\x7b b: f(1) \x7d);")

/-- The store after `f` was declared. -/
def declared : ObjectStore :=
  ((Direct.node 9 (.ofSource (utf8 "func f(o) \x7b\no.a; \x7d")) Interpreter.globalScope).run
    (.fresh (.still ⟨2024, 3, 9, 14, 5, 7, 0⟩))).2

/-- The store after the fault of `f`. -/
def failed : ObjectStore := ((Direct.node 9 nested Interpreter.globalScope).run declared).2

-- Only the number was passed to a function, and is bound to its parameter.
theorem failed_stopFree :
    (∃ found, ((Direct.node 9 nested Interpreter.globalScope).run declared).1 = .fault found ∧
        found.position = ⟨2, 2⟩ ∧ 1 ≤ found.position.line) ∧
      ((failed.heap.frame 1).map Slot.name = [utf8 "o"] ∧
        ∀ slot ∈ failed.heap.frame 1, ∀ stop, ¬ slot.object.Holds stop) ∧
      failed.passed.length = 1 ∧ ∀ object ∈ failed.passed, ∀ stop, ¬ object.Holds stop := by
  have parsed : nested.Parsed := Node.parsed_ofSource (by decide +kernel)
  have reached : declared.Reached Node.Parsed (.still ⟨2024, 3, 9, 14, 5, 7, 0⟩) :=
    .evaluate 9 Interpreter.globalScope .fresh (Node.parsed_ofSource (by decide +kernel))
  have all : failed.Reached (fun _ => True) (.still ⟨2024, 3, 9, 14, 5, 7, 0⟩) :=
    .evaluate 9 Interpreter.globalScope (.evaluate 9 Interpreter.globalScope .fresh trivial) trivial
  obtain ⟨found, same, place⟩ := Object.fault_of_place?
    (show ((Direct.node 9 nested Interpreter.globalScope).run declared).1.place? = some ⟨2, 2⟩ by
      decide +kernel)
  have lined := (stops_never_stored _).2 declared reached 9 nested Interpreter.globalScope parsed
    found same
  obtain ⟨slots, passed, -⟩ := (stops_never_stored _).1 failed all
  exact ⟨⟨found, same, place, lined⟩, ⟨by decide +kernel, slots 1⟩, by decide +kernel, passed⟩

end ObjectStore

end Scriptlet
