import Scriptlet.Proofs.Fallbacks
import Scriptlet.Proofs.Reset
import Scriptlet.Repl.Entry
/-!
Inspecting commands. Help, the list of variables, a tree and an unknown command leave everything as it
is but for what the parser remembers, which no answer shows. So whether they were asked or not, all
other requests of a session are answered alike.
-/
namespace Scriptlet

namespace Repl

/-- Whether a command only shows something. -/
def Command.inspects : Command → Bool
  | .help | .scope | .tree _ | .unknown _ => true
  | .clear => false

/-- What can be asked of a session. -/
inductive Request where
  | entry (source : Text)
  | command (text : Text)

def Request.inspects : Request → Bool
  | .entry _ => false
  | .command text => (Command.ofText text).inspects

def Request.answer (bound : Nat) (i : Interpreter) : Request → Answer
  | .entry source => evaluate bound i source
  | .command text => (Command.ofText text).perform i

/-- What an answer shows: what was printed, the code with which it ended the session, if it did, and
the variables afterwards. -/
structure Shown where
  out : Text
  halt : Option Int64
  bindings : List Binding

def Answer.shown (answer : Answer) : Shown :=
  { out := Effect.outText answer.effects, halt := answer.halt
    bindings := answer.interpreter.userVariables }

/-- What the answers to requests show, one after another. -/
def showings (bound : Nat) (i : Interpreter) : List Request → List Shown
  | [] => []
  | request :: rest =>
    let answer := request.answer bound i
    answer.shown :: showings bound answer.interpreter rest

/-- What stands at the positions that are not removed. -/
def without {α : Type} (removed : Nat → Bool) : List α → List α
  | [] => []
  | item :: rest =>
    let others := without (fun position => removed (position + 1)) rest
    if removed 0 then others else item :: others

/-- Two answers that show the same and leave interpreters alike. -/
def Answer.Alike (answer other : Answer) : Prop :=
  answer.shown = other.shown ∧ answer.interpreter.Alike other.interpreter

theorem Answer.alike_of_parts {answer other : Answer}
    (alike : answer.interpreter.Alike other.interpreter)
    (out : Effect.outText answer.effects = Effect.outText other.effects)
    (halt : answer.halt = other.halt) : answer.Alike other := by
  refine ⟨?_, alike⟩
  simp only [shown, Interpreter.userVariables, out, halt, alike.store]

theorem outText_cacheEvent_cons (i : Interpreter) (source : Text) (effects : List Effect) :
    Effect.outText ((i.cacheEvent source).effect :: effects) = Effect.outText effects := by
  obtain ⟨told, same⟩ := i.exists_record_cacheEvent source
  rw [same]
  rfl

/-- What a command for a tree prints depends on the result of parsing alone. -/
theorem showTree_eq (i : Interpreter) (source : Text) :
    showTree i source =
      { effects := [(i.cacheEvent source).effect,
          match (i.parse source).1 with
          | .ok program => .outLine program.text
          | .error fault => showFault fault]
        interpreter := (i.parse source).2.2 } := by
  rcases parsed : i.parse source with ⟨fault | program, event, after⟩ <;>
    simp only [showTree, Interpreter.cacheEvent, parsed]

end Repl

namespace Interpreter

open Repl

variable {i j : Interpreter} {bound : Nat}

theorem Alike.evaluate (alike : i.Alike j) (bound : Nat) (source : Text) :
    (evaluate bound i source).Alike (evaluate bound j source) := by
  obtain ⟨outcome, events, after⟩ := alike.run bound source
  have out : ∀ last, Effect.outText ((i.run bound source).1.effects ++ last) =
      Effect.outText ((j.run bound source).1.effects ++ last) := by
    intro last
    rw [Run.effects, Run.effects, events_run, events_run j, List.map_cons, List.map_cons,
      List.cons_append, List.cons_append, outText_cacheEvent_cons, outText_cacheEvent_cons, events]
  have outOnly := out []
  rw [List.append_nil, List.append_nil] at outOnly
  simp only [Repl.evaluate, outcome]
  split
  · exact Answer.alike_of_parts after (out _) rfl
  · exact Answer.alike_of_parts after (out _) rfl
  · exact Answer.alike_of_parts after (out _) rfl
  · exact Answer.alike_of_parts after outOnly rfl
  · exact Answer.alike_of_parts after outOnly rfl

theorem Alike.perform (alike : i.Alike j) (command : Command) :
    (command.perform i).Alike (command.perform j) := by
  cases command with
  | help => exact Answer.alike_of_parts alike rfl rfl
  | scope =>
    have same : listing i = listing j := by simp only [listing, userVariables, alike.store]
    exact Answer.alike_of_parts alike (congrArg Effect.outText same) rfl
  | clear => exact Answer.alike_of_parts alike.reset rfl rfl
  | tree source =>
    obtain ⟨result, after⟩ := alike.parse source
    simp only [Command.perform, showTree_eq]
    refine Answer.alike_of_parts after ?_ rfl
    simp only [outText_cacheEvent_cons, result]
  | unknown text => exact Answer.alike_of_parts alike rfl rfl

theorem Alike.answer (alike : i.Alike j) (bound : Nat) (request : Request) :
    (request.answer bound i).Alike (request.answer bound j) := by
  cases request with
  | entry source => exact alike.evaluate bound source
  | command text => exact alike.perform (Command.ofText text)

/-- An inspecting request leaves an interpreter as it was, but for what its parser remembers. -/
theorem Alike.inspected (alike : i.Alike j) (bound : Nat) {request : Request}
    (inspects : request.inspects = true) : (request.answer bound i).interpreter.Alike j := by
  cases request with
  | entry source => cases inspects
  | command text =>
    rw [Request.inspects] at inspects
    rw [Request.answer]
    cases asked : Command.ofText text with
    | clear =>
      rw [asked] at inspects
      cases inspects
    | tree source =>
      rw [Command.perform, showTree_eq]
      exact ⟨alike.store, alike.file, alike.left.parse source, alike.right⟩
    | help | scope | unknown => exact alike

/-- Requests and those of them that are not removed, asked of interpreters alike. -/
theorem Alike.showings_without (alike : i.Alike j) (bound : Nat) {requests : List Request}
    {removed : Nat → Bool}
    (inspecting : ∀ position request, requests[position]? = some request →
      removed position = true → request.inspects = true) :
    showings bound j (without removed requests) = without removed (showings bound i requests) := by
  induction requests generalizing i j removed with
  | nil => rfl
  | cons request rest ih =>
    have later : ∀ position request, rest[position]? = some request →
        removed (position + 1) = true → request.inspects = true := by
      intro position request at_
      exact inspecting (position + 1) request (by simpa using at_)
    simp only [showings, without]
    by_cases gone : removed 0 = true
    · have skipped := alike.inspected bound (inspecting 0 request rfl gone)
      rw [if_pos gone, if_pos gone]
      exact ih skipped later
    · obtain ⟨shown, after⟩ := alike.answer bound request
      rw [if_neg gone, if_neg gone, showings, ← shown, ih after later]

end Interpreter

namespace Repl

/-- Removing any inspecting commands from a session leaves what the other requests show as it is. -/
theorem inspections_unnoticed {i : Interpreter} (reachable : i.Reachable) (bound : Nat)
    {requests : List Request} {removed : Nat → Bool}
    (inspecting : ∀ position request, requests[position]? = some request →
      removed position = true → request.inspects = true) :
    showings bound i (without removed requests) = without removed (showings bound i requests) := by
  have standard := reachable.standard_ready.1
  have self : i.Alike i := ⟨rfl, rfl, standard, standard⟩
  exact self.showings_without bound inspecting

/-- A session in which trees are shown of a text that cannot be parsed and of the entry before. -/
def inspecting : List Request :=
  [.entry (utf8 "let a = 1;"), .command (utf8 ":ast f("), .entry (utf8 "a;"), .command (utf8 ":clear"),
    .command (utf8 ":ast a;"), .entry (utf8 "a;")]

def isInspection (position : Nat) : Bool := position = 1 || position = 4

theorem trees_unnoticed :
    let i := Interpreter.fresh (.still ⟨2024, 3, 9, 14, 5, 7, 0⟩) (utf8 "<repl>")
    i.Reachable ∧
      without isInspection inspecting =
        [.entry (utf8 "let a = 1;"), .entry (utf8 "a;"), .command (utf8 ":clear"),
          .entry (utf8 "a;")] ∧
      showings 9 i (without isInspection inspecting) =
        without isInspection (showings 9 i inspecting) := by
  intro i
  have reachable : i.Reachable := .fresh _ _
  have asked : ∀ position request, inspecting[position]? = some request →
      isInspection position = true → request.inspects = true := by
    intro position request at_ gone
    simp only [isInspection, Bool.or_eq_true, decide_eq_true_eq] at gone
    rcases gone with rfl | rfl <;> cases at_ <;> decide
  exact ⟨reachable, rfl, inspections_unnoticed reachable 9 asked⟩

end Repl

end Scriptlet
