import Scriptlet.Proofs.Subevaluation
/-!
Tasks. A task is one evaluation: a node, its scope, its store and its bound. When a task that another
performs stops, at whatever depth, the other stops in the same way and with the same store; and each
stop has a task where it came up, all parts of which gave values.
-/
namespace Scriptlet

open Scriptlet.Action

/-- One evaluation. -/
structure Task where
  bound : Nat
  node : Node
  scope : Scope
  store : Store

namespace Task

/-- How a task ends, and the store it leaves. -/
def outcome (task : Task) : Except Stop Value × Store :=
  (task.node.eval task.bound task.scope).outcome task.store

def ofRequest (bound : Nat) (request : Eval.Request) : Task :=
  ⟨bound, .statement request.statement, request.scope, request.store⟩

/-- The tasks that a task performs itself: the statements of a program, and what the rule for a
statement asks for. -/
inductive Performs : Task → Task → Prop where
  | program {bound program scope store request} :
      Eval.InSequence (Stmt.eval bound) scope program store request →
        Performs ⟨bound, .program program, scope, store⟩ (ofRequest bound request)
  | statement {bound statement scope store request} :
      Eval.Performs (Stmt.eval bound) bound statement scope store request →
        Performs ⟨bound + 1, .statement statement, scope, store⟩ (ofRequest bound request)

/-- The tasks that are performed on behalf of a task, at any depth. -/
abbrev PerformsWithin : Task → Task → Prop := Relation.TransGen Performs

theorem outcome_of_performs {whole part : Task} (performed : whole.Performs part) {stop : Stop}
    {after : Store} (stops : part.outcome = (.error stop, after)) :
    whole.outcome = (.error stop, after) := by
  cases performed with
  | program inside => exact Eval.sequence_stops inside stops _
  | statement inside => exact Eval.rule_stops inside stops

theorem outcome_of_performsWithin {whole part : Task} (performed : whole.PerformsWithin part)
    {stop : Stop} {after : Store} (stops : part.outcome = (.error stop, after)) :
    whole.outcome = (.error stop, after) := by
  induction performed with
  | single step => exact outcome_of_performs step stops
  | tail _ step ih => exact ih (outcome_of_performs step stops)

theorem outcome_eq_of_performs {whole part : Task} (performed : whole.Performs part)
    (fails : ∀ value after, part.outcome ≠ (.ok value, after)) : whole.outcome = part.outcome := by
  rcases ended : part.outcome with ⟨result, after⟩
  cases result with
  | ok value => exact absurd ended (fails value after)
  | error stop => exact outcome_of_performs performed ended

/-- The task where a stop comes up: all it performs gives values. -/
structure Raises (task : Task) (stop : Stop) (after : Store) : Prop where
  stops : task.outcome = (.error stop, after)
  parts : ∀ part, task.Performs part → ∃ value left, part.outcome = (.ok value, left)

theorem raises_of_parts {task : Task} {stop : Stop} {after : Store}
    (stops : task.outcome = (.error stop, after))
    (parts : ∀ part, task.Performs part → part.outcome = (.error stop, after) →
      ∃ origin, Relation.ReflTransGen Performs part origin ∧ origin.Raises stop after) :
    ∃ origin, Relation.ReflTransGen Performs task origin ∧ origin.Raises stop after := by
  by_cases all : ∀ part, task.Performs part → ∃ value left, part.outcome = (.ok value, left)
  · exact ⟨task, .refl, stops, all⟩
  · simp only [Classical.not_forall, not_exists] at all
    obtain ⟨part, performed, fails⟩ := all
    have same := (outcome_eq_of_performs performed fails).symm.trans stops
    obtain ⟨origin, path, raised⟩ := parts part performed same
    exact ⟨origin, .head performed path, raised⟩

theorem exists_raises_of_statement {bound : Nat} {statement : Stmt} {scope : Scope} {store : Store}
    {stop : Stop} {after : Store}
    (stops : (Task.mk bound (.statement statement) scope store).outcome = (.error stop, after)) :
    ∃ origin, Relation.ReflTransGen Performs ⟨bound, .statement statement, scope, store⟩ origin ∧
      origin.Raises stop after := by
  induction bound generalizing statement scope store with
  | zero =>
    apply raises_of_parts stops
    intro part performed
    cases performed
  | succ bound ih =>
    apply raises_of_parts stops
    intro part performed same
    cases performed with
    | statement _ => exact ih same

theorem exists_raises {task : Task} {stop : Stop} {after : Store}
    (stops : task.outcome = (.error stop, after)) :
    ∃ origin, Relation.ReflTransGen Performs task origin ∧ origin.Raises stop after := by
  rcases task with ⟨bound, node, scope, store⟩
  cases node with
  | statement statement => exact exists_raises_of_statement stops
  | program program =>
    apply raises_of_parts stops
    intro part performed same
    cases performed with
    | program _ => exact exists_raises_of_statement same

theorem gives_of_performsWithin {whole part : Task} (performed : whole.PerformsWithin part)
    {value : Value} {after : Store} (gives : whole.outcome = (.ok value, after)) :
    ∃ given left, part.outcome = (.ok given, left) := by
  rcases ended : part.outcome with ⟨result, left⟩
  cases result with
  | ok given => exact ⟨given, left, rfl⟩
  | error stop =>
    have stops := outcome_of_performsWithin performed ended
    rw [gives] at stops
    cases stops

/-- How a task ends when its parts are left to another evaluation. -/
def outcomeWith (other : Eval.Evaluation) : Task → Except Stop Value × Store
  | ⟨_, .program statements, scope, store⟩ => (Eval.body other scope statements).outcome store
  | ⟨bound + 1, .statement single, scope, store⟩ =>
    (Eval.rule other bound single scope).outcome store
  | ⟨0, .statement _, _, store⟩ => (.error .exhausted, store)

theorem outcomeWith_eq {whole : Task} {other : Eval.Evaluation}
    (agree : ∀ bound statement scope store,
      whole.Performs ⟨bound, .statement statement, scope, store⟩ →
        (other statement scope).outcome store = (statement.eval bound scope).outcome store) :
    whole.outcomeWith other = whole.outcome := by
  rcases whole with ⟨bound, node, scope, store⟩
  cases node with
  | program statements =>
    apply Eval.sequence_congr
    intro request performed
    exact agree _ _ _ _ (.program performed)
  | statement single =>
    cases bound with
    | zero => rfl
    | succ bound =>
      apply Eval.rule_congr
      intro request performed
      exact agree _ _ _ _ (.statement performed)

end Task

end Scriptlet
