import Scriptlet.Proofs.Tasks
/-!
The bound of an evaluation plays no part in its result: what ends under a bound ends under every
larger one, with the same value or stop and the same store.
-/
namespace Scriptlet

open Scriptlet.Action

namespace Eval

theorem rounds_of_le {round : Action Bool} {bound more : Nat} (le : bound ≤ more) {store : Store}
    (ends : (rounds round bound).Ends store) :
    (rounds round more).outcome store = (rounds round bound).outcome store := by
  induction bound generalizing more store with
  | zero => exact absurd rfl (ends store)
  | succ bound ih =>
    obtain ⟨more, rfl⟩ := Nat.exists_eq_add_one_of_ne_zero (Nat.ne_of_gt (Nat.zero_lt_of_lt le))
    apply outcome_bind_congr rfl
    intro again after gives
    have rest := ends.second gives
    cases again with
    | true => exact ih (Nat.le_of_succ_le_succ le) rest
    | false => rfl

-- Only loops look at the bound.
theorem rule_of_le {eval : Evaluation} {bound more : Nat} (le : bound ≤ more) {statement : Stmt}
    {scope : Scope} {store : Store} (ends : (rule eval bound statement scope).Ends store) :
    (rule eval more statement scope).outcome store =
      (rule eval bound statement scope).outcome store := by
  cases statement with
  | whileLoop token test statements =>
    apply outcome_bind_congr rfl
    intro inside opened enters
    have rest := ends.second enters
    exact outcome_bind_congr (rounds_of_le le rest.first) fun _ _ _ => rfl
  | forLoop token start test step statements =>
    apply outcome_bind_congr rfl
    intro inside opened enters
    apply outcome_bind_congr rfl
    intro value started starts
    have rest := (ends.second enters).second starts
    exact outcome_bind_congr (rounds_of_le le rest.first) fun _ _ _ => rfl
  | _ => rfl

end Eval

theorem Stmt.eval_of_le {bound more : Nat} (le : bound ≤ more) {statement : Stmt} {scope : Scope}
    {store : Store} (ends : (statement.eval bound scope).Ends store) :
    (statement.eval more scope).outcome store = (statement.eval bound scope).outcome store := by
  induction bound generalizing more statement scope store with
  | zero => exact absurd rfl (ends store)
  | succ bound ih =>
    obtain ⟨more, rfl⟩ := Nat.exists_eq_add_one_of_ne_zero (Nat.ne_of_gt (Nat.zero_lt_of_lt le))
    have le := Nat.le_of_succ_le_succ le
    -- What the rule asks for ends too, so the larger bound answers alike.
    have same : (Eval.rule (Stmt.eval more) bound statement scope).outcome store =
        (Eval.rule (Stmt.eval bound) bound statement scope).outcome store := by
      apply Eval.rule_congr
      intro request performed
      apply ih le
      intro after stops
      exact ends after (Eval.rule_stops performed stops)
    have stillEnds : (Eval.rule (Stmt.eval more) bound statement scope).Ends store := by
      intro after stops
      exact ends after (same.symm.trans stops)
    exact (Eval.rule_of_le le stillEnds).trans same

theorem Node.eval_of_le {bound more : Nat} (le : bound ≤ more) {node : Node} {scope : Scope}
    {store : Store} (ends : (node.eval bound scope).Ends store) :
    (node.eval more scope).outcome store = (node.eval bound scope).outcome store := by
  cases node with
  | statement single => exact Stmt.eval_of_le le ends
  | program statements =>
    apply Eval.sequence_congr
    intro request performed
    apply Stmt.eval_of_le le
    intro after stops
    exact ends after (Eval.sequence_stops performed stops _)

/-- A node has one outcome, whatever bounds it is evaluated with. -/
theorem Node.outcome_unique {node : Node} {scope : Scope} {store : Store} {bound other : Nat}
    (ends : (node.eval bound scope).Ends store) (alsoEnds : (node.eval other scope).Ends store) :
    (node.eval bound scope).outcome store = (node.eval other scope).outcome store := by
  rcases Nat.le_total bound other with le | le
  · exact (Node.eval_of_le le ends).symm
  · exact Node.eval_of_le le alsoEnds

end Scriptlet
