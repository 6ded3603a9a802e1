import Scriptlet.Proofs.Effects
import Scriptlet.Proofs.Tasks
/-!
Evaluations within a policy perform only evaluations within it. What a rule asks for is a part of its
statement, or a statement of a function that the store held; the store was ready for the policy when
the rule started, and every action before the request kept it so by changing it only as the policy
allows.
-/
namespace Scriptlet

open Scriptlet.Action Eval

namespace Policy

variable {policy : Policy} {eval : Evaluation} {scope : Scope} {store : Store} {request : Request}

/-- What is asked for is within the policy, and the store has changed up to then as the policy
allows. -/
structure Permits (policy : Policy) (start : Store) (request : Request) : Prop where
  runs : policy.runs request.statement
  enters : policy.enters request.scope
  declares : ∀ name ∈ request.statement.declared, policy.declares request.scope.innermost name
  changes : policy.Changes start request.store

theorem Permits.after {start between : Store} (permits : policy.Permits between request)
    (changes : policy.Changes start between) : policy.Permits start request :=
  { permits with changes := changes.trans permits.changes }

theorem permits_expr {e : Expr} (runs : policy.runs (.expr e)) (enters : policy.enters scope) :
    policy.Permits store ⟨.expr e, scope, store⟩ := by
  refine ⟨runs, enters, ?_, .refl⟩
  intro name member
  cases member

theorem permits_sequence (respects : policy.Respects eval) (enters : policy.enters scope)
    {statements : List Stmt} (runs : ∀ statement ∈ statements, policy.runs statement)
    (declares : ∀ statement ∈ statements, ∀ name ∈ statement.declared,
      policy.declares scope.innermost name) (ready : policy.Ready store)
    (performed : InSequence eval scope statements store request) : policy.Permits store request := by
  induction performed with
  | head =>
    exact ⟨runs _ List.mem_cons_self, enters, declares _ List.mem_cons_self, .refl⟩
  | tail gives _ ih =>
    have head := respects _ _ (runs _ List.mem_cons_self) enters (declares _ List.mem_cons_self)
    have changes := head.changes ready gives
    exact (ih (fun other member => runs other (List.mem_cons_of_mem _ member))
      (fun other member => declares other (List.mem_cons_of_mem _ member))
      (changes.ready ready)).after changes

theorem permits_body (respects : policy.Respects eval) (inside : policy.Open scope)
    {statements : List Stmt} (runs : ∀ statement ∈ statements, policy.runs statement)
    (ready : policy.Ready store) (performed : InSequence eval scope statements store request) :
    policy.Permits store request :=
  permits_sequence respects inside.enters runs (fun _ _ name _ => inside.declares name) ready
    performed

theorem permits_properties (respects : policy.Respects eval) (enters : policy.enters scope)
    {known : List (Text × Value)} {entries : List (Ident × Expr)}
    (runs : ∀ entry ∈ entries, ∀ given ∈ entry.2.present, policy.runs (.expr given))
    (ready : policy.Ready store) (performed : InProperties eval scope known entries store request) :
    policy.Permits store request := by
  induction performed with
  | value present =>
    have own := runs _ List.mem_cons_self _ (Expr.mem_present present)
    exact permits_expr own enters
  | later gives _ _ ih =>
    have own := runs _ List.mem_cons_self
    have changes := (keeps_propertyValue respects enters own).changes ready gives
    exact (ih (fun other member => runs other (List.mem_cons_of_mem _ member))
      (changes.ready ready)).after changes

theorem permits_links (respects : policy.Respects eval) (inside : policy.Open scope)
    {chain : List (Guarded Stmt)}
    (runs : ∀ link ∈ chain, ∀ part ∈ Stmt.expr link.condition :: link.body, policy.runs part)
    (ready : policy.Ready store) (performed : InLinks eval scope chain store request) :
    policy.Permits store request := by
  induction performed with
  | condition => exact permits_expr (runs _ List.mem_cons_self _ List.mem_cons_self) inside.enters
  | body holds within =>
    have own := runs _ List.mem_cons_self
    have changes :=
      (keeps_condition respects inside.enters (own _ List.mem_cons_self) _).changes ready holds
    exact (permits_body respects inside (fun part member => own part (List.mem_cons_of_mem _ member))
      (changes.ready ready) within).after changes
  | later fails _ ih =>
    have own := runs _ List.mem_cons_self
    have changes :=
      (keeps_condition respects inside.enters (own _ List.mem_cons_self) _).changes ready fails
    exact (ih (fun other member => runs other (List.mem_cons_of_mem _ member))
      (changes.ready ready)).after changes

theorem permits_rounds (respects : policy.Respects eval) (inside : policy.Open scope)
    {token : Token} {test step : Expr} {statements : List Stmt} (tests : policy.runs (.expr test))
    (steps : ∀ given ∈ step.present, policy.runs (.expr given))
    (runs : ∀ statement ∈ statements, policy.runs statement) {bound : Nat}
    (ready : policy.Ready store)
    (performed : InRounds eval scope token test step statements bound store request) :
    policy.Permits store request := by
  have held := keeps_condition respects inside.enters tests token
  induction performed with
  | condition => exact permits_expr tests inside.enters
  | body holds within =>
    have changes := held.changes ready holds
    exact (permits_body respects inside runs (changes.ready ready) within).after changes
  | step holds ran present =>
    have between := held.changes ready holds
    have after := (keeps_body respects inside runs).changes (between.ready ready) ran
    exact (permits_expr (steps _ (Expr.mem_present present)) inside.enters).after
      (between.trans after)
  | again gives _ ih =>
    have changes := (keeps_round respects inside tests steps runs).changes ready gives
    exact (ih (changes.ready ready)).after changes

/-- Whatever the rule for a statement within the policy asks for is within it. -/
theorem permits_of_performs (respects : policy.Respects eval) {bound : Nat} {statement : Stmt}
    (runs : policy.runs statement) (enters : policy.enters scope) (ready : policy.Ready store)
    (performed : Performs eval bound statement scope store request) :
    policy.Permits store request := by
  have parts := policy.runs_parts runs
  cases performed with
  | initializer present =>
    exact permits_expr (parts _ (List.mem_map_of_mem (Expr.mem_present present))) enters
  | link encloses within =>
    obtain ⟨inside, opened⟩ := (keeps_enclosed enters).gives ready encloses
    exact (permits_links respects inside
      (fun link member part inLink => parts part (List.mem_flatMap.mpr ⟨link, member, inLink⟩))
      opened within).after ((keeps_enclosed enters).changes ready encloses)
  | whileRound encloses within =>
    obtain ⟨inside, opened⟩ := (keeps_enclosed enters).gives ready encloses
    exact (permits_rounds respects inside (parts _ List.mem_cons_self) (by simp [Expr.present])
      (fun part member => parts part (List.mem_cons_of_mem _ member)) opened within).after
        ((keeps_enclosed enters).changes ready encloses)
  | forStart encloses =>
    obtain ⟨inside, opened⟩ := (keeps_enclosed enters).gives ready encloses
    exact ⟨parts _ (by simp [Stmt.parts]), inside.enters, fun name _ => inside.declares name,
      (keeps_enclosed enters).changes ready encloses⟩
  | forRound encloses starts within =>
    simp only [Stmt.parts, List.mem_append, List.mem_cons, List.mem_map] at parts
    obtain ⟨inside, opened⟩ := (keeps_enclosed enters).gives ready encloses
    have started := (keeps_opening respects inside
      fun d given => parts _ (by simp [given])).changes opened starts
    exact (permits_rounds respects inside (parts _ (by simp))
      (fun given present => parts _ (by simp [present]))
      (fun part member => parts part (by simp [member])) (started.ready opened) within).after
        (((keeps_enclosed enters).changes ready encloses).trans started)
  | property within =>
    refine permits_properties respects enters ?_ ready within
    intro entry member given present
    exact parts _ (List.mem_map_of_mem (List.mem_flatMap.mpr ⟨entry, member, present⟩))
  | assigned => exact permits_expr (parts _ List.mem_cons_self) enters
  | left => exact permits_expr (parts _ List.mem_cons_self) enters
  | right gives =>
    have changes := (respects.valueOf enters (parts _ List.mem_cons_self)).changes ready gives
    exact (permits_expr (parts _ (by simp [Stmt.parts, Expr.operands])) enters).after changes
  | operand present =>
    exact permits_expr (parts _ (List.mem_map_of_mem (Expr.mem_present present))) enters
  | callee => exact permits_expr (parts _ List.mem_cons_self) enters
  | argument gives within =>
    have changes := (respects.valueOf enters (parts _ List.mem_cons_self)).changes ready gives
    refine (permits_sequence respects enters ?_ ?_ (changes.ready ready) within).after changes
    · intro part member
      exact parts part (List.mem_cons_of_mem _ member)
    · intro part member name declared
      obtain ⟨e, -, rfl⟩ := List.mem_map.mp member
      cases declared
  | called calls passes encloses binds within =>
    have reaches := respects.valueOf enters (parts _ List.mem_cons_self)
    obtain ⟨callable, reached⟩ := reaches.gives ready calls
    have arguments_ := keeps_values respects enters
      fun e member => parts _ (List.mem_cons_of_mem _ (List.mem_map_of_mem member))
    obtain ⟨admitted, passed⟩ := arguments_.gives reached passes
    -- the body comes from the store, so it is the value that answers for it
    cases callable with
    | function runs closure =>
      obtain ⟨inside, opened⟩ := (keeps_enclosed closure).gives passed encloses
      have entered := (keeps_bindParameters inside admitted).changes opened binds
      have changes := (reaches.changes ready calls).trans
        ((arguments_.changes reached passes).trans
          (((keeps_enclosed closure).changes passed encloses).trans entered))
      exact (permits_body respects inside runs (entered.ready opened) within).after changes
  | @object _ holder _ computed =>
    have part : policy.runs (.expr holder) :=
      parts _ (by cases computed <;> simp [Stmt.parts, Expr.operands])
    exact permits_expr part enters
  | key gives =>
    have changes := (respects.valueOf enters (parts _ List.mem_cons_self)).changes ready gives
    exact (permits_expr (parts _ (by simp [Stmt.parts, Expr.operands])) enters).after changes

end Policy

namespace Task

variable {policy : Policy}

structure Within (policy : Policy) (task : Task) : Prop where
  runs : ∀ statement ∈ task.node.statements, policy.runs statement
  enters : policy.enters task.scope
  declares : ∀ name ∈ task.node.declared, policy.declares task.scope.innermost name
  ready : policy.Ready task.store

theorem within_ofRequest {start : Store} {request : Request} (ready : policy.Ready start)
    (permits : policy.Permits start request) (bound : Nat) :
    (ofRequest bound request).Within policy := by
  refine ⟨?_, permits.enters, ?_, permits.changes.ready ready⟩
  · intro statement member
    obtain rfl := List.mem_singleton.mp member
    exact permits.runs
  · intro name member
    simp only [ofRequest, Node.declared, Node.statements, List.flatMap_cons, List.flatMap_nil,
      List.append_nil] at member
    exact permits.declares name member

theorem within_of_performs {whole part : Task} (within : whole.Within policy)
    (performed : whole.Performs part) :
    part.Within policy ∧ policy.Changes whole.store part.store := by
  cases performed with
  | @program _ statements scope store request inside =>
    have permits : policy.Permits store request := by
      refine Policy.permits_sequence (Policy.respects_eval _) within.enters within.runs ?_
        within.ready inside
      intro statement member name declared
      exact within.declares name (List.mem_flatMap.mpr ⟨statement, member, declared⟩)
    exact ⟨within_ofRequest within.ready permits _, permits.changes⟩
  | statement inside =>
    have permits := Policy.permits_of_performs (Policy.respects_eval _)
      (within.runs _ List.mem_cons_self) within.enters within.ready inside
    exact ⟨within_ofRequest within.ready permits _, permits.changes⟩

/-- All that is performed on behalf of a task within a policy is within it. -/
theorem within_of_reflTransGen {whole part : Task} (within : whole.Within policy)
    (performed : Relation.ReflTransGen Performs whole part) : part.Within policy := by
  induction performed with
  | refl => exact within
  | tail _ step ih => exact (within_of_performs ih step).1

/-- By the time that a part is performed, the store has changed as the policy allows. -/
theorem changes_of_reflTransGen {whole part : Task} (within : whole.Within policy)
    (performed : Relation.ReflTransGen Performs whole part) :
    policy.Changes whole.store part.store := by
  induction performed with
  | refl => exact .refl
  | tail path step ih =>
    exact ih.trans (within_of_performs (within_of_reflTransGen within path) step).2

end Task

end Scriptlet
