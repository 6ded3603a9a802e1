import Scriptlet.Proofs.Containment
import Scriptlet.Proofs.Histories
import Scriptlet.Proofs.WellFormed
/-!
The rules of evaluation give an answer for every tree, also for trees that no source is parsed to: an
expression that is left out is null, an operator of no meaning makes null of two numbers, and a member
that is named by anything but a name fails. No history of an interpreter comes to any of these. Its
programs are well-formed when they are parsed, and the functions that the store keeps from one run to
the next have well-formed bodies.
-/
namespace Scriptlet

theorem Expr.WellFormed.present {e : Expr} (formed : e ≠ .absent → e.WellFormed) :
    ∀ given ∈ e.present, given.WellFormed := by
  intro given member
  obtain ⟨rfl, present⟩ := eq_of_mem_present member
  exact formed present

theorem Expr.WellFormed.operands {e : Expr} (formed : e.WellFormed) :
    ∀ part ∈ e.operands, part.WellFormed := by
  intro part member
  cases formed with
  | ident | number | string => cases member
  | object _ values =>
    obtain ⟨entry, inside, present⟩ := List.mem_flatMap.mp member
    exact Expr.WellFormed.present (values entry inside) part present
  | assign _ value =>
    obtain rfl := List.mem_singleton.mp member
    exact value
  | comparison _ _ left right | arithmetic _ _ left right =>
    simp only [Expr.operands, List.mem_cons, List.not_mem_nil, or_false] at member
    rcases member with rfl | rfl
    · exact left
    · exact right
  | unary _ operand => exact Expr.WellFormed.present operand part member
  | call callee arguments =>
    rcases List.mem_cons.mp member with rfl | argument
    · exact callee
    · exact arguments part argument
  | computed holder key =>
    simp only [Expr.operands, if_true, List.mem_cons, List.not_mem_nil, or_false] at member
    rcases member with rfl | rfl
    · exact holder
    · exact key
  | named holder _ =>
    obtain rfl := List.mem_singleton.mp member
    exact holder

/-- What parsing gives to evaluate: well-formed statements, and the condition of an `else`. -/
def Stmt.Parsed (statement : Stmt) : Prop :=
  statement.WellFormed ∨ ∃ token, statement = .expr (.boolean token true)

theorem parsed_of_link {link : Guarded Stmt} (conditional : link.Conditional)
    (body : ∀ statement ∈ link.body, statement.WellFormed) :
    ∀ part ∈ Stmt.expr link.condition :: link.body, part.Parsed := by
  intro part member
  rcases List.mem_cons.mp member with rfl | inside
  · exact .inl (.expr conditional.condition)
  · exact .inl (body part inside)

theorem Stmt.WellFormed.parts {statement : Stmt} (formed : statement.WellFormed) :
    ∀ part ∈ statement.parts, part.Parsed := by
  intro part member
  cases formed with
  | expr formed =>
    obtain ⟨e, inside, rfl⟩ := List.mem_map.mp member
    exact .inl (.expr (formed.operands e inside))
  | declare formed =>
    obtain ⟨e, inside, rfl⟩ := List.mem_map.mp member
    exact .inl (.expr (Expr.WellFormed.present formed.value e inside))
  | function _ _ body => exact .inl (body part member)
  | branch conditional bodies =>
    obtain ⟨link, inside, own⟩ := List.mem_flatMap.mp member
    exact parsed_of_link (conditional link inside) (bodies link inside) part own
  | @otherwise first others token last conditional bodies _ body =>
    obtain ⟨link, inside, own⟩ := List.mem_flatMap.mp member
    rw [← List.cons_append] at inside
    rcases List.mem_append.mp inside with guarded | closing
    · exact parsed_of_link (conditional link guarded) (bodies link guarded) part own
    · -- the one part that is no well-formed statement itself
      obtain rfl := List.mem_singleton.mp closing
      rcases List.mem_cons.mp own with rfl | statement
      · exact .inr ⟨token, rfl⟩
      · exact .inl (body part statement)
  | whileLoop test body =>
    rcases List.mem_cons.mp member with rfl | inside
    · exact .inl (.expr test)
    · exact .inl (body part inside)
  | forLoop d test step body =>
    simp only [Stmt.parts, Option.toList_some, List.map_cons, List.map_nil, List.mem_append,
      List.mem_cons, List.not_mem_nil, or_false, List.mem_map] at member
    rcases member with (rfl | rfl | ⟨e, inside, rfl⟩) | inside
    · exact .inl (.declare d)
    · exact .inl (.expr test)
    · exact .inl (.expr (Expr.WellFormed.present step e inside))
    · exact .inl (body part inside)

/-- Runs what parsing gives, in any scope. -/
def Policy.parsed : Policy where
  runs := Stmt.Parsed
  enters := fun _ => True
  declares := fun _ _ => True
  base := 0
  runs_parts := by
    rintro statement (formed | ⟨token, rfl⟩) part member
    · exact formed.parts part member
    · cases member
  enters_own := fun _ _ => trivial
  declares_own := fun _ _ => trivial

namespace Task

/-- The evaluations that take a rule's answer for trees that no source is parsed to. -/
inductive FallsBack : Task → Prop where
  | absent {bound scope store} : FallsBack ⟨bound + 1, .statement (.expr .absent), scope, store⟩
  | arithmetic {bound token operator left right scope store a between b after} :
      (Eval.valueOf (Stmt.eval bound) left scope).Gives store (.number a) between →
        (Eval.valueOf (Stmt.eval bound) right scope).Gives between (.number b) after →
          token.kind ≠ .booleanOperator → Arithmetic.ofText? operator = none →
            FallsBack ⟨bound + 1, .statement (.expr (.binary token operator left right)), scope, store⟩
  | member {bound token holder key scope store properties after} :
      (Eval.valueOf (Stmt.eval bound) holder scope).Gives store (.object properties) after →
        (∀ name, key ≠ .ident name) →
          FallsBack ⟨bound + 1, .statement (.expr (.member token holder key false)), scope, store⟩

/-- What such an evaluation comes to: null, or the failure of a key that is no string. -/
theorem FallsBack.outcome {task : Task} (falls : task.FallsBack) :
    (∃ after, task.outcome = (.ok .null, after)) ∨ ∃ token : Token, ∃ got after, task.outcome =
      (.error (.failed ((Fault.keyNotString.about "Got" got).placedAt token.position)), after) := by
  cases falls with
  | absent => exact .inl ⟨_, rfl⟩
  | @arithmetic bound token operator _ _ _ _ a _ b after first second kind unknown =>
    have answer : Eval.binary token operator (.number a) (.number b) = pure .null := by
      simp [Eval.binary, kind, Arithmetic.onValues, unknown]
    refine .inl ⟨after, (first.bind _).trans ((second.bind _).trans ?_)⟩
    rw [answer]
    rfl
  | @member bound token _ key scope _ _ after holds unnamed =>
    have fails : Eval.memberName (Stmt.eval bound) scope token key false =
        Action.failAt token (Fault.keyNotString.about "Got" key.text) := by
      cases key with
      | ident name => exact absurd rfl (unnamed name)
      | _ => rfl
    refine .inr ⟨token, key.text, after, (holds.bind _).trans ?_⟩
    simp only [fails]
    rfl

theorem not_fallsBack {task : Task} (within : task.Within Policy.parsed) : ¬ task.FallsBack := by
  intro falls
  cases falls with
  | absent =>
    rcases within.runs _ List.mem_cons_self with formed | ⟨token, other⟩
    · cases formed with
      | expr formed => cases formed
    · cases other
  | arithmetic _ _ kind unknown =>
    rcases within.runs _ List.mem_cons_self with formed | ⟨token, other⟩
    · cases formed with
      | expr formed =>
        cases formed with
        | comparison isComparison => exact kind isComparison
        | arithmetic _ spelled =>
          have known := Arithmetic.ofText?_isSome spelled
          rw [unknown] at known
          cases known
    · cases other
  | member _ unnamed =>
    rcases within.runs _ List.mem_cons_self with formed | ⟨token, other⟩
    · cases formed with
      | expr formed =>
        cases formed with
        | named => exact unnamed _ rfl
    · cases other

end Task

namespace Interpreter

/-- The store in which programs start holds no function but the native ones. -/
theorem ready_fresh {policy : Policy} (base : policy.base ≤ 1) (machine : Machine) :
    policy.Ready (freshStore machine) := by
  refine ⟨base, ?_⟩
  intro id b member
  cases id with
  | zero =>
    change b ∈ Frame.predeclared at member
    simp only [Frame.predeclared, List.mem_cons, List.not_mem_nil, or_false] at member
    rcases member with rfl | rfl | rfl | rfl | rfl | rfl | rfl
    · exact .boolean true
    · exact .boolean false
    · exact .null
    all_goals exact .native _
  | succ id => cases member

theorem parsed_ready_fresh (machine : Machine) : Policy.parsed.Ready (freshStore machine) :=
  ready_fresh (Nat.zero_le _) machine

theorem parsed_ready_of_frames {store after : Store} (ready : Policy.parsed.Ready store)
    (same : after.frames = store.frames) : Policy.parsed.Ready after :=
  ⟨Nat.zero_le _, same ▸ ready.admits⟩

theorem within_task {i : Interpreter} (ready : Policy.parsed.Ready i.store) {program : Program}
    (formed : program.WellFormed) (bound : Nat) : (i.task bound program).Within Policy.parsed :=
  ⟨fun statement member => .inl (formed statement member), trivial, fun _ _ => trivial, ready⟩

theorem parsed_ready_run {i : Interpreter} (standard : i.Standard)
    (ready : Policy.parsed.Ready i.store) (bound : Nat) (source : Text) :
    Policy.parsed.Ready (i.run bound source).2.store := by
  rcases i.frames_run bound source with same | ⟨program, parsed, same⟩
  · exact parsed_ready_of_frames ready same
  · have formed := wellFormed_of_parseFresh (standard.parseFresh parsed)
    have within := within_task ready formed bound
    -- the evaluation is within the policy, so it leaves a store that is ready for the next
    have changes := (Policy.keeps_eval within.enters within.runs within.declares bound i.store ready).1
    exact parsed_ready_of_frames (changes.ready ready) same

/-- The functions that an interpreter keeps have bodies that were parsed. -/
theorem Reachable.standard_ready {i : Interpreter} (reachable : i.Reachable) :
    i.Standard ∧ Policy.parsed.Ready i.store := by
  refine reachable.holds (fun i => i.Standard ∧ Policy.parsed.Ready i.store) ?_ ?_ ?_ ?_ ?_
  · intro machine file
    exact ⟨standard_fresh machine file, parsed_ready_fresh machine⟩
  · rintro i file ⟨standard, ready⟩
    exact ⟨⟨standard.keywords, standard.faithful⟩, ready⟩
  · rintro i bound source ⟨standard, ready⟩
    exact ⟨standard.run bound source, parsed_ready_run standard ready bound source⟩
  · rintro i source ⟨standard, ready⟩
    exact ⟨standard.parse source, ready⟩
  · rintro i ⟨standard, _⟩
    exact ⟨⟨standard.keywords, standard.faithful⟩, parsed_ready_fresh _⟩

end Interpreter

/-- Every source that can be parsed is parsed to a well-formed program. On an interpreter with any
history, the program of the next source is well-formed too, and nothing that is evaluated on its
behalf, at whatever depth and in functions of whatever earlier run, comes to a rule's answer for
trees that no source is parsed to. -/
theorem parsed_never_fallsBack :
    (∀ source program, Parser.parseFresh Keywords.default source = .ok program →
        program.WellFormed) ∧
      ∀ i : Interpreter, i.Reachable → ∀ source program, (i.parse source).1 = .ok program →
        program.WellFormed ∧ ∀ bound task,
          Relation.ReflTransGen Task.Performs (i.task bound program) task → ¬ task.FallsBack := by
  constructor
  · intro source program parsed
    exact wellFormed_of_parseFresh parsed
  · intro i reachable source program parsed
    obtain ⟨standard, ready⟩ := reachable.standard_ready
    have formed := wellFormed_of_parseFresh (standard.parseFresh parsed)
    refine ⟨formed, ?_⟩
    intro bound task performed
    have within := Interpreter.within_task ready formed bound
    exact Task.not_fallsBack (Task.within_of_reflTransGen within performed)

/-- An interpreter that has run `func f(o) { o.a; }`. -/
def keeper : Interpreter :=
  ((Interpreter.fresh (.still ⟨2024, 3, 9, 14, 5, 7, 0⟩) []).run 9 (utf8 "func f(o) \x7b o.a; \x7d")).2

-- The member is read in the second run, by the function of the first.
theorem keeper_never_fallsBack :
    (∃ program, Parser.parseFresh Keywords.default (utf8 "func f(o) \x7b o.a; \x7d") = .ok program ∧
        program.WellFormed) ∧
      keeper.Reachable ∧
      ∃ program, (keeper.parse (utf8 "f(\x7b a: 1.5 + 2 \x7d);")).1 = .ok program ∧
        program.WellFormed ∧ ∀ bound task,
          Relation.ReflTransGen Task.Performs (keeper.task bound program) task → ¬ task.FallsBack := by
  have reachable : keeper.Reachable := .run _ _ (.fresh _ _)
  have accepts {α : Type} {result : Except Diagnostic α} (ok : result.isOk = true) :
      ∃ value, result = .ok value := by
    rcases result with fault | value
    · cases ok
    · exact ⟨value, rfl⟩
  obtain ⟨first, parsedFirst⟩ := accepts
    (show (Parser.parseFresh Keywords.default (utf8 "func f(o) \x7b o.a; \x7d")).isOk = true by
      decide +kernel)
  obtain ⟨second, parsedSecond⟩ :=
    accepts (show (keeper.parse (utf8 "f(\x7b a: 1.5 + 2 \x7d);")).1.isOk = true by decide +kernel)
  exact ⟨⟨first, parsedFirst, parsed_never_fallsBack.1 _ _ parsedFirst⟩, reachable,
    second, parsedSecond, parsed_never_fallsBack.2 keeper reachable _ _ parsedSecond⟩

end Scriptlet
