import Scriptlet.Proofs.Persistence
/-!
Rounds of a loop. All rounds share one scope, which nothing leaves again. So a body that declares
something comes to its end once at most: what it declared then is still bound when the declaration is
reached a second time, and makes it fail.
-/
namespace Scriptlet

open Scriptlet.Action

/-- A loop: how it starts, its condition, its step, and the body. -/
structure Loop where
  token : Token
  start : Option Declaration
  test : Expr
  step : Expr
  body : List Stmt

namespace Stmt

/-- The loop that a statement is. A `while` loop has neither a start nor a step. -/
def loop? : Stmt → Option Loop
  | .whileLoop token test body => some ⟨token, none, test, .absent, body⟩
  | .forLoop token start test step body => some ⟨token, start, test, step, body⟩
  | _ => none

/-- The name that a statement declares, and the expression for its first value. -/
def introduces? : Stmt → Option (Ident × Expr)
  | .declare d => some (d.name, d.value)
  | .function _ name _ _ => some (name, .absent)
  | _ => none

end Stmt

namespace Loop

variable (loop : Loop) (bound : Nat) (scope : Scope) (store : Store)

/-- The scope of all rounds, when the loop is evaluated in `scope`. -/
def inside : Scope := scope.enclose store.frames.size

def holds : Action Bool :=
  Eval.condition (Stmt.eval bound) (inside scope store) loop.token loop.test

def round : Action Bool :=
  Eval.round (Stmt.eval bound) (inside scope store) loop.token loop.test loop.step loop.body

/-- The store in which the condition comes to be evaluated when so many rounds are over. -/
inductive Stands : Nat → Store → Prop where
  | first {value started} :
      (Eval.opening (Stmt.eval bound) (inside scope store) loop.start).Gives
        { store with frames := store.frames.grow } value started → Stands 0 started
  | again {n before after} :
      Stands n before → (loop.round bound scope store).Gives before true after → Stands (n + 1) after

/-- The body comes to its end in the round that follows so many others. -/
def Completes (n : Nat) (after : Store) : Prop :=
  ∃ before held value, loop.Stands bound scope store n before ∧
    (loop.holds bound scope store).Gives before true held ∧
      (Eval.body (Stmt.eval bound) (inside scope store) loop.body).Gives held value after

variable {loop bound scope store} {before held last after : Store} {n : Nat} {name : Text}
  {statement : Stmt}

/-! Whatever gives a value leaves a series of changes behind it. -/

theorem changes_of_holds {result : Bool}
    (gives : (loop.holds bound scope store).Gives before result after) :
    Policy.unrestricted.Changes before after :=
  (Policy.keeps_condition (Policy.respects_eval bound) trivial trivial _).changes
    (Policy.unrestricted_ready before) gives

theorem changes_of_sequence {inner : Scope} {first value : Value} {statements : List Stmt}
    (gives : (Eval.sequence (Stmt.eval bound) inner first statements).Gives before value after) :
    Policy.unrestricted.Changes before after :=
  (Policy.keeps_sequence (Policy.respects_eval bound) trivial (fun _ _ => trivial)
    (fun _ _ _ _ => trivial)
    (Policy.admits_all (fun _ => trivial) (fun _ => trivial) (fun _ => trivial) first)).changes
      (Policy.unrestricted_ready before) gives

theorem changes_of_optionalValue {inner : Scope} {value : Value} {e : Expr}
    (gives : (Eval.optionalValue (Stmt.eval bound) inner e).Gives before value after) :
    Policy.unrestricted.Changes before after :=
  (Policy.keeps_optionalValue (Policy.respects_eval bound) trivial fun _ _ => trivial).changes
    (Policy.unrestricted_ready before) gives

theorem changes_of_opening {inner : Scope} {value : Value} {start : Option Declaration}
    (gives : (Eval.opening (Stmt.eval bound) inner start).Gives before value after) :
    Policy.unrestricted.Changes before after :=
  (Policy.keeps_opening (Policy.respects_eval bound) ⟨trivial, fun _ => trivial⟩
    fun _ _ => trivial).changes (Policy.unrestricted_ready before) gives

theorem gives_round_true_iff :
    (loop.round bound scope store).Gives before true after ↔
      ∃ held ended value result, (loop.holds bound scope store).Gives before true held ∧
        (Eval.body (Stmt.eval bound) (inside scope store) loop.body).Gives held value ended ∧
          (Eval.optionalValue (Stmt.eval bound) (inside scope store) loop.step).Gives
            ended result after := by
  rw [round, Eval.round, gives_bind_iff]
  constructor
  · rintro ⟨again, held, holds, rest⟩
    cases again with
    | false => cases rest
    | true =>
      obtain ⟨value, ended, ran, rest⟩ := gives_bind_iff.mp rest
      obtain ⟨result, last, stepped, rest⟩ := gives_bind_iff.mp rest
      cases rest
      exact ⟨held, ended, value, result, holds, ran, stepped⟩
  · rintro ⟨held, ended, value, result, holds, ran, stepped⟩
    refine ⟨true, held, holds, gives_bind_iff.mpr ⟨value, ended, ran, ?_⟩⟩
    exact gives_bind_iff.mpr ⟨result, after, stepped, rfl⟩

theorem gives_round_false_iff :
    (loop.round bound scope store).Gives before false after ↔
      (loop.holds bound scope store).Gives before false after := by
  rw [round, Eval.round, gives_bind_iff]
  constructor
  · rintro ⟨again, held, holds, rest⟩
    cases again with
    | false =>
      cases rest
      exact holds
    | true =>
      obtain ⟨_, _, _, rest⟩ := gives_bind_iff.mp rest
      obtain ⟨_, _, _, rest⟩ := gives_bind_iff.mp rest
      cases rest
  · intro holds
    exact ⟨false, after, holds, rfl⟩

theorem changes_of_round (gives : (loop.round bound scope store).Gives before true after) :
    Policy.unrestricted.Changes before after := by
  obtain ⟨held, ended, value, result, holds, ran, stepped⟩ := gives_round_true_iff.mp gives
  exact (changes_of_holds holds).trans
    ((changes_of_sequence ran).trans (changes_of_optionalValue stepped))

theorem Stands.changes (stands : loop.Stands bound scope store n last) :
    Policy.unrestricted.Changes { store with frames := store.frames.grow } last := by
  induction stands with
  | first opened => exact changes_of_opening opened
  | again _ went ih => exact ih.trans (changes_of_round went)

theorem Stands.there (stands : loop.Stands bound scope store n last) :
    (inside scope store).innermost < last.frames.size := by
  have size := stands.changes.size_le
  rw [show ({ store with frames := store.frames.grow } : Store).frames.size =
    store.frames.size + 1 from Array.size_push _] at size
  exact size

/-- What statements declare is free when they start and bound when they have come to their end. -/
theorem binds_of_sequence {inner : Scope} {statements : List Stmt} {first value : Value}
    (there : inner.innermost < before.frames.size) {part : Stmt} (member : part ∈ statements)
    (declared : name ∈ part.declared)
    (gives : (Eval.sequence (Stmt.eval bound) inner first statements).Gives before value after) :
    (before.frames.frame inner.innermost).binds name = false ∧
      (after.frames.frame inner.innermost).binds name = true := by
  induction statements generalizing before first with
  | nil => cases member
  | cons head rest ih =>
    obtain ⟨result, between, ran, others⟩ := gives_bind_iff.mp gives
    have step : Policy.unrestricted.Changes before between :=
      (Policy.respects_eval bound head inner trivial trivial fun _ _ => trivial).changes
        (Policy.unrestricted_ready before) ran
    rcases List.mem_cons.mp member with rfl | later
    · obtain ⟨free, found⟩ := Stmt.find_of_declared there ran declared
      have bound_ : (between.frames.frame inner.innermost).binds name = true := by
        rw [Frame.binds, found]
        rfl
      refine ⟨?_, (changes_of_sequence others).persist.binds bound_⟩
      rw [Frame.binds, free]
      rfl
    · -- had the name been bound at first, it would still be when it is declared
      obtain ⟨free, bound_⟩ := ih (Nat.lt_of_lt_of_le there step.size_le) later others
      refine ⟨Bool.eq_false_iff.mpr fun earlier => ?_, bound_⟩
      rw [step.persist.binds earlier] at free
      cases free

theorem Completes.binds (completes : loop.Completes bound scope store n after) {part : Stmt}
    (member : part ∈ loop.body) (declared : name ∈ part.declared) :
    (∃ before, loop.Stands bound scope store n before ∧
        (before.frames.frame (inside scope store).innermost).binds name = false) ∧
      (after.frames.frame (inside scope store).innermost).binds name = true := by
  obtain ⟨before, held, value, stands, holds, ran⟩ := completes
  have changes := changes_of_holds holds
  have there := Nat.lt_of_lt_of_le stands.there changes.size_le
  obtain ⟨free, bound_⟩ := binds_of_sequence there member declared ran
  refine ⟨⟨before, stands, Bool.eq_false_iff.mpr fun earlier => ?_⟩, bound_⟩
  rw [changes.persist.binds earlier] at free
  cases free

theorem Stands.completes (stands : loop.Stands bound scope store (n + 1) last) :
    ∃ ended, loop.Completes bound scope store n ended ∧ Policy.unrestricted.Changes ended last := by
  cases stands with
  | again earlier went =>
    obtain ⟨held, ended, value, result, holds, ran, stepped⟩ := gives_round_true_iff.mp went
    exact ⟨ended, ⟨_, held, value, earlier, holds, ran⟩, changes_of_optionalValue stepped⟩

/-- After the first round the names that the body declares are bound. -/
theorem Stands.binds (stands : loop.Stands bound scope store (n + 1) last) {part : Stmt}
    (member : part ∈ loop.body) (declared : name ∈ part.declared) :
    (last.frames.frame (inside scope store).innermost).binds name = true := by
  obtain ⟨ended, completes, changes⟩ := stands.completes
  exact changes.persist.binds (completes.binds member declared).2

/-- The rounds that are still allowed, and the result of a loop that has ended. -/
def ending (loop : Loop) (bound : Nat) (scope : Scope) (store : Store) (left : Nat) : Action Value := do
  Eval.rounds (loop.round bound scope store) left
  return .boolean false

theorem outcome_of_loop? (isLoop : statement.loop? = some loop) :
    (statement.eval (bound + 1) scope).outcome store =
      (do
        let _ ← Eval.opening (Stmt.eval bound) (inside scope store) loop.start
        loop.ending bound scope store bound).outcome
          { store with frames := store.frames.grow } := by
  cases statement with
  | whileLoop | forLoop =>
    cases isLoop
    rfl
  | _ => cases isLoop

theorem Stands.outcome (stands : loop.Stands bound scope store n last)
    (isLoop : statement.loop? = some loop) (ends : (statement.eval (bound + 1) scope).Ends store) :
    ∃ left, (statement.eval (bound + 1) scope).outcome store =
      (loop.ending bound scope store (left + 1)).outcome last := by
  -- with no rounds left the loop would be cut short
  have some_ : ∀ left last, (statement.eval (bound + 1) scope).outcome store =
      (loop.ending bound scope store left).outcome last → ∃ fewer, left = fewer + 1 := by
    intro left last same
    cases left with
    | zero => exact absurd same (ends last)
    | succ fewer => exact ⟨fewer, rfl⟩
  induction stands with
  | @first value started opened =>
    have same := (outcome_of_loop? isLoop).trans (opened.bind _)
    obtain ⟨fewer, rfl⟩ := some_ bound started same
    exact ⟨fewer, same⟩
  | @again n before after _ went ih =>
    obtain ⟨left, same⟩ := ih
    have onward : (loop.ending bound scope store (left + 1)).outcome before =
        (loop.ending bound scope store left).outcome after := by
      rw [ending, ending, Eval.rounds, outcome_bind, went.bind, outcome_bind]
      rfl
    obtain ⟨fewer, rfl⟩ := some_ left after (same.trans onward)
    exact ⟨fewer, same.trans onward⟩

theorem Stands.stops (stands : loop.Stands bound scope store n last)
    (isLoop : statement.loop? = some loop) (ends : (statement.eval (bound + 1) scope).Ends store)
    {stop : Stop} (stopped : (loop.round bound scope store).Stops last stop after) :
    (statement.eval (bound + 1) scope).Stops store stop after := by
  obtain ⟨left, same⟩ := stands.outcome isLoop ends
  exact same.trans ((stopped.bind _).bind _)

/-- Rounds that come to an end do so where the condition does not hold. -/
theorem Stands.gives_rounds {left : Nat} (stands : loop.Stands bound scope store n before)
    (gives : (Eval.rounds (loop.round bound scope store) left).Gives before () after) :
    ∃ m last, loop.Stands bound scope store m last ∧
      (loop.holds bound scope store).Gives last false after := by
  induction left generalizing n before with
  | zero => cases gives
  | succ left ih =>
    obtain ⟨again, between, went, rest⟩ := gives_bind_iff.mp gives
    cases again with
    | true => exact ih (.again stands went) rest
    | false =>
      cases rest
      exact ⟨n, before, stands, gives_round_false_iff.mp went⟩

theorem gives_iff (isLoop : statement.loop? = some loop) {value : Value}
    (gives : (statement.eval (bound + 1) scope).Gives store value after) :
    value = .boolean false ∧ ∃ n last, loop.Stands bound scope store n last ∧
      (loop.holds bound scope store).Gives last false after := by
  rw [Gives, outcome_of_loop? isLoop] at gives
  obtain ⟨opened, started, opens, rest⟩ := gives_bind_iff.mp gives
  obtain ⟨_, done, went, result⟩ := gives_bind_iff.mp rest
  cases result
  exact ⟨rfl, (Stands.first opens).gives_rounds went⟩

/-- A declaration fails where its name is bound in the innermost frame when the value has been
computed. -/
theorem stops_of_introduces {single : Stmt} {name : Ident} {initial : Expr} {inner : Scope}
    {reached ready : Store} {value : Value} (introduces : single.introduces? = some (name, initial))
    (gives : (Eval.optionalValue (Stmt.eval bound) inner initial).Gives reached value ready)
    (taken : (ready.frames.frame inner.innermost).binds name.text = true) :
    (single.eval (bound + 1) inner).Stops reached
      (.failed ((Fault.alreadyDeclared.about "Name" name.text).placedAt name.token.position))
      ready := by
  have refused : ∀ (given : Value) (constant : Bool),
      (declare inner name.text given constant name.token).Stops ready
        (.failed ((Fault.alreadyDeclared.about "Name" name.text).placedAt name.token.position))
        ready := by
    intro given constant
    rw [Stops, outcome_declare, Frames.declarationFault?, if_pos taken]
  cases single with
  | declare d =>
    cases introduces
    exact (gives.bind _).trans (refused value d.constant)
  | function token name parameters statements =>
    cases introduces
    cases gives
    exact refused _ true
  | _ => cases introduces

theorem body_stops {inner : Scope} {front : List Stmt} {single : Stmt} {stop : Stop} {reached : Store}
    {given : Value} (gives : (Eval.body (Stmt.eval bound) inner front).Gives held given reached)
    (stops : (single.eval bound inner).Stops reached stop after) (behind : List Stmt) :
    (Eval.body (Stmt.eval bound) inner (front ++ single :: behind)).Stops held stop after :=
  (Eval.outcome_sequence_append gives _).trans (stops.bind _)

/-- What the body declares is free before it completes and bound from the second round on. -/
theorem Completes.first (completes : loop.Completes bound scope store n after) {part : Stmt}
    (member : part ∈ loop.body) (declared : name ∈ part.declared) : n = 0 := by
  cases n with
  | zero => rfl
  | succ n =>
    obtain ⟨⟨before, stands, free⟩, -⟩ := completes.binds member declared
    rw [stands.binds member declared] at free
    cases free

theorem declared_of_introduces {single : Stmt} {name : Ident} {initial : Expr}
    (introduces : single.introduces? = some (name, initial)) : name.text ∈ single.declared := by
  cases single with
  | declare | function =>
    cases introduces
    exact List.mem_cons_self
  | _ => cases introduces

/-- A declaration that is reached in a later round, with a value computed, ends that round. -/
theorem Stands.round_stops {front behind : List Stmt} {single : Stmt} {name : Ident} {initial : Expr}
    {reached ready : Store} {given value : Value}
    (stands : loop.Stands bound scope store (n + 1) last)
    (holds : (loop.holds bound scope store).Gives last true held)
    (whole : loop.body = front ++ single :: behind)
    (introduces : single.introduces? = some (name, initial))
    (ran : (Eval.body (Stmt.eval bound) (inside scope store) front).Gives held given reached)
    (computed : (Eval.optionalValue (Stmt.eval (bound - 1)) (inside scope store) initial).Gives
      reached value ready) :
    (loop.round bound scope store).Stops last
      (.failed ((Fault.alreadyDeclared.about "Name" name.text).placedAt name.token.position))
      ready := by
  have member : single ∈ loop.body := by
    rw [whole]
    exact List.mem_append_right _ List.mem_cons_self
  have changes : Policy.unrestricted.Changes last ready := (changes_of_holds holds).trans
    ((changes_of_sequence ran).trans (changes_of_optionalValue computed))
  have taken := changes.persist.binds (stands.binds member (declared_of_introduces introduces))
  cases bound with
  | zero => cases holds
  | succ less =>
    have stops := body_stops ran (stops_of_introduces introduces computed taken) behind
    rw [← whole] at stops
    exact (holds.bind _).trans (stops.bind _)

/-- A loop whose body declares something, evaluated in any store: if its evaluation ends, then with a
fault, with the end of the program, or with false after one round at most. In any case no round but the
first completes the body. A second round that comes to a declaration and computes its value ends the
loop: the name is declared already. -/
theorem declaring_body_completes_once (isLoop : statement.loop? = some loop)
    (declares : ∃ part ∈ loop.body, part.declared ≠ [])
    (ends : (statement.eval (bound + 1) scope).Ends store) :
    ((∃ fault after, (statement.eval (bound + 1) scope).Stops store (.failed fault) after) ∨
      (∃ halt after, (statement.eval (bound + 1) scope).Stops store (.halted halt) after) ∨
      ∃ n last after, n ≤ 1 ∧ loop.Stands bound scope store n last ∧
        (loop.holds bound scope store).Gives last false after ∧
          (statement.eval (bound + 1) scope).Gives store (.boolean false) after) ∧
    (∀ n after, loop.Completes bound scope store n after → n = 0) ∧
    (∀ last held before single behind name initial given reached value ready,
      loop.Stands bound scope store 1 last → (loop.holds bound scope store).Gives last true held →
      loop.body = before ++ single :: behind → single.introduces? = some (name, initial) →
      (Eval.body (Stmt.eval bound) (inside scope store) before).Gives held given reached →
      (Eval.optionalValue (Stmt.eval (bound - 1)) (inside scope store) initial).Gives
          reached value ready →
        (Fault.alreadyDeclared.about "Name" name.text).code = utf8 "RESOLVE-0002" ∧
          (statement.eval (bound + 1) scope).Stops store
            (.failed ((Fault.alreadyDeclared.about "Name" name.text).placedAt name.token.position))
            ready) := by
  obtain ⟨part, member, some_⟩ := declares
  obtain ⟨name, declared⟩ := List.exists_mem_of_ne_nil _ some_
  refine ⟨?_, fun n after completes => completes.first member declared, ?_⟩
  · rcases gives_or_stops (statement.eval (bound + 1) scope) store with
      ⟨value, after, gives⟩ | ⟨stop, after, stops⟩
    · obtain ⟨rfl, n, last, stands, fails⟩ := gives_iff isLoop gives
      refine .inr (.inr ⟨n, last, after, ?_, stands, fails, gives⟩)
      cases n with
      | zero => exact Nat.zero_le _
      | succ n =>
        obtain ⟨ended, completes, -⟩ := stands.completes
        exact Nat.succ_le_succ (Nat.le_of_eq (completes.first member declared))
    · cases stop with
      | failed fault => exact .inl ⟨fault, after, stops⟩
      | halted halt => exact .inr (.inl ⟨halt, after, stops⟩)
      | exhausted => exact absurd stops (ends after)
  · intro last held before single behind name initial given reached value ready stands holds whole
      introduces ran computed
    have stops := stands.round_stops holds whole introduces ran computed
    exact ⟨rfl, stands.stops isLoop ends stops⟩

def named (text : String) : Ident := ⟨⟨.name, utf8 text, ⟨1, 27⟩⟩, utf8 text⟩

/-- `while (true) { print(); let x = null; }` -/
def redeclaring : Loop :=
  ⟨.none, none, .ident (named "true"), .absent,
    [.expr (.call .none (.ident (named "print")) []),
      .declare ⟨.none, named "x", false, .ident (named "null")⟩]⟩

/-- `for (let go = true; go; ) { func f() { } go = false; }` -/
def lastRound : Loop :=
  ⟨.none, some ⟨.none, named "go", false, .ident (named "true")⟩, .ident (named "go"), .absent,
    [.function .none (named "f") [] [],
      .expr (.assign .none (.ident (named "go")) (.ident (named "false")))]⟩

/-- The store of a new interpreter. -/
def newStore : Store := Interpreter.freshStore (.still ⟨2024, 3, 9, 14, 5, 7, 0⟩)

-- The first loop prints twice before it fails; the second is over after one round.
theorem redeclaring_completes_once :
    (∃ after, (Stmt.eval 4 (.whileLoop .none redeclaring.test redeclaring.body)
        Interpreter.globalScope).Stops newStore
          (.failed ((Fault.alreadyDeclared.about "Name" (utf8 "x")).placedAt ⟨1, 27⟩)) after ∧
        after.printed.length = 2) ∧
      (∀ n after, redeclaring.Completes 3 Interpreter.globalScope newStore n after → n = 0) ∧
      ∃ n last after, n ≤ 1 ∧ lastRound.Stands 3 Interpreter.globalScope newStore n last ∧
        (lastRound.holds 3 Interpreter.globalScope newStore).Gives last false after := by
  have fails : (Stmt.eval 4 (.whileLoop .none redeclaring.test redeclaring.body)
      Interpreter.globalScope).Ends newStore := by
    rintro after ⟨⟩
  have finishes : (Stmt.eval 4 (.forLoop .none lastRound.start lastRound.test .absent lastRound.body)
      Interpreter.globalScope).Ends newStore := by
    rintro after ⟨⟩
  have first : Stmt.loop? (.whileLoop .none redeclaring.test redeclaring.body) =
      some redeclaring := rfl
  have second : Stmt.loop? (.forLoop .none lastRound.start lastRound.test .absent
      lastRound.body) = some lastRound := rfl
  obtain ⟨-, once, refused⟩ := declaring_body_completes_once first
    ⟨_, List.mem_cons_of_mem _ List.mem_cons_self, by decide⟩ fails
  have stops := (refused _ _ [.expr (.call .none (.ident (named "print")) [])]
    (.declare ⟨.none, named "x", false, .ident (named "null")⟩) [] (named "x")
    (.ident (named "null")) _ _ _ _ (.again (.first rfl) rfl) rfl rfl rfl rfl rfl).2
  refine ⟨⟨_, stops, rfl⟩, once, ?_⟩
  obtain ⟨⟨fault, after, other⟩ | ⟨halt, after, other⟩ | ⟨n, last, after, few, stands, fails_, -⟩, -⟩ :=
    declaring_body_completes_once second ⟨_, List.mem_cons_self, by decide⟩ finishes
  · cases other
  · cases other
  · exact ⟨n, last, after, few, stands, fails_⟩

end Loop

end Scriptlet
