import Scriptlet.Proofs.LineEnds
import Scriptlet.Proofs.Spacing
import Scriptlet.Proofs.Stability
/-!
Two sources as one. The tokens of a source that ends with a semicolon are read the same when more
tokens follow: the last statement is not carried on past the semicolon, for neither an expression nor a
conditional ends with one. So the statements of a joint source are those of its parts, and running it
is running the parts one after the other.
-/
namespace Scriptlet

/-- There is a last token, and it is not a semicolon. -/
def Unclosed (ts : List Token) : Prop :=
  ∃ front last, ts = front ++ [last] ∧ last.kind ≠ .semicolon

theorem unclosed_concat (ts : List Token) {last : Token} {kind : Kind} (same : last.kind = kind)
    (other : kind ≠ .semicolon) : Unclosed (ts ++ [last]) :=
  ⟨ts, last, rfl, same ▸ other⟩

theorem Unclosed.append {us : List Token} (unclosed : Unclosed us) (ts : List Token) :
    Unclosed (ts ++ us) := by
  obtain ⟨front, last, rfl, kind⟩ := unclosed
  exact ⟨ts ++ front, last, (List.append_assoc ..).symm, kind⟩

theorem Unclosed.cons {us : List Token} (unclosed : Unclosed us) (token : Token) :
    Unclosed (token :: us) :=
  unclosed.append [token]

theorem not_unclosed {ts : List Token} {semicolon : Token} (kind : semicolon.kind = .semicolon) :
    ¬ Unclosed (ts ++ [semicolon]) := by
  rintro ⟨front, last, same, other⟩
  obtain ⟨-, rfl⟩ := List.append_inj' same rfl |>.imp id List.singleton_inj.mp
  exact other kind

theorem Expr.Derives.unclosed {tier : Tier} {ts : List Token} {e : Expr}
    (derived : e.Derives tier ts) : Unclosed ts := by
  induction derived with
  | through _ ih => exact ih
  | name kind => exact unclosed_concat [] kind (by decide)
  | number kind _ => exact unclosed_concat [] kind (by decide)
  | @group opening ts _ closing _ _ kind _ =>
    exact (unclosed_concat ts kind (by decide)).cons opening
  | @quoted opening value closing quote _ same =>
    rcases quote with kind | kind
    · exact unclosed_concat [opening, value] (same.trans kind) (by decide)
    · exact unclosed_concat [opening, value] (same.trans kind) (by decide)
  | bare kind => exact unclosed_concat [] kind (by decide)
  | @call ts _ opening _ inner closing _ _ _ _ kind _ _ =>
    exact ((unclosed_concat inner kind (by decide)).cons opening).append ts
  | @computed ts _ opening inner _ closing _ _ _ kind _ _ =>
    exact ((unclosed_concat inner kind (by decide)).cons opening).append ts
  | @named ts _ point _ _ _ _ _ _ ih => exact (ih.cons point).append ts
  | @decimal ts _ _ _ point _ _ _ _ _ _ _ _ _ _ _ ih => exact (ih.cons point).append ts
  | @operation _ ts _ operator _ _ _ _ _ _ _ ih => exact (ih.cons operator).append ts
  | @increment ts _ operator _ kind _ => exact unclosed_concat ts kind (by decide)
  | @object opening _ inner _ _ _ _ kind _ =>
    exact (unclosed_concat inner kind (by decide)).cons opening
  | @assign ts _ equals _ _ _ _ _ _ ih => exact (ih.cons equals).append ts

theorem Block.Braced.unclosed {block : Block} (braced : block.Braced) : Unclosed block.tokens :=
  (unclosed_concat _ braced.closing (by decide)).cons block.opening

theorem Link.Formed.unclosed {kind : Kind} {tier : Tier} {link : Link}
    (formed : link.Formed kind tier) : Unclosed link.tokens :=
  (((formed.block.unclosed.cons _).append _).cons _).cons _

theorem Stmt.Derives.unclosed_branch {ts : List Token} {first : Guarded Stmt}
    {others : List (Guarded Stmt)} (derived : Stmt.Derives ts (.branch first others)) :
    Unclosed ts := by
  generalize whole : Stmt.branch first others = statement at derived
  cases derived with
  | @branch link links formed all =>
    rcases List.eq_nil_or_concat links with rfl | ⟨init, last, rfl⟩
    · rw [List.flatMap_nil, List.append_nil]
      exact formed.unclosed
    · have ends := (all last (by simp)).unclosed
      rw [List.concat_eq_append, List.flatMap_append, List.flatMap_singleton]
      exact (ends.append _).append _
  | otherwise _ _ _ _ braced _ => exact (braced.unclosed.cons _).append _
  | _ => cases whole

section Closing
variable {turn : Turn} {limit : Nat} {xs front : List Token} {semicolon : Token} {c d : Cursor}

theorem Parse.Consumes.all {α : Type} {p : Parse α} {requires : Token → Prop}
    {ensures : List Token → α → Prop} (consumes : Consumes requires p ensures)
    (beside : turn.Beside xs c d) (met : requires c.current) {value : α} {after : Cursor}
    (ran : p.run c = .ok (value, after)) (atEnd : after.upcoming = [turn.last]) :
    ensures xs value := by
  have closed : c.Closed := by
    refine ⟨turn.last, ?_, turn.ended⟩
    rw [beside.ends]
    simp
  obtain ⟨taken, whole, holds⟩ := consumes c closed met value after ran
  rw [beside.ends, atEnd] at whole
  rwa [List.append_cancel_right whole]

variable (beside : turn.Beside xs c d) (closed : xs = front ++ [semicolon])
  (kind : semicolon.kind = .semicolon)
include beside closed kind

theorem Grammar.expression_before_end {value : Expr} {after : Cursor}
    (ran : expression.run c = .ok (value, after)) : after.upcoming ≠ [turn.last] := by
  intro atEnd
  have consumes : Parse.Consumes (fun _ => True) expression (Expr.Derives .assignment) :=
    consumes_expression
  have derived := consumes.all beside trivial ran atEnd
  rw [closed] at derived
  exact not_unclosed kind derived.unclosed

theorem Grammar.meets_expressionStatement :
    Parse.Meets turn False 1 xs (expressionStatement.run c) (expressionStatement.run d) := by
  have first : Parse.Agree turn 0 (xs.length + 1) 1 True expression expression := agree_expression
  apply (first xs c d (Nat.zero_le _) (Nat.lt_succ_self _) beside).bind
  · intro value after _ ran atEnd
    exact absurd atEnd (expression_before_end beside closed kind ran)
  · intro value after behind ts ys ran _ _ further
    -- the semicolon is still ahead, so it is seen before the end
    have some_ : 1 ≤ ys.length := by
      cases ys with
      | nil => exact absurd further.ends (expression_before_end beside closed kind ran)
      | cons => exact Nat.le_add_left _ _
    have next : Parse.Agree turn 1 (ys.length + 1) 0 False
        (do if ← Parse.isAt .semicolon then
              let _ ← Parse.next
              return Stmt.expr value
            else return Stmt.expr value)
        (do if ← Parse.isAt .semicolon then
              let _ ← Parse.next
              return Stmt.expr value
            else return Stmt.expr value) := by
      apply Parse.agree_isAt_inside
      · exact (Parse.agree_next.bind fun _ => Parse.agree_pure _).untaken
      · exact Parse.agree_pure _
    exact next ys after behind some_ (Nat.lt_succ_self _) further

theorem Grammar.meets_branch {inner other : Parse Stmt}
    (below : Parse.Agree turn 1 limit 1 True inner other)
    (sound : Parse.Consumes (fun _ => True) inner Stmt.Derives) (few : xs.length < limit + 1)
    (word : c.current.kind = .ifWord) :
    Parse.Meets turn False 1 xs ((branch inner).run c) ((branch other).run d) := by
  have some_ : 1 ≤ xs.length := by simp [closed]
  apply ((agree_branch below) xs c d some_ few beside).tighten
  intro value after ran atEnd
  have derived := (consumes_branch sound).all beside word ran atEnd
  obtain ⟨first, _, _, ran⟩ := Parse.run_bind_iff.mp ran
  obtain ⟨others, _, _, ran⟩ := Parse.run_bind_iff.mp ran
  obtain ⟨last, _, _, ran⟩ := Parse.run_bind_iff.mp ran
  cases ran
  rw [closed] at derived
  exact not_unclosed kind derived.unclosed_branch

theorem Grammar.meets_statementOf {inner other : Parse Stmt}
    (below : Parse.Agree turn 1 limit 1 True inner other)
    (sound : Parse.Consumes (fun _ => True) inner Stmt.Derives) (few : xs.length < limit + 1) :
    Parse.Meets turn False 1 xs ((statementOf inner).run c) ((statementOf other).run d) := by
  have some_ : 1 ≤ xs.length := by simp [closed]
  have tight {p q : Parse Stmt} (agree : Parse.Agree turn 1 (limit + 1) 1 False p q) :
      Parse.Meets turn False 1 xs (p.run c) (q.run d) := agree xs c d some_ few beside
  cases xs with
  | nil => cases some_
  | cons token rest =>
    apply Parse.meets_peek beside
    split
    · exact tight agree_declare
    · exact tight agree_declare
    · exact tight (agree_function below)
    · rename_i word
      exact meets_branch beside closed kind below sound few (beside.current.1 ▸ word)
    · exact tight (agree_whileLoop below)
    · exact tight (agree_forLoop below)
    · exact meets_expressionStatement beside closed kind

/-- Before a semicolon that ends the shared tokens, statements do not look further. -/
theorem Grammar.meets_statement :
    Parse.Meets turn False 1 xs (statement.run c) (statement.run d) := by
  have run_eq (cursor : Cursor) (depth : Nat) (remaining : cursor.remaining = depth + 1) :
      statement.run cursor = (statementOf (nestedStatement depth)).run cursor := by
    rw [statement, Parse.run_remaining, remaining, nestedStatement]
  rw [run_eq c xs.length beside.remaining.1, run_eq d (xs.length + turn.extra) (by
    rw [beside.remaining.2, Nat.add_right_comm])]
  exact meets_statementOf beside closed kind (agree_nestedStatement xs.length)
    (consumes_nestedStatement xs.length) (Nat.lt_succ_self _)

end Closing

theorem Stmt.Derives.ne_nil {ts : List Token} {statement : Stmt}
    (derived : Stmt.Derives ts statement) : ts ≠ [] := by
  cases derived with
  | expr derived => exact derived.ne_nil
  | declare derived => cases derived <;> simp
  | branch | otherwise | whileLoop => simp [Link.tokens]
  | _ => simp

theorem Grammar.statement_shrinks {c after : Cursor} {value : Stmt} (closed : c.Closed)
    (ran : statement.run c = .ok (value, after)) :
    after.Closed ∧ after.remaining < c.remaining := by
  have consumes : Parse.Consumes (fun _ => True) statement Stmt.Derives := consumes_statement
  obtain ⟨taken, whole, derived⟩ := consumes c closed trivial value after ran
  refine ⟨closed.of_upcoming whole, ?_⟩
  have some_ := List.length_pos_iff.mpr derived.ne_nil
  rw [Cursor.remaining_eq, Cursor.remaining_eq, whole, List.length_append]
  omega

namespace Parse

variable {α : Type} {starts : Kind → Bool} {item : Parse α}

theorem run_collect_succ (bound : Nat) (c : Cursor) :
    (collect starts item (bound + 1)).run c =
      if starts c.current.kind then
        (do let first ← item
            let rest ← collect starts item bound
            return first :: rest : Parse (List α)).run c
      else .ok ([], c) := by
  change (if starts c.current.kind then _ else pure [] : Parse (List α)).run c = _
  split <;> rfl

/-- Where each item takes a token, a bound that is large enough makes no difference. -/
theorem run_collect_of_le
    (shrinks : ∀ c value after, c.Closed → item.run c = .ok (value, after) →
      after.Closed ∧ after.remaining < c.remaining) {m n : Nat} {c : Cursor} (closed : c.Closed)
    (enough : c.remaining ≤ m) (more : m ≤ n) :
    (collect starts item n).run c = (collect starts item m).run c := by
  induction m generalizing n c with
  | zero => exact absurd enough (Nat.not_le_of_gt (Nat.succ_pos _))
  | succ m ih =>
    obtain ⟨n, rfl⟩ : ∃ k, n = k + 1 := ⟨n - 1, by omega⟩
    rw [run_collect_succ, run_collect_succ]
    split
    · rw [StateT.run_bind, StateT.run_bind]
      rcases ran : item.run c with fault | ⟨value, after⟩
      · rfl
      · obtain ⟨left, fewer⟩ := shrinks c value after closed ran
        have same := ih left (n := n) (by omega) (by omega)
        change StateT.run (collect starts item n >>= fun rest => pure (value :: rest)) after =
          StateT.run (collect starts item m >>= fun rest => pure (value :: rest)) after
        rw [StateT.run_bind, StateT.run_bind, same]
    · rfl

end Parse

namespace Grammar

open Parse

/-- The shared tokens are of statements that end with a semicolon, if there are any. -/
structure Separate (xs : List Token) : Prop where
  inside : ∀ token ∈ xs, token.kind ≠ .endOfInput
  closed : xs ≠ [] → ∃ front semicolon, xs = front ++ [semicolon] ∧ semicolon.kind = .semicolon

theorem Separate.behind {xs ts ys : List Token} (separate : Separate xs) (whole : xs = ts ++ ys) :
    Separate ys := by
  constructor
  · intro token member
    exact separate.inside token (whole ▸ List.mem_append_right ts member)
  · intro some_
    obtain ⟨front, semicolon, last, kind⟩ := separate.closed (by simp [whole, some_])
    obtain ⟨init, final, rfl⟩ : ∃ init final, ys = init ++ [final] :=
      ⟨ys.dropLast, ys.getLast some_, (List.dropLast_append_getLast some_).symm⟩
    rw [whole, ← List.append_assoc] at last
    obtain ⟨-, same⟩ := List.append_inj' last rfl
    exact ⟨init, final, rfl, List.singleton_inj.mp same ▸ kind⟩

/-- The statements of shared tokens come before those of what follows. -/
theorem run_program_beside {turn : Turn} {xs : List Token} {c d : Cursor} {program_ : Program}
    {last : Cursor} {bound enough : Nat} (separate : Separate xs) (beside : turn.Beside xs c d)
    (closed : d.Closed) (few : xs.length < bound) (all : d.remaining ≤ enough)
    (ran : (collect (· ≠ .endOfInput) statement bound).run c = .ok (program_, last)) :
    ∃ behind, behind.upcoming = turn.more ∧
      (collect (· ≠ .endOfInput) statement enough).run d =
        Prod.map (program_ ++ ·) id <$> program.run behind := by
  induction bound generalizing xs c d program_ enough with
  | zero => exact absurd few (Nat.not_lt_zero _)
  | succ bound ih =>
    rw [run_collect_succ] at ran
    cases xs with
    | nil =>
      have current := turn.current_of_end beside.ends
      rw [current, turn.ended, if_neg (by decide)] at ran
      cases ran
      refine ⟨d, beside.goes, ?_⟩
      have shrinks := fun c value after => @statement_shrinks c after value
      rw [run_collect_of_le shrinks closed (Nat.le_refl _) all, program, many, run_remaining]
      rcases (collect (fun x => decide (x ≠ .endOfInput)) statement d.remaining).run d with
        fault | ⟨value, after⟩ <;> rfl
    | cons token rest =>
      have kind := separate.inside token List.mem_cons_self
      rw [beside.current.1, if_pos (decide_eq_true kind)] at ran
      obtain ⟨first, between, head, ran⟩ := run_bind_iff.mp ran
      obtain ⟨others, final, tail, ran⟩ := run_bind_iff.mp ran
      cases ran
      obtain ⟨front, semicolon, ends, closing⟩ := separate.closed (List.cons_ne_nil _ _)
      have met := meets_statement beside ends closing
      rw [head] at met
      generalize headD : statement.run d = right at met
      cases met with
      | @same _ _ further ts ys whole took beyond =>
        obtain ⟨left, fewer⟩ := statement_shrinks closed headD
        have shorter : ys.length < bound := by
          have lengths := congrArg List.length whole
          rw [List.length_append] at lengths
          omega
        obtain ⟨enough, rfl⟩ : ∃ k, enough = k + 1 := ⟨enough - 1, by omega⟩
        obtain ⟨behind, more, rest_⟩ :=
          ih (separate.behind whole) beyond left shorter
            (by omega : further.remaining ≤ enough) tail
        refine ⟨behind, more, ?_⟩
        rw [run_collect_succ, beside.current.2, if_pos (decide_eq_true kind), StateT.run_bind,
          headD]
        change (collect _ statement enough >>= fun others => pure (first :: others)).run further = _
        rw [StateT.run_bind, rest_]
        rcases program.run behind with fault | ⟨value, after⟩ <;> rfl
      | ended stop =>
        cases stop with
        | stays never _ => exact never.elim

end Grammar

theorem Token.Proper.ne_endOfInput {token : Token} (proper : token.Proper) :
    token.kind ≠ .endOfInput := by
  intro ended
  have none : ∀ symbol ∈ Lexeme.symbols, symbol.2 ≠ .endOfInput := by decide
  exact none _ (proper.symbol ended (by decide)) rfl

theorem scanFrom_moved {keywords : Keywords} {p : Position} {source : Text} {tokens : List Token}
    (scanned : scanFrom keywords p source = .ok tokens) (q : Position) :
    ∃ moved, scanFrom keywords q source = .ok moved ∧
      moved.map Token.content = tokens.map Token.content := by
  obtain ⟨cut, of_⟩ := Cut.exists_of_scanFrom scanned
  obtain ⟨here, found, contents⟩ := of_.scanFrom keywords p
  obtain ⟨moved, there, same⟩ := of_.scanFrom keywords q
  rw [scanned] at found
  cases found
  exact ⟨moved, there, same.trans contents.symm⟩

/-- A cursor that shows the tokens of a source, at whatever places, is parsed at like the source. -/
theorem Grammar.run_program_moved {tokens : List Token} {c last : Cursor} {program_ : Program}
    (ran : program.run (Cursor.ofTokens tokens) = .ok (program_, last))
    (same : c.unplaced = (Cursor.ofTokens tokens).unplaced) :
    ∃ moved after, program.run c = .ok (moved, after) ∧
      Program.unplaced moved = Program.unplaced program_ := by
  have alike := alike_program _ _ same
  rw [ran] at alike
  rcases found : program.run c with fault | ⟨moved, after⟩
  · rw [found] at alike
    cases alike
  · rw [found] at alike
    injection alike with both
    injection both with trees _
    refine ⟨moved, after, rfl, ?_⟩
    rw [Program.unplaced, Program.unplaced, unplacedBody_eq, unplacedBody_eq, trees]

theorem ended_of_scanFrom {keywords : Keywords} {p : Position} {source : Text} {tokens : List Token}
    (scanned : scanFrom keywords p source = .ok tokens) :
    ∃ front last, tokens = front ++ [last] ∧ last.kind = .endOfInput := by
  obtain ⟨front, rfl, -⟩ := scanFrom_line scanned
  exact ⟨front, _, rfl, rfl⟩

theorem scan_line {keywords : Keywords} {a b : Text} {front tokens : List Token} {finish : Token}
    (scannedA : scan keywords a = .ok (front ++ [finish]))
    (scannedB : scan keywords b = .ok tokens) :
    finish.kind = .endOfInput ∧ ∃ moved last,
      scan keywords (a ++ Text.lineFeed :: b) = .ok (front ++ (moved ++ [last])) ∧
        last.kind = .endOfInput ∧
          (moved ++ [last]).map Token.content = tokens.map Token.content := by
  obtain ⟨ahead, ends, joint⟩ := scanFrom_line scannedA
  obtain ⟨rfl, finished⟩ := List.append_inj' ends rfl
  obtain ⟨others, there, contents⟩ :=
    scanFrom_moved scannedB ((Position.start.after a).next Text.lineFeed)
  obtain ⟨init, final, rfl, ended⟩ := ended_of_scanFrom scannedB
  have split := contents
  rw [List.map_append] at split
  obtain ⟨moved, back, rfl, -, closing⟩ := List.map_eq_append_iff.mp split
  obtain ⟨last, rfl, content⟩ := List.map_eq_singleton_iff.mp closing
  refine ⟨?_, moved, last, ?_, ?_, contents⟩
  · rw [List.singleton_inj.mp finished]
  · rw [scan, joint, there]
    rfl
  · exact (congrArg Prod.fst content).trans ended

/-- The program of two sources with a line feed between them, the first of which ends with a
semicolon: the statements of the first, and those of the second at other places. -/
theorem Parser.parseFresh_line {a b : Text} {front : List Token} {semicolon finish : Token}
    {first second : Program}
    (scanned : scan Keywords.default a = .ok (front ++ [semicolon, finish]))
    (kind : semicolon.kind = .semicolon)
    (parsedA : parseFresh Keywords.default a = .ok first)
    (parsedB : parseFresh Keywords.default b = .ok second) :
    ∃ moved, parseFresh Keywords.default (a ++ Text.lineFeed :: b) = .ok (first ++ moved) ∧
      Program.unplaced moved = Program.unplaced second := by
  have whole : front ++ [semicolon, finish] = (front ++ [semicolon]) ++ [finish] := by simp
  rw [whole] at scanned
  obtain ⟨_, lastA, scannedA, ranA⟩ := parseFresh_eq_ok_iff.mp parsedA
  rw [scanned] at scannedA
  cases scannedA
  obtain ⟨tokens, lastB, scannedB, ranB⟩ := parseFresh_eq_ok_iff.mp parsedB
  obtain ⟨finished, moved, last, joint, ended, contents⟩ := scan_line scanned scannedB
  let turn : Turn := ⟨finish, moved ++ [last], finished, by simp⟩
  have goes : (Cursor.ofTokens (front ++ [semicolon] ++ (moved ++ [last]))).upcoming =
      front ++ [semicolon] ++ (moved ++ [last]) := by
    rw [← List.append_assoc]
    exact upcoming_ofTokens _ ended
  have beside : turn.Beside (front ++ [semicolon])
      (Cursor.ofTokens (front ++ [semicolon] ++ [finish]))
      (Cursor.ofTokens (front ++ [semicolon] ++ (moved ++ [last]))) :=
    ⟨upcoming_ofTokens _ finished, goes⟩
  have separate : Grammar.Separate (front ++ [semicolon]) := by
    refine ⟨?_, fun _ => ⟨front, semicolon, rfl, kind⟩⟩
    obtain ⟨inside, _, same, -, proper⟩ := proper_of_scan scanned
    obtain ⟨rfl, -⟩ := List.append_inj' same rfl
    exact fun token member => (proper token member).ne_endOfInput
  have closed : (Cursor.ofTokens (front ++ [semicolon] ++ (moved ++ [last]))).Closed := by
    refine ⟨last, ?_, ended⟩
    rw [goes, ← List.append_assoc, List.getLast?_concat]
    rfl
  rw [Grammar.program, Parse.many, Parse.run_remaining] at ranA
  obtain ⟨behind, more, ran⟩ := Grammar.run_program_beside separate beside closed
    (by rw [beside.remaining.1]; omega) (Nat.le_refl _) ranA
  have same : behind.unplaced = (Cursor.ofTokens tokens).unplaced := by
    obtain ⟨init, final, rfl, ends, -⟩ := proper_of_scan scannedB
    rw [Cursor.unplaced, Cursor.unplaced, more, upcoming_ofTokens init ends]
    exact unplaced_of_contents contents
  obtain ⟨again, after, ranAgain, unplaced⟩ := Grammar.run_program_moved ranB same
  refine ⟨again, parseFresh_eq_ok_iff.mpr ⟨_, after, joint, ?_⟩, unplaced⟩
  rw [ranAgain] at ran
  rw [Grammar.program, Parse.many, Parse.run_remaining, ran]
  rfl

namespace Eval

open Scriptlet.Action

theorem sequence_of_ne_nil {eval : Evaluation} {scope : Scope} {statements : List Stmt}
    (some_ : statements ≠ []) (last other : Value) :
    sequence eval scope last statements = sequence eval scope other statements := by
  cases statements with
  | nil => contradiction
  | cons => rfl

end Eval

/-- Whether a run came to its end. -/
def Outcome.isFinished : Outcome → Bool
  | .finished _ => true
  | _ => false

theorem Outcome.exists_of_isFinished {outcome : Outcome} (ended : outcome.isFinished = true) :
    ∃ result, outcome = .finished result := by
  cases outcome with
  | finished result => exact ⟨result, rfl⟩
  | _ => cases ended

namespace Interpreter

variable {i : Interpreter} {bound : Nat}

theorem gives_of_finished {program : Program} {result : Option Value}
    (finished : (execute bound i program).1.outcome = .finished result) :
    ∃ value after, (i.task bound program).outcome = (.ok value, after) := by
  cases program with
  | nil => exact ⟨_, _, rfl⟩
  | cons statement rest =>
    rw [outcome_execute (List.cons_ne_nil _ _)] at finished
    rcases ended : (i.task bound (statement :: rest)).outcome with ⟨stop | value, after⟩
    · rw [ended] at finished
      cases stop <;> cases finished
    · exact ⟨value, after, rfl⟩

/-- The evaluation of two programs as one ends like that of the second after the first, with the prints
of the first behind its own. -/
theorem Quiet.seen_append (quiet : i.Quiet) {first second moved : Program} {value : Value}
    {after : Store} (gives : (i.task bound first).outcome = (.ok value, after)) (some_ : second ≠ [])
    (same : Program.unplaced moved = Program.unplaced second) :
    Action.seen Value.unplaced [] (i.task bound (first ++ moved)).outcome =
      Action.seen Value.unplaced after.printed
        ((execute bound i first).2.task bound second).outcome := by
  have moving : moved ≠ [] := by
    rintro rfl
    cases second with
    | nil => contradiction
    | cons => cases same
  have joint : (i.task bound (first ++ moved)).outcome =
      (moved.eval bound globalScope).outcome after := by
    have head :
        (Eval.sequence (Stmt.eval bound) globalScope .null first).Gives i.store value after := gives
    have tail := Eval.outcome_sequence_append head moved
    rw [Eval.sequence_of_ne_nil moving value .null] at tail
    exact tail
  have stores : after.unplaced [] = (execute bound i first).2.store.unplaced after.printed := by
    rw [quiet.store_execute, gives]
    simp [Store.unplaced]
  rw [joint]
  exact Program.seen_eval same stores bound globalScope

/-- Running two programs as one is running the first and then the second, up to places. -/
theorem Quiet.execute_append (quiet : i.Quiet) {first second moved : Program} {result : Option Value}
    (finished : (execute bound i first).1.outcome = .finished result) (some_ : second ≠ [])
    (same : Program.unplaced moved = Program.unplaced second) :
    (execute bound i (first ++ moved)).1.outcome.unplaced =
        (execute bound (execute bound i first).2 second).1.outcome.unplaced ∧
      (execute bound i (first ++ moved)).1.printed =
        (execute bound i first).1.printed ++
          (execute bound (execute bound i first).2 second).1.printed ∧
      (execute bound i (first ++ moved)).2.store.unplaced [] =
        (execute bound (execute bound i first).2 second).2.store.unplaced [] := by
  obtain ⟨value, after, gives⟩ := gives_of_finished finished
  have alike := quiet.seen_append gives some_ same
  have between : (execute bound i first).2.Quiet := by rw [Quiet, quiet.store_execute]
  have stores := congrArg Prod.snd alike
  rw [Action.snd_seen, Action.snd_seen] at stores
  refine ⟨?_, ?_, ?_⟩
  · have moving : first ++ moved ≠ [] := by
      rintro none
      obtain ⟨-, rfl⟩ := List.append_eq_nil_iff.mp none
      cases second with
      | nil => contradiction
      | cons => cases same
    have ends := congrArg (fun seen => (i.conclude seen.1).1) alike
    simp only [Action.conclude_seen] at ends
    rw [outcome_execute moving, outcome_execute some_, ends]
    exact congrArg Outcome.unplaced (outcome_conclude_of_file (file_execute i bound first).symm _)
  · have printed := congrArg Store.printed stores
    simp only [Store.unplaced, List.append_nil] at printed
    rw [quiet.printed_execute, quiet.printed_execute, between.printed_execute, printed, gives,
      List.reverse_append]
  · rw [quiet.store_execute, between.store_execute]
    have frames := congrArg Store.frames stores
    have machines := congrArg Store.machine stores
    simp only [Store.unplaced] at frames machines ⊢
    rw [frames, machines]

/-- Entry by entry is all at once. On an interpreter with any history, let the run of a source that
ends with a semicolon give a result, and let another source be parsed to some statements. Then the run
of the second after the first ends like the run of both with a line feed between them, with the same
value, halt or fault but for places; what is printed in all is the same, and so are the variables. -/
theorem run_line (reachable : i.Reachable) {a b : Text} {front : List Token}
    {semicolon finish : Token} {second : Program} {result : Option Value}
    (scanned : scan Keywords.default a = .ok (front ++ [semicolon, finish]))
    (kind : semicolon.kind = .semicolon)
    (parsed : Parser.parseFresh Keywords.default b = .ok second) (some_ : second ≠ [])
    (finished : (i.run bound a).1.outcome = .finished result) :
    (i.run bound (a ++ utf8 "\n" ++ b)).1.outcome.unplaced =
        ((i.run bound a).2.run bound b).1.outcome.unplaced ∧
      (i.run bound (a ++ utf8 "\n" ++ b)).1.printed =
        (i.run bound a).1.printed ++ ((i.run bound a).2.run bound b).1.printed ∧
      (i.run bound (a ++ utf8 "\n" ++ b)).2.userVariables.map Binding.shown =
        ((i.run bound a).2.run bound b).2.userVariables.map Binding.shown ∧
      (i.run bound (a ++ utf8 "\n" ++ b)).2.userVariables.map Binding.unplaced =
        ((i.run bound a).2.run bound b).2.userVariables.map Binding.unplaced := by
  have standard := reachable.standard_ready.1
  rcases parsedA : (i.parse a).1 with fault | first
  · rw [run_of_error parsedA] at finished
    cases finished
  · have line : a ++ utf8 "\n" ++ b = a ++ Text.lineFeed :: b := by
      rw [List.append_assoc]
      rfl
    obtain ⟨moved, parsedBoth, same⟩ :=
      Parser.parseFresh_line scanned kind (standard.parseFresh parsedA) parsed
    rw [← line] at parsedBoth
    have parsedB := (standard.run bound a).parse_of_parseFresh parsed
    obtain ⟨outcomeA, printedA, -⟩ := seen_run_of_ok parsedA bound
    obtain ⟨outcomeB, printedB, storeB⟩ := seen_run_of_ok parsedB bound
    obtain ⟨outcome, printed, store⟩ :=
      seen_run_of_ok (standard.parse_of_parseFresh parsedBoth) bound
    -- the parser that the first run leaves has no part in the execution of the second program
    have apart : execute bound (i.run bound a).2 second =
        ((execute bound (execute bound i first).2 second).1,
          { (execute bound (execute bound i first).2 second).2 with
            parser := (i.parser.parse a).2 }) := by
      rw [run_of_ok parsedA]
      exact execute_parser_eq _ bound second _
    rw [apart] at outcomeB printedB storeB
    obtain ⟨outcomes, prints, stores⟩ :=
      reachable.quiet.execute_append (outcomeA ▸ finished) some_ same
    rw [← store, ← storeB] at stores
    have variables_ := userVariables_of_frames (congrArg Store.frames stores)
    refine ⟨?_, ?_, Binding.map_shown_of_unplaced variables_, variables_⟩
    · rw [outcome, outcomeB, outcomes]
    · rw [printed, printedA, printedB, prints]

/-- An entry that declares an object and prints it. -/
def firstEntry : Text := utf8 "let o = \x7b a: 1 \x7d; println(o);"

/-- An entry that prints a member of the object and fails. -/
def secondEntry : Text := utf8 "println(f(o)); p"

-- The fault of the second entry is on line 1, that of both entries in one source on line 2.
theorem keeper_runs_line :
    keeper.Reachable ∧
      (∃ front semicolon finish, semicolon.kind = .semicolon ∧
        scan Keywords.default firstEntry = .ok (front ++ [semicolon, finish])) ∧
      (∃ second, Parser.parseFresh Keywords.default secondEntry = .ok second ∧ second ≠ []) ∧
      (∃ result, (keeper.run 9 firstEntry).1.outcome = .finished result) ∧
      (keeper.run 9 (firstEntry ++ utf8 "\n" ++ secondEntry)).1.outcome.unplaced =
        ((keeper.run 9 firstEntry).2.run 9 secondEntry).1.outcome.unplaced ∧
      (keeper.run 9 (firstEntry ++ utf8 "\n" ++ secondEntry)).1.printed =
        (keeper.run 9 firstEntry).1.printed ++
          ((keeper.run 9 firstEntry).2.run 9 secondEntry).1.printed ∧
      (keeper.run 9 (firstEntry ++ utf8 "\n" ++ secondEntry)).2.userVariables.map Binding.shown =
        ((keeper.run 9 firstEntry).2.run 9 secondEntry).2.userVariables.map Binding.shown := by
  have reachable : keeper.Reachable := .run _ _ (.fresh _ _)
  obtain ⟨front, semicolon, finish, kind, scanned⟩ : ∃ front semicolon finish,
      semicolon.kind = .semicolon ∧
        scan Keywords.default firstEntry = .ok (front ++ [semicolon, finish]) := by
    have kinds : (scan Keywords.default firstEntry).toOption.map
        (fun tokens => (tokens.drop 13).map Token.kind) = some [.semicolon, .endOfInput] := by
      decide +kernel
    generalize scan Keywords.default firstEntry = scanned at kinds ⊢
    rcases scanned with fault | tokens
    · cases kinds
    · obtain ⟨semicolon, rest, ends, kind, last⟩ := List.map_eq_cons_iff.mp (Option.some.inj kinds)
      obtain ⟨finish, rfl, -⟩ := List.map_eq_singleton_iff.mp last
      refine ⟨tokens.take 13, semicolon, finish, kind, ?_⟩
      rw [← ends, List.take_append_drop]
  obtain ⟨second, parsed, some_⟩ : ∃ second,
      Parser.parseFresh Keywords.default secondEntry = .ok second ∧ second ≠ [] := by
    have lengths : (Parser.parseFresh Keywords.default secondEntry).toOption.map List.length =
        some 2 := by decide +kernel
    generalize Parser.parseFresh Keywords.default secondEntry = parsed at lengths ⊢
    rcases parsed with fault | second
    · cases lengths
    · refine ⟨second, rfl, ?_⟩
      rintro rfl
      cases lengths
  obtain ⟨result, finished⟩ := Outcome.exists_of_isFinished
    (show (keeper.run 9 firstEntry).1.outcome.isFinished = true by decide +kernel)
  obtain ⟨outcomes, prints, shown, -⟩ := run_line reachable scanned kind parsed some_ finished
  exact ⟨reachable, ⟨front, semicolon, finish, kind, scanned⟩, ⟨second, parsed, some_⟩,
    ⟨result, finished⟩, outcomes, prints, shown⟩

end Interpreter

end Scriptlet
