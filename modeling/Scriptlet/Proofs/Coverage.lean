import Scriptlet.Proofs.Joining
/-!
A program is a phrase of its whole source. Each statement takes a token, so the bound on their number
is never what ends a program: its statements go on until the end of input, and no token before it is
left over.
-/
namespace Scriptlet

open Parse

/-- Where each item takes a token, items are only ended by a token that starts none. -/
theorem Parse.starts_of_collect {α : Type} {starts : Kind → Bool} {item : Parse α}
    (shrinks : ∀ c value after, c.Closed → item.run c = .ok (value, after) →
      after.Closed ∧ after.remaining < c.remaining) {bound : Nat} {c after : Cursor}
    {items : List α} (closed : c.Closed) (enough : c.remaining ≤ bound)
    (ran : (collect starts item bound).run c = .ok (items, after)) :
    starts after.current.kind = false := by
  induction bound generalizing c items with
  | zero => exact absurd enough (Nat.not_le_of_gt (Nat.succ_pos _))
  | succ bound ih =>
    rw [run_collect_succ] at ran
    split at ran
    · obtain ⟨first, between, head, ran⟩ := run_bind_iff.mp ran
      obtain ⟨rest, last, tail, ran⟩ := run_bind_iff.mp ran
      cases ran
      obtain ⟨left, fewer⟩ := shrinks c first between closed head
      exact ih left (by omega) tail
    · rename_i stops
      cases ran
      exact Bool.eq_false_iff.mpr stops

theorem Grammar.program_ends {c after : Cursor} {program_ : Program} (closed : c.Closed)
    (ran : program.run c = .ok (program_, after)) : after.current.kind = .endOfInput := by
  rw [program, many, run_remaining] at ran
  have stops := starts_of_collect (fun _ _ _ => statement_shrinks) closed (Nat.le_refl _) ran
  simpa using stops

/-- The tokens of a source that is parsed, and the run of the grammar over them. -/
theorem Parser.run_of_parseFresh {source : Text} {program : Program}
    (parsed : parseFresh Keywords.default source = .ok program) :
    ∃ front last after, scan Keywords.default source = .ok (front ++ [last]) ∧
      last.kind = .endOfInput ∧ (∀ token ∈ front, token.kind ≠ .endOfInput) ∧
        Grammar.program.run (Cursor.ofTokens (front ++ [last])) = .ok (program, after) := by
  obtain ⟨tokens, after, scanned, ran⟩ := parseFresh_eq_ok_iff.mp parsed
  obtain ⟨front, last, rfl, ended, proper⟩ := proper_of_scan scanned
  exact ⟨front, last, after, scanned, ended,
    fun token member => (proper token member).ne_endOfInput, ran⟩

/-- A program over tokens with one end of input, the last of them, is a phrase of all the others. -/
theorem Grammar.derives_front {front : List Token} {last : Token} {c after : Cursor}
    {program_ : Program} (ahead : c.upcoming = front ++ [last]) (ended : last.kind = .endOfInput)
    (inside : ∀ token ∈ front, token.kind ≠ .endOfInput)
    (ran : program.run c = .ok (program_, after)) : program_.Derives front := by
  have closed : c.Closed := ⟨last, by simp [ahead], ended⟩
  have consumes : Consumes (fun _ => True) program Program.Derives := consumes_program
  obtain ⟨taken, whole, derived⟩ := consumes c closed trivial _ _ ran
  have stopped := program_ends closed ran
  rw [ahead] at whole
  -- the parser stopped at an end of input, and there is only the last one
  rcases List.eq_nil_or_concat after.later with none | ⟨between, final, more⟩
  · rw [Cursor.upcoming, none] at whole
    rwa [(List.append_inj' whole rfl).1]
  · rw [Cursor.upcoming, more, List.concat_eq_append, ← List.cons_append, ← List.append_assoc]
      at whole
    have early : after.current ∈ front := by
      rw [(List.append_inj' whole rfl).1]
      simp
    exact absurd stopped (inside _ early)

/-- A source that is parsed has tokens, and its program is a phrase of all of them but the end of input,
each taken once and in order. -/
theorem parse_derives_source {source : Text} {program : Program}
    (parsed : Parser.parseFresh Keywords.default source = .ok program) :
    ∃ front last, scan Keywords.default source = .ok (front ++ [last]) ∧
      last.kind = .endOfInput ∧ (∀ token ∈ front, token.kind ≠ .endOfInput) ∧
        program.Derives front := by
  obtain ⟨front, last, after, scanned, ended, inside, ran⟩ := Parser.run_of_parseFresh parsed
  have ahead := upcoming_ofTokens front ended
  exact ⟨front, last, scanned, ended, inside, Grammar.derives_front ahead ended inside ran⟩

/-- A declaration with a comparison left over behind its value, a call with a member and an operator
behind it, and an operator without an operand. -/
def folding : Text := utf8 "let x = a = b - 1.5 * c++ == e; f(x).y++; ++"

theorem folding_derives_source :
    ∃ program front last, Parser.parseFresh Keywords.default folding = .ok program ∧
      scan Keywords.default folding = .ok (front ++ [last]) ∧ front.length = 25 ∧
        program.length = 3 ∧ program.Derives front := by
  have shape : ((Parser.parseFresh Keywords.default folding).toOption.map List.length,
      (scan Keywords.default folding).toOption.map List.length) = (some 3, some 26) := by
    decide +kernel
  rcases parsed : Parser.parseFresh Keywords.default folding with fault | program
  · rw [parsed] at shape
    cases shape
  · obtain ⟨front, last, scanned, -, -, derived⟩ := parse_derives_source parsed
    rw [parsed, scanned] at shape
    simp only [Except.toOption, Option.map_some, Prod.mk.injEq, Option.some.injEq,
      List.length_append, List.length_singleton] at shape
    exact ⟨program, front, last, rfl, scanned, by omega, shape.1, derived⟩

end Scriptlet
