import Scriptlet.Proofs.Blame
import Scriptlet.Proofs.Fallbacks
import Scriptlet.Proofs.RoundTrip
import Scriptlet.Proofs.Runs
import Scriptlet.Proofs.Stability
/-!
Checking agrees with running. The faults of scanning and parsing are those that a check finds, and the
faults of evaluation are of other classes; so a run fails with a fault of the source alone if and only
if a check does, with the same fault, and then it has done nothing.
-/
namespace Scriptlet

theorem LexicalFault.ofSource_diagnose (fault : LexicalFault) (p : Position) :
    (fault.diagnose p).OfSource := by
  cases fault <;> exact ⟨rfl, rfl⟩

theorem ofSource_of_scanFrom {keywords : Keywords} {p : Position} {source : Text} {fault : Diagnostic}
    (refused : scanFrom keywords p source = .error fault) : fault.OfSource := by
  fun_induction scanFrom keywords p source with
  | case1 => cases refused
  | case2 p source start byte rest gap found read =>
    cases refused
    exact found.ofSource_diagnose start
  | case3 p source start byte rest gap lexeme after read found later ih =>
    cases refused
    exact ih later
  | case4 => cases refused

/-- Whatever parsers refuse, with a sequence that goes nowhere but to its end. -/
theorem ofSource_of_program {xs : List Token} {last : Token} {c : Cursor} {fault : Diagnostic}
    (ahead : c.upcoming = xs ++ [last]) (ended : last.kind = .endOfInput)
    (refused : Grammar.program.run c = .error fault) : fault.OfSource := by
  let turn : Turn := ⟨last, [last], ended, List.cons_ne_nil _ _⟩
  have agree : Parse.Agree turn 0 (xs.length + 1) 0 True Grammar.program Grammar.program :=
    Grammar.agree_program
  have met := agree xs c c (Nat.zero_le _) (Nat.lt_succ_self _) ⟨ahead, ahead⟩
  rw [refused] at met
  cases met with
  | refused source => exact source
  | ended stop =>
    cases stop with
    | refused source _ => exact source

theorem ofSource_of_parseFresh {source : Text} {fault : Diagnostic}
    (refused : Parser.parseFresh Keywords.default source = .error fault) : fault.OfSource := by
  rcases Parser.parseFresh_eq_error_iff.mp refused with unscanned | ⟨tokens, scanned, ran⟩
  · exact ofSource_of_scanFrom unscanned
  · obtain ⟨front, last, rfl, ended, -⟩ := proper_of_scan scanned
    exact ofSource_of_program (upcoming_ofTokens front ended) ended ran

theorem Diagnostic.OfSource.orInFile {fault : Diagnostic} (source : fault.OfSource) (file : Text) :
    fault.orInFile file = if file = [] then fault else fault.inFile file := by
  rw [Diagnostic.orInFile, if_pos source.file]
  by_cases unnamed : file = []
  · rw [if_pos unnamed, unnamed, Diagnostic.inFile, ← source.file]
  · rw [if_neg unnamed]

theorem Diagnostic.class_orInFile (fault : Diagnostic) (file : Text) :
    (fault.orInFile file).faultClass = fault.faultClass := by
  unfold Diagnostic.orInFile
  split <;> rfl

namespace Interpreter

variable {i : Interpreter} {bound : Nat} {source : Text}

/-- A check finds the fault with which the interpreter refuses a source. -/
theorem Standard.check_of_error (standard : i.Standard) {fault : Diagnostic}
    (refused : (i.parse source).1 = .error fault) :
    check i.file source = some fault ∧ fault.isStatic = true := by
  obtain ⟨found, parsed, rfl⟩ := standard.parseFresh_of_error refused
  have ofSource := ofSource_of_parseFresh parsed
  rw [check, parsed, Diagnostic.isStatic, Diagnostic.class_orInFile]
  exact ⟨congrArg some (ofSource.orInFile i.file).symm, ofSource.isStatic⟩

theorem Standard.check_of_ok (standard : i.Standard) {program : Program}
    (parsed : (i.parse source).1 = .ok program) : check i.file source = none := by
  rw [check, standard.parseFresh parsed]

theorem dynamic_of_execute {program : Program} {fault : Diagnostic}
    (failed : (execute bound i program).1.outcome = .failed fault) :
    fault.faultClass = .resolution ∨ fault.faultClass = .type := by
  obtain ⟨found, after, ended, rfl⟩ := failed_of_execute failed
  -- what evaluation found gets the name of the file and keeps its class
  rw [Diagnostic.class_orInFile]
  exact (Program.blames_eval bound _ globalScope _ _ _ ended).dynamic

/-- On an interpreter with any history, a source has a fault in a check if and only if its run fails
with a fault of the source alone; the faults are the same, and the run has printed nothing and left the
store as it was. Where a check finds no fault, the run gives a result, halts or reaches its bound, or
fails on a name or a type. -/
theorem check_agrees_with_run {i : Interpreter} (reachable : i.Reachable) (bound : Nat)
    (source : Text) :
    (∀ fault, check i.file source = some fault ↔
        (i.run bound source).1.outcome = .failed fault ∧ fault.isStatic = true) ∧
      (∀ fault, check i.file source = some fault →
        (i.run bound source).2.store = i.store ∧ (i.run bound source).1.printed = []) ∧
      (check i.file source = none →
        (∃ value, (i.run bound source).1.outcome = .finished value) ∨
          (∃ halt, (i.run bound source).1.outcome = .halted halt) ∨
          (i.run bound source).1.outcome = .exhausted ∨
          ∃ fault, (i.run bound source).1.outcome = .failed fault ∧
            (fault.faultClass = .resolution ∨ fault.faultClass = .type)) := by
  have standard := reachable.standard_ready.1
  rcases parsed : (i.parse source).1 with found | program
  · obtain ⟨checked, static⟩ := standard.check_of_error parsed
    have outcome : (i.run bound source).1.outcome = .failed found := by rw [run_of_error parsed]
    have printed : (i.run bound source).1.printed = [] := by
      rw [run_of_error parsed, printed_cacheEvent_cons]
      rfl
    refine ⟨?_, ?_, ?_⟩
    · intro fault
      rw [checked, outcome]
      constructor
      · rintro ⟨⟩
        exact ⟨rfl, static⟩
      · rintro ⟨⟨⟩, _⟩
        rfl
    · intro fault _
      exact ⟨store_run_of_error parsed, printed⟩
    · intro unfound
      rw [checked] at unfound
      cases unfound
  · have checked := standard.check_of_ok parsed
    have outcome : (i.run bound source).1.outcome = (execute bound i program).1.outcome := by
      rw [run_of_ok parsed]
    refine ⟨?_, ?_, ?_⟩
    · intro fault
      constructor
      · rw [checked]
        rintro ⟨⟩
      · rintro ⟨failed, static⟩
        rw [outcome] at failed
        rcases dynamic_of_execute failed with resolution | type <;>
          simp [Diagnostic.isStatic, *] at static
    · rw [checked]
      rintro _ ⟨⟩
    · intro _
      rw [outcome]
      rcases ended : (execute bound i program).1.outcome with fault | halt | value | _
      · exact .inr (.inr (.inr ⟨fault, rfl, dynamic_of_execute ended⟩))
      · exact .inr (.inl ⟨halt, rfl⟩)
      · exact .inl ⟨value, rfl⟩
      · exact .inr (.inr (.inl rfl))

-- The first source has a fault that a check finds, the second one that only its run does.
theorem keeper_checks :
    (∃ fault, check keeper.file (utf8 "f(") = some fault ∧
        (keeper.run 9 (utf8 "f(")).1.outcome = .failed fault ∧
        (keeper.run 9 (utf8 "f(")).2.store = keeper.store) ∧
      check keeper.file (utf8 "f(1);") = none ∧
      ∃ fault, (keeper.run 9 (utf8 "f(1);")).1.outcome = .failed fault ∧
        (fault.faultClass = .resolution ∨ fault.faultClass = .type) := by
  have reachable : keeper.Reachable := .run _ _ (.fresh _ _)
  have found : (check keeper.file (utf8 "f(")).isSome = true := by decide +kernel
  obtain ⟨fault, checked⟩ := Option.isSome_iff_exists.mp found
  have clean : (check keeper.file (utf8 "f(1);")).isNone = true := by decide +kernel
  have unfound := Option.isNone_iff_eq_none.mp clean
  have first := check_agrees_with_run reachable 9 (utf8 "f(")
  have second := (check_agrees_with_run reachable 9 (utf8 "f(1);")).2.2 unfound
  refine ⟨⟨fault, checked, ((first.1 fault).mp checked).1, (first.2.1 fault checked).1⟩, unfound, ?_⟩
  have fails : (match (keeper.run 9 (utf8 "f(1);")).1.outcome with
      | .failed _ => true
      | _ => false) = true := by decide +kernel
  rcases second with ⟨value, ended⟩ | ⟨halt, ended⟩ | ended | failed
  · rw [ended] at fails
    cases fails
  · rw [ended] at fails
    cases fails
  · rw [ended] at fails
    cases fails
  · exact failed

end Interpreter

end Scriptlet
