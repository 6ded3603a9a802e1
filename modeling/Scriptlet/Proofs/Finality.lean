import Scriptlet.Proofs.Joining
import Scriptlet.Proofs.Places
/-!
Faults of grammar are final. A parser that refuses a token has not looked at those behind it, so a source
with such a fault has the same one whatever stands on further lines. Only what is missing at the end of a
source may still follow.
-/
namespace Scriptlet

theorem Diagnostic.showsEnd_iff (fault : Diagnostic) :
    fault.ShowsEnd ↔
      (fault.details.bind fun details => details.lookup (utf8 "Got")) =
        some (.text (utf8 "end of input")) :=
  Option.bind_eq_some_iff.symm

instance (fault : Diagnostic) : Decidable fault.ShowsEnd :=
  decidable_of_iff _ fault.showsEnd_iff.symm

/-- A program that is refused at one of the shared tokens is refused on both sequences. -/
theorem Grammar.fault_beside {turn : Turn} {xs : List Token} {c d : Cursor} {fault : Diagnostic}
    (beside : turn.Beside xs c d) (refused : program.run c = .error fault)
    (inside : ¬ fault.ShowsEnd) : program.run d = .error fault := by
  have agree : Parse.Agree turn 0 (xs.length + 1) 0 True program program := agree_program
  have met := agree xs c d (Nat.zero_le _) (Nat.lt_succ_self _) beside
  rw [refused] at met
  generalize program.run d = other at met ⊢
  cases met with
  | refused => rfl
  | ended stop =>
    cases stop with
    | refused _ shows => exact absurd shows inside

/-- A source with a fault of grammar has tokens, and the fault is that of the grammar over them. -/
theorem Parser.run_of_fault {keywords : Keywords} {source : Text} {fault : Diagnostic}
    (failed : parseFresh keywords source = .error fault) (grammar : fault.faultClass = .grammar) :
    ∃ tokens, scan keywords source = .ok tokens ∧
      Grammar.program.run (Cursor.ofTokens tokens) = .error fault := by
  rcases parseFresh_eq_error_iff.mp failed with unscanned | refused
  · have lexical := (ofByte_of_scanFrom unscanned).1
    rw [grammar] at lexical
    cases lexical
  · exact refused

/-- A fault of grammar that is not about the end of input is the fault of every longer source: whatever
stands on further lines, if only it can be scanned, the same token is blamed at the same place in the same
words. -/
theorem grammar_fault_final {keywords : Keywords} {a b : Text} {fault : Diagnostic}
    {tokens : List Token} (failed : Parser.parseFresh keywords a = .error fault)
    (grammar : fault.faultClass = .grammar) (inside : ¬ fault.ShowsEnd)
    (scanned : scan keywords b = .ok tokens) :
    Parser.parseFresh keywords (a ++ utf8 "\n" ++ b) = .error fault := by
  obtain ⟨own, scannedA, refused⟩ := Parser.run_of_fault failed grammar
  obtain ⟨front, finish, rfl, -⟩ := ended_of_scanFrom scannedA
  obtain ⟨finished, more, last, joint, ended, -⟩ := scan_line scannedA scanned
  let turn : Turn := ⟨finish, more ++ [last], finished, by simp⟩
  have beside : turn.Beside front (Cursor.ofTokens (front ++ [finish]))
      (Cursor.ofTokens (front ++ (more ++ [last]))) := by
    refine ⟨upcoming_ofTokens front finished, ?_⟩
    rw [← List.append_assoc, upcoming_ofTokens _ ended, List.append_assoc]
  have line : a ++ utf8 "\n" ++ b = a ++ Text.lineFeed :: b := by
    rw [List.append_assoc]
    rfl
  rw [line]
  exact Parser.parseFresh_eq_error_iff.mpr
    (.inr ⟨_, joint, Grammar.fault_beside beside refused inside⟩)

-- What is missing at the end of a source may follow.
example : (check [] (utf8 "f(")).isSome ∧ (check [] (utf8 "f(" ++ utf8 "\n" ++ utf8 ")")).isNone := by
  decide +kernel

/-- A conditional whose last link has no brace. -/
def unbraced : Text := utf8 "if (a) \x7b\n  f(1);\n\x7d else g();"

/-- A block that would be the body of that link. -/
def strayBody : Text := utf8 "\x7b g(); \x7d"

theorem unbraced_final :
    ∃ fault tokens, Parser.parseFresh Keywords.default unbraced = .error fault ∧
      fault.faultClass = .grammar ∧ ¬ fault.ShowsEnd ∧
        scan Keywords.default strayBody = .ok tokens ∧ fault.position = ⟨3, 8⟩ ∧
          fault.message = utf8 "expected LBRACE, got 'g'" ∧
            Parser.parseFresh Keywords.default (unbraced ++ utf8 "\n" ++ strayBody) =
              .error fault := by
  have shape : (check [] unbraced).map (fun fault =>
        (fault.faultClass, decide fault.ShowsEnd, fault.position, fault.message)) =
      some (.grammar, false, ⟨3, 8⟩, utf8 "expected LBRACE, got 'g'") := by decide +kernel
  have scans : (scan Keywords.default strayBody).isOk = true := by decide +kernel
  rw [check] at shape
  rcases failed : Parser.parseFresh Keywords.default unbraced with fault | program
  · rcases scanned : scan Keywords.default strayBody with other | tokens
    · rw [scanned] at scans
      cases scans
    · rw [failed] at shape
      simp only [if_true, Option.map_some, Option.some.injEq, Prod.mk.injEq,
        decide_eq_false_iff_not] at shape
      obtain ⟨grammar, inside, position, message⟩ := shape
      have final := grammar_fault_final failed grammar inside scanned
      exact ⟨fault, tokens, rfl, grammar, inside, rfl, position, message, final⟩
  · rw [failed] at shape
    cases shape

end Scriptlet
