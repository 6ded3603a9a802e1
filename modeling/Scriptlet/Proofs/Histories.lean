import Scriptlet.Proofs.Memory
import Scriptlet.Proofs.Tasks
/-!
Histories of an interpreter: what any series of runs, parses and resets leads to. A run evaluates the
program that its source is parsed to, in the store that the runs before it left.
-/
namespace Scriptlet.Interpreter

/-- The evaluation that running a parsed program comes to. -/
def task (i : Interpreter) (bound : Nat) (program : Program) : Task :=
  ⟨bound, .program program, globalScope, i.store⟩

/-- The interpreters that can come about. -/
inductive Reachable : Interpreter → Prop where
  | fresh (machine : Machine) (file : Text) : Reachable (fresh machine file)
  | run {i} (bound : Nat) (source : Text) : Reachable i → Reachable (i.run bound source).2
  | runFile {i bound files path result after} :
      Reachable i → i.runFile bound files path = .ok (result, after) → Reachable after
  | parse {i} (source : Text) : Reachable i → Reachable (i.parse source).2.2
  | reset {i} : Reachable i → Reachable i.reset

theorem parse_eq_ok_iff {i : Interpreter} {source : Text} {program : Program} :
    (i.parse source).1 = .ok program ↔ (i.parser.parse source).1 = .ok program := by
  simp only [Interpreter.parse]
  split
  · rename_i parsed
    rw [parsed]
  · rename_i refused
    rw [refused]
    simp

theorem frames_execute (i : Interpreter) (bound : Nat) (program : Program) :
    (execute bound i program).2.store.frames = (i.task bound program).outcome.2.frames := by
  cases program <;> rfl

theorem parser_execute (i : Interpreter) (bound : Nat) (program : Program) :
    (execute bound i program).2.parser = i.parser := by
  cases program <;> rfl

theorem parser_run (i : Interpreter) (bound : Nat) (source : Text) :
    (i.run bound source).2.parser = (i.parser.parse source).2 := by
  unfold Interpreter.run
  split
  · rename_i parsed
    exact congrArg (·.2.2.parser) parsed.symm
  · rename_i parsed
    rw [parser_execute]
    exact congrArg (·.2.2.parser) parsed.symm

/-- A run leaves the frames as they are or as the evaluation of its program leaves them. -/
theorem frames_run (i : Interpreter) (bound : Nat) (source : Text) :
    (i.run bound source).2.store.frames = i.store.frames ∨
      ∃ program, (i.parse source).1 = .ok program ∧
        (i.run bound source).2.store.frames = (i.task bound program).outcome.2.frames := by
  rcases parsed : i.parse source with ⟨fault | program, event, after⟩
  · left
    have same : after.store = i.store := congrArg (·.2.2.store) parsed.symm
    rw [Interpreter.run, parsed]
    exact congrArg Store.frames same
  · right
    have same : after.store = i.store := congrArg (·.2.2.store) parsed.symm
    refine ⟨program, rfl, ?_⟩
    rw [Interpreter.run, parsed]
    change (execute bound after program).2.store.frames = _
    rw [frames_execute, task, task, same]

/-- What is true of new interpreters, does not depend on the name of the file, and outlasts runs,
parses and resets is true of all interpreters that can come about. -/
theorem Reachable.holds (property : Interpreter → Prop)
    (new : ∀ machine file, property (Interpreter.fresh machine file))
    (renamed : ∀ i file, property i → property { i with file })
    (ran : ∀ i bound source, property i → property (i.run bound source).2)
    (parsed : ∀ i source, property i → property (i.parse source).2.2)
    (cleared : ∀ i, property i → property i.reset) {i : Interpreter} (reachable : i.Reachable) :
    property i := by
  induction reachable with
  | fresh machine file => exact new machine file
  | run bound source _ ih => exact ran _ bound source ih
  | @runFile i bound files path result after _ ended ih =>
    -- running a file is running its content under another name
    unfold Interpreter.runFile at ended
    split at ended
    · cases ended
    · rename_i source _
      have last : after = (Interpreter.run bound { i with file := path } source).2 := by
        injection ended with both
        rw [both]
      exact last ▸ ran _ bound source (renamed i path ih)
  | parse source _ ih => exact parsed _ source ih
  | reset _ ih => exact cleared _ ih

/-- The parser has the reserved words of the language and a faithful memory. -/
structure Standard (i : Interpreter) : Prop where
  keywords : i.parser.keywords = Keywords.default
  faithful : i.parser.Faithful

theorem Standard.parse {i : Interpreter} (standard : i.Standard) (source : Text) :
    (i.parse source).2.2.Standard :=
  ⟨(i.parser.keywords_parse source).trans standard.keywords, (standard.faithful.parse source).2⟩

theorem Standard.run {i : Interpreter} (standard : i.Standard) (bound : Nat) (source : Text) :
    (i.run bound source).2.Standard := by
  have after := standard.parse source
  constructor
  · rw [parser_run]
    exact after.keywords
  · rw [parser_run]
    exact after.faithful

theorem standard_fresh (machine : Machine) (file : Text) : (fresh machine file).Standard := by
  constructor
  · rfl
  · rintro _ _ ⟨⟩

/-- A source is parsed to the program that a parser without a memory reads. -/
theorem Standard.parseFresh {i : Interpreter} (standard : i.Standard) {source : Text}
    {program : Program} (parsed : (i.parse source).1 = .ok program) :
    Parser.parseFresh Keywords.default source = .ok program := by
  rw [← standard.keywords, ← (standard.faithful.parse source).1]
  exact parse_eq_ok_iff.mp parsed

end Scriptlet.Interpreter
