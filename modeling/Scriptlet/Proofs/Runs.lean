import Scriptlet.Proofs.Histories
import Scriptlet.Proofs.Persistence
/-!
What a run comes to. Between two runs nothing printed is left in the store, so a run is the evaluation
of its program in the store that was left: what the evaluation prints is what the run prints, and the
store that it leaves is kept without the prints.
-/
namespace Scriptlet

/-- The machine when some more readings have been taken. -/
def Machine.Later (m later : Machine) : Prop := ∃ taken, later = m.after taken

theorem Machine.Later.refl (m : Machine) : m.Later m := ⟨0, m.after_zero.symm⟩

theorem Machine.Later.trans {m between later : Machine} (first : m.Later between)
    (second : between.Later later) : m.Later later := by
  obtain ⟨some_, rfl⟩ := first
  obtain ⟨more, rfl⟩ := second
  exact ⟨some_ + more, m.after_after some_ more⟩

theorem Policy.Change.later {policy : Policy} {store after : Store}
    (change : policy.Change store after) : store.machine.Later after.machine := by
  cases change with
  | read => exact ⟨1, rfl⟩
  | _ => exact .refl _

theorem Policy.Changes.later {policy : Policy} {store after : Store}
    (changes : policy.Changes store after) : store.machine.Later after.machine := by
  induction changes with
  | refl => exact .refl _
  | tail _ change ih => exact ih.trans change.later

theorem Task.later_outcome (task : Task) : task.store.machine.Later task.outcome.2.machine :=
  (Store.Evaluates.step task.store task.bound task.node task.scope).changes.later

namespace Run

theorem printed_append (events more : List Event) (outcome : Outcome) :
    printed ⟨events ++ more, outcome⟩ = printed ⟨events, outcome⟩ ++ printed ⟨more, outcome⟩ :=
  List.filterMap_append

theorem printed_map (all : List Printed) (outcome : Outcome) :
    printed ⟨all.map .printed, outcome⟩ = all := by
  rw [printed, List.filterMap_map]
  exact List.filterMap_some

end Run

namespace Interpreter

variable {i : Interpreter} {bound : Nat} {source : Text} {program : Program} {fault : Diagnostic}

/-- The event that tells whether the tokens of a source were at hand. -/
def cacheEvent (i : Interpreter) (source : Text) : Event := (i.parse source).2.1

theorem cacheEvent_eq (i : Interpreter) (source : Text) :
    i.cacheEvent source = i.note "parse CACHE HIT" [] ∨
      ∃ scans, i.cacheEvent source = i.note "parse CACHE MISS" [(utf8 "scans", .integer scans)] := by
  unfold cacheEvent Interpreter.parse
  dsimp only
  split
  · exact .inl rfl
  · exact .inr ⟨_, rfl⟩

theorem exists_record_cacheEvent (i : Interpreter) (source : Text) :
    ∃ told, i.cacheEvent source = .record told := by
  rcases i.cacheEvent_eq source with hit | ⟨scans, miss⟩
  · exact ⟨_, hit⟩
  · exact ⟨_, miss⟩

theorem printed_cacheEvent_cons (i : Interpreter) (source : Text) (events : List Event)
    (outcome : Outcome) :
    Run.printed ⟨i.cacheEvent source :: events, outcome⟩ = Run.printed ⟨events, outcome⟩ := by
  obtain ⟨told, same⟩ := i.exists_record_cacheEvent source
  rw [same]
  rfl

/-- Parsing gives what a parser without a memory gives, with the name of the file in the fault. -/
theorem Standard.fst_parse (standard : i.Standard) (source : Text) :
    (i.parse source).1 =
      (Parser.parseFresh Keywords.default source).mapError (Diagnostic.orInFile · i.file) := by
  rw [← standard.keywords, ← (standard.faithful.parse source).1]
  simp only [Interpreter.parse]
  rcases (i.parser.parse source).1 with fault | program <;> rfl

theorem Standard.parseFresh_of_error (standard : i.Standard)
    (refused : (i.parse source).1 = .error fault) :
    ∃ found, Parser.parseFresh Keywords.default source = .error found ∧
      fault = found.orInFile i.file := by
  rw [standard.fst_parse] at refused
  rcases read : Parser.parseFresh Keywords.default source with found | program
  · rw [read] at refused
    cases refused
    exact ⟨found, rfl, rfl⟩
  · rw [read] at refused
    cases refused

theorem Standard.parse_of_parseFresh (standard : i.Standard)
    (parsed : Parser.parseFresh Keywords.default source = .ok program) :
    (i.parse source).1 = .ok program := by
  rw [standard.fst_parse, parsed]
  rfl

theorem run_of_error (refused : (i.parse source).1 = .error fault) :
    i.run bound source =
      (⟨[i.cacheEvent source], .failed fault⟩, { i with parser := (i.parser.parse source).2 }) := by
  rcases parsed : i.parse source with ⟨result, event, after⟩
  obtain rfl : result = .error fault := by rw [← refused, parsed]
  rw [Interpreter.run, parsed, cacheEvent, parsed]
  exact congrArg (Prod.mk _) (congrArg (·.2.2) parsed.symm)

theorem execute_parser_eq (i : Interpreter) (bound : Nat) (program : Program) (parser : Parser) :
    execute bound { i with parser } program =
      ((execute bound i program).1, { (execute bound i program).2 with parser }) := by
  cases program <;> rfl

theorem run_of_ok (parsed : (i.parse source).1 = .ok program) :
    i.run bound source =
      (⟨i.cacheEvent source :: (execute bound i program).1.events,
          (execute bound i program).1.outcome⟩,
        { (execute bound i program).2 with parser := (i.parser.parse source).2 }) := by
  rcases all : i.parse source with ⟨result, event, after⟩
  obtain rfl : result = .ok program := by rw [← parsed, all]
  obtain rfl : after = { i with parser := (i.parser.parse source).2 } :=
    congrArg (·.2.2) all.symm
  rw [Interpreter.run, all, cacheEvent, all]
  simp only [execute_parser_eq]

/-- What a run of a source comes to is what the execution of its program does. -/
theorem seen_run_of_ok (parsed : (i.parse source).1 = .ok program) (bound : Nat) :
    (i.run bound source).1.outcome = (execute bound i program).1.outcome ∧
      (i.run bound source).1.printed = (execute bound i program).1.printed ∧
      (i.run bound source).2.store = (execute bound i program).2.store := by
  rw [run_of_ok parsed]
  exact ⟨rfl, printed_cacheEvent_cons i source _ _, rfl⟩

theorem store_run_of_error (refused : (i.parse source).1 = .error fault) :
    (i.run bound source).2.store = i.store := by
  rw [run_of_error refused]

theorem file_execute (i : Interpreter) (bound : Nat) (program : Program) :
    (execute bound i program).2.file = i.file := by
  cases program <;> rfl

theorem file_run (i : Interpreter) (bound : Nat) (source : Text) :
    (i.run bound source).2.file = i.file := by
  rcases parsed : (i.parse source).1 with fault | program
  · rw [run_of_error parsed]
  · rw [run_of_ok parsed]
    exact file_execute i bound program

theorem later_run (i : Interpreter) (bound : Nat) (source : Text) :
    i.store.machine.Later (i.run bound source).2.store.machine := by
  rcases parsed : (i.parse source).1 with fault | program
  · rw [store_run_of_error parsed]
    exact .refl _
  · rw [run_of_ok parsed]
    cases program with
    | nil => exact .refl _
    | cons statement rest => exact (i.task bound (statement :: rest)).later_outcome

/-- Nothing printed is left in the store. -/
def Quiet (i : Interpreter) : Prop := i.store.printed = []

theorem outcome_execute (nonempty : program ≠ []) :
    (execute bound i program).1.outcome = (i.conclude (i.task bound program).outcome.1).1 := by
  cases program with
  | nil => contradiction
  | cons statement rest => rfl

/-- A fault of an execution is one of its evaluation, with the name of the file. -/
theorem failed_of_execute (failed : (execute bound i program).1.outcome = .failed fault) :
    ∃ found after, (i.task bound program).outcome = (.error (.failed found), after) ∧
      fault = found.orInFile i.file := by
  cases program with
  | nil => cases failed
  | cons statement rest =>
    rw [outcome_execute (List.cons_ne_nil _ _)] at failed
    rcases ended : (i.task bound (statement :: rest)).outcome with
      ⟨(found | halt | _) | value, after⟩
    all_goals
      rw [ended] at failed
      cases failed
    exact ⟨found, after, rfl, rfl⟩

theorem printed_conclude (i : Interpreter) (result : Except Stop Value) (outcome : Outcome) :
    Run.printed ⟨(i.conclude result).2, outcome⟩ = [] := by
  rcases result with (_ | _ | _) | value <;> rfl

theorem Quiet.printed_execute (quiet : i.Quiet) :
    (execute bound i program).1.printed = (i.task bound program).outcome.2.printed.reverse := by
  cases program with
  | nil =>
    change [] = i.store.printed.reverse
    rw [quiet, List.reverse_nil]
  | cons statement rest =>
    change Run.printed ⟨_ ++ (i.conclude _).2, _⟩ = _
    rw [Run.printed_append, Run.printed_map, printed_conclude, List.append_nil]
    rfl

theorem Quiet.store_execute (quiet : i.Quiet) :
    (execute bound i program).2.store = { (i.task bound program).outcome.2 with printed := [] } := by
  cases program with
  | nil =>
    change i.store = { i.store with printed := [] }
    rw [← quiet]
  | cons statement rest => rfl

theorem Quiet.run (quiet : i.Quiet) (bound : Nat) (source : Text) :
    (i.run bound source).2.Quiet := by
  rcases parsed : (i.parse source).1 with fault | program
  · rw [Quiet, store_run_of_error parsed]
    exact quiet
  · rw [run_of_ok parsed, Quiet]
    dsimp only
    rw [quiet.store_execute]

theorem Reachable.quiet (reachable : i.Reachable) : i.Quiet :=
  reachable.holds Quiet (fun _ _ => rfl) (fun _ _ quiet => quiet)
    (fun _ bound source quiet => quiet.run bound source) (fun _ _ quiet => quiet) (fun _ _ => rfl)

end Interpreter

end Scriptlet
