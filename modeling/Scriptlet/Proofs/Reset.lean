import Scriptlet.Proofs.Runs
/-!
A reset gives a new interpreter. Only its parser, with what it remembers, outlives a reset, and a
parser with a faithful memory answers like one without; so no step that follows can tell what came
before, but for the records on what was at hand.
-/
namespace Scriptlet

/-- Whether an event tells if the tokens of a source were at hand. -/
def Event.isOnCache : Event → Bool
  | .printed _ => false
  | .record told =>
    told.message = utf8 "parse CACHE HIT" || told.message = utf8 "parse CACHE MISS"

namespace Interpreter

/-- What can be asked of an interpreter. -/
inductive Step where
  | run (bound : Nat) (source : Text)
  | runFile (bound : Nat) (files : Files) (path : Text)
  | parse (source : Text)
  | reset

inductive Answer where
  | ended (outcome : Outcome)
  | unreadable (fault : Text)
  | parsed (result : Except Diagnostic Program)
  | cleared

/-- What a step shows: its answer, what was printed and logged apart from the records on what was at
hand, and the variables afterwards. -/
structure Report where
  answer : Answer
  events : List Event
  bindings : List Binding

def report (answer : Answer) (events : List Event) (i : Interpreter) : Report × Interpreter :=
  (⟨answer, events.filter fun event => !event.isOnCache, i.userVariables⟩, i)

/-- Takes a step. -/
def take (i : Interpreter) : Step → Report × Interpreter
  | .run bound source =>
    let (run, after) := i.run bound source
    report (.ended run.outcome) run.events after
  | .runFile bound files path =>
    match i.runFile bound files path with
    | .error fault => report (.unreadable fault) [] i
    | .ok (run, after) => report (.ended run.outcome) run.events after
  | .parse source =>
    let (result, event, after) := i.parse source
    report (.parsed result) [event] after
  | .reset => report .cleared [] i.reset

/-- The interpreter after steps. -/
def afterSteps (i : Interpreter) : List Step → Interpreter
  | [] => i
  | step :: rest => (i.take step).2.afterSteps rest

/-- What steps show, one after another. -/
def reports (i : Interpreter) : List Step → List Report
  | [] => []
  | step :: rest => (i.take step).1 :: (i.take step).2.reports rest

theorem isOnCache_cacheEvent (i : Interpreter) (source : Text) :
    (i.cacheEvent source).isOnCache = true := by
  rcases i.cacheEvent_eq source with hit | ⟨scans, miss⟩
  · rw [hit]
    rfl
  · rw [miss]
    rfl

theorem runFile_of_read {i : Interpreter} {bound : Nat} {files : Files} {path source : Text}
    (read : files.read path = .ok source) :
    i.runFile bound files path = .ok (run bound { i with file := path } source) := by
  rw [Interpreter.runFile, read]

theorem runFile_of_unread {i : Interpreter} {bound : Nat} {files : Files} {path fault : Text}
    (unread : files.read path = .error fault) : i.runFile bound files path = .error fault := by
  rw [Interpreter.runFile, unread]

/-- Two interpreters that differ in what their parsers remember. -/
structure Alike (i j : Interpreter) : Prop where
  store : i.store = j.store
  file : i.file = j.file
  left : i.Standard
  right : j.Standard

variable {i j : Interpreter}

theorem Standard.renamed (standard : i.Standard) (file : Text) : Standard { i with file } :=
  ⟨standard.keywords, standard.faithful⟩

theorem Standard.reset (standard : i.Standard) : i.reset.Standard :=
  ⟨standard.keywords, standard.faithful⟩

theorem Alike.renamed (alike : i.Alike j) (file : Text) : Alike { i with file } { j with file } :=
  ⟨alike.store, rfl, alike.left.renamed file, alike.right.renamed file⟩

theorem Alike.parse (alike : i.Alike j) (source : Text) :
    (i.parse source).1 = (j.parse source).1 ∧
      (i.parse source).2.2.Alike (j.parse source).2.2 := by
  constructor
  · rw [alike.left.fst_parse, alike.right.fst_parse, alike.file]
  · exact ⟨alike.store, alike.file, alike.left.parse source, alike.right.parse source⟩

theorem Alike.execute (alike : i.Alike j) (bound : Nat) (program : Program) :
    (execute bound i program).1 = (execute bound j program).1 ∧
      (execute bound i program).2.store = (execute bound j program).2.store := by
  have same : j = { i with parser := j.parser } := by
    rw [alike.store, alike.file]
  have both := execute_parser_eq i bound program j.parser
  rw [← same] at both
  rw [both]
  exact ⟨rfl, rfl⟩

theorem Alike.run (alike : i.Alike j) (bound : Nat) (source : Text) :
    (i.run bound source).1.outcome = (j.run bound source).1.outcome ∧
      (i.run bound source).1.events.tail = (j.run bound source).1.events.tail ∧
      (i.run bound source).2.Alike (j.run bound source).2 := by
  have files : (i.run bound source).2.file = (j.run bound source).2.file := by
    rw [file_run, file_run, alike.file]
  have standards := And.intro (alike.left.run bound source) (alike.right.run bound source)
  have sameParse := (alike.parse source).1
  rcases parsed : (i.parse source).1 with fault | program
  · have stores : (i.run bound source).2.store = (j.run bound source).2.store := by
      rw [store_run_of_error parsed, store_run_of_error (sameParse ▸ parsed), alike.store]
    refine ⟨?_, ?_, ⟨stores, files, standards.1, standards.2⟩⟩
    · rw [run_of_error parsed, run_of_error (sameParse ▸ parsed)]
    · rw [run_of_error parsed, run_of_error (sameParse ▸ parsed)]
      rfl
  · obtain ⟨sameRun, sameStore⟩ := alike.execute bound program
    have stores : (i.run bound source).2.store = (j.run bound source).2.store := by
      rw [run_of_ok parsed, run_of_ok (sameParse ▸ parsed)]
      exact sameStore
    refine ⟨?_, ?_, ⟨stores, files, standards.1, standards.2⟩⟩
    · rw [run_of_ok parsed, run_of_ok (sameParse ▸ parsed), sameRun]
    · rw [run_of_ok parsed, run_of_ok (sameParse ▸ parsed), sameRun]
      rfl

theorem Alike.reset (alike : i.Alike j) : i.reset.Alike j.reset := by
  have stores : i.reset.store = j.reset.store := by simp only [Interpreter.reset, alike.store]
  exact ⟨stores, alike.file, alike.left.reset, alike.right.reset⟩

theorem events_run (i : Interpreter) (bound : Nat) (source : Text) :
    (i.run bound source).1.events =
      i.cacheEvent source :: (i.run bound source).1.events.tail := by
  rcases parsed : (i.parse source).1 with fault | program
  · rw [run_of_error parsed]
    rfl
  · rw [run_of_ok parsed]
    rfl

theorem Alike.report (alike : i.Alike j) (answer : Answer) (events : List Event) :
    (i.report answer events).1 = (j.report answer events).1 := by
  simp only [Interpreter.report, userVariables, alike.store]

theorem report_cons_cacheEvent (i j : Interpreter) (source : Text) (answer : Answer)
    (events : List Event) :
    i.report answer (j.cacheEvent source :: events) = i.report answer events := by
  simp only [Interpreter.report, List.filter_cons, isOnCache_cacheEvent, Bool.not_true,
    Bool.false_eq_true, if_false]

theorem Alike.report_run (alike : i.Alike j) (bound : Nat) (source : Text) :
    ((i.run bound source).2.report (.ended (i.run bound source).1.outcome)
        (i.run bound source).1.events).1 =
      ((j.run bound source).2.report (.ended (j.run bound source).1.outcome)
        (j.run bound source).1.events).1 ∧ (i.run bound source).2.Alike (j.run bound source).2 := by
  obtain ⟨outcome, events, after⟩ := alike.run bound source
  refine ⟨?_, after⟩
  rw [events_run, events_run j, report_cons_cacheEvent, report_cons_cacheEvent, outcome, events]
  exact after.report _ _

theorem Alike.take (alike : i.Alike j) (step : Step) :
    (i.take step).1 = (j.take step).1 ∧ (i.take step).2.Alike (j.take step).2 := by
  cases step with
  | run bound source => exact alike.report_run bound source
  | runFile bound files path =>
    simp only [Interpreter.take]
    cases read : files.read path with
    | error fault =>
      rw [runFile_of_unread read, runFile_of_unread read]
      exact ⟨alike.report _ _, alike⟩
    | ok source =>
      rw [runFile_of_read read, runFile_of_read read]
      exact (alike.renamed path).report_run bound source
  | parse source =>
    obtain ⟨same, after⟩ := alike.parse source
    refine ⟨?_, after⟩
    change ((i.parse source).2.2.report (.parsed (i.parse source).1) [i.cacheEvent source]).1 =
      ((j.parse source).2.2.report (.parsed (j.parse source).1) [j.cacheEvent source]).1
    rw [report_cons_cacheEvent, report_cons_cacheEvent, same]
    exact after.report _ _
  | reset => exact ⟨alike.reset.report _ _, alike.reset⟩

theorem Alike.reports (alike : i.Alike j) (steps : List Step) :
    i.reports steps = j.reports steps := by
  induction steps generalizing i j with
  | nil => rfl
  | cons step rest ih =>
    obtain ⟨same, after⟩ := alike.take step
    rw [Interpreter.reports, Interpreter.reports, same, ih after]

/-- A step keeps a standard parser, and only takes readings from the machine. -/
theorem Standard.take (standard : i.Standard) (step : Step) :
    (i.take step).2.Standard ∧ i.store.machine.Later (i.take step).2.store.machine := by
  cases step with
  | run bound source => exact ⟨standard.run bound source, later_run i bound source⟩
  | runFile bound files path =>
    simp only [Interpreter.take]
    cases read : files.read path with
    | error fault =>
      rw [runFile_of_unread read]
      exact ⟨standard, .refl _⟩
    | ok source =>
      rw [runFile_of_read read]
      exact ⟨(standard.renamed path).run bound source, later_run _ bound source⟩
  | parse source => exact ⟨standard.parse source, .refl _⟩
  | reset => exact ⟨standard.reset, .refl _⟩

theorem Standard.afterSteps (standard : i.Standard) (steps : List Step) :
    (i.afterSteps steps).Standard ∧ i.store.machine.Later (i.afterSteps steps).store.machine := by
  induction steps generalizing i with
  | nil => exact ⟨standard, .refl _⟩
  | cons step rest ih =>
    obtain ⟨kept, later⟩ := standard.take step
    obtain ⟨keptAll, laterAll⟩ := ih kept
    exact ⟨keptAll, later.trans laterAll⟩

/-- After any history and a reset, all further steps show what they show on a new interpreter with the
same file and with the machine that the history leaves, which only took readings of its clock. -/
theorem reports_reset (machine : Machine) (file : Text) (history further : List Step) :
    let left := (fresh machine file).afterSteps history
    machine.Later left.store.machine ∧
      left.reset.reports further = (fresh left.store.machine left.file).reports further := by
  intro left
  obtain ⟨standard, later⟩ := (standard_fresh machine file).afterSteps history
  have alike : left.reset.Alike (fresh left.store.machine left.file) :=
    ⟨rfl, rfl, standard.reset, standard_fresh _ _⟩
  exact ⟨later, alike.reports further⟩

end Interpreter

end Scriptlet
