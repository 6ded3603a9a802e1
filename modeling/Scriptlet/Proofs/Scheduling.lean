import Mathlib.Data.List.Nodup
import Mathlib.Data.List.Forall2
import Scriptlet.Cli.Check
/-!
Schedules of a check. The tasks may start and finish in any order, as long as none finishes before it
starts. What is found out so far depends on the finished tasks alone: each has filled the slot of its
file, or the first that could not read its file has cancelled the check. So what a check shows in the
end is what checking the files one after another shows.
-/
namespace Scriptlet.Cli

/-- The orders in which the tasks of a check can take their steps: each starts once, and finishes once
behind that. -/
structure IsSchedule (count : Nat) (schedule : List CheckStep) : Prop where
  steps : schedule.Perm (inOrder count)
  starts : ∀ task < count, List.Sublist [.start task, .finish task] schedule

/-- What checking files one after another has shown, and how many of them have faults. -/
structure Checked where
  out : Text := []
  err : Text := []
  faulty : Nat := 0
  deriving DecidableEq

/-- Checks one more file. -/
def Checked.add (checked : Checked) (path source : Text) : Checked :=
  match check path source with
  | none => { checked with out := checked.out ++ path ++ utf8 ": ok\n" }
  | some fault =>
    { checked with err := checked.err ++ faultReport fault source, faulty := checked.faulty + 1 }

/-- Checks files one after another, each read when it is its turn. -/
def checkInTurn (files : Files) : Checked → List Text → Except Text Checked
  | checked, [] => .ok checked
  | checked, path :: rest =>
    match files.read path with
    | .error fault => .error fault
    | .ok source => checkInTurn files (checked.add path source) rest

/-- What is said behind all reports: how many of the files have faults, if any has. -/
def Checked.tally (checked : Checked) (count : Nat) : Text :=
  if 0 < checked.faulty then
    Text.ofNat checked.faulty ++ utf8 " of " ++ Text.ofNat count ++ utf8 " files have errors\n"
  else []

section Orders

theorem mem_inOrder {count : Nat} {step : CheckStep} :
    step ∈ inOrder count ↔ ∃ task < count, step = .start task ∨ step = .finish task := by
  simp [inOrder]

theorem nodup_inOrder (count : Nat) : (inOrder count).Nodup := by
  rw [inOrder, List.nodup_flatMap]
  refine ⟨by simp, List.nodup_range.imp ?_⟩
  intro task other different
  simp [Function.onFun, List.disjoint_left, different]

theorem isSchedule_inOrder (count : Nat) : IsSchedule count (inOrder count) := by
  refine ⟨.refl _, ?_⟩
  intro task inside
  exact List.sublist_flatten_of_mem (List.mem_map.mpr ⟨task, List.mem_range.mpr inside, rfl⟩)

variable {count : Nat} {schedule : List CheckStep}

theorem IsSchedule.nodup (orders : IsSchedule count schedule) : schedule.Nodup :=
  orders.steps.nodup_iff.mpr (nodup_inOrder count)

theorem IsSchedule.finishes (orders : IsSchedule count schedule) {task : Nat} (inside : task < count) :
    .finish task ∈ schedule :=
  (orders.starts task inside).subset (by simp)

/-- What comes first of two that come in turn comes before the other, if that comes only once. -/
theorem mem_of_pair_sublist {α : Type} {first second : α} {before after : List α}
    (inTurn : List.Sublist [first, second] (before ++ second :: after))
    (nodup : (before ++ second :: after).Nodup) : first ∈ before := by
  have fresh : second ∉ after := fun later =>
    (List.nodup_cons.mp (List.nodup_middle.mp nodup)).1 (List.mem_append_right _ later)
  obtain ⟨left, right, split, within, behind⟩ := List.sublist_append_iff.mp inTurn
  cases left with
  | nil =>
    rw [List.nil_append] at split
    rw [← split] at behind
    exact absurd (behind.tail.subset List.mem_cons_self) fresh
  | cons head rest =>
    obtain ⟨rfl, -⟩ := List.cons.inj split
    exact within.subset List.mem_cons_self

/-- A step that can be the next one behind others. -/
inductive Due (count : Nat) (done : List CheckStep) : CheckStep → Prop where
  | start {task} : .start task ∉ done → .finish task ∉ done → Due count done (.start task)
  | finish {task} :
      task < count → .start task ∈ done → .finish task ∉ done → Due count done (.finish task)

theorem IsSchedule.due {done rest : List CheckStep} {step : CheckStep}
    (orders : IsSchedule count (done ++ step :: rest)) : Due count done step := by
  have nodup := orders.nodup
  have fresh : step ∉ done := fun early =>
    (List.nodup_cons.mp (List.nodup_middle.mp nodup)).1 (List.mem_append_left _ early)
  obtain ⟨task, inside, rfl | rfl⟩ := mem_inOrder.mp (orders.steps.subset (by simp : step ∈ _))
  · refine .start fresh ?_
    intro early
    obtain ⟨before, between, rfl⟩ := List.append_of_mem early
    rw [List.append_assoc, List.cons_append] at orders nodup
    have started := mem_of_pair_sublist (orders.starts task inside) nodup
    exact fresh (List.mem_append_left _ started)
  · exact .finish inside (mem_of_pair_sublist (orders.starts task inside) nodup) fresh

end Orders

namespace CheckGroup

variable {files : Files} {paths : List Text} {done : List CheckStep} {group : CheckGroup}

/-- The failure of a check that could not read one of its files. -/
def Unreadable (files : Files) (paths : List Text) (failure : Text) : Prop :=
  ∃ path ∈ paths, ∃ fault, files.read path = .error fault ∧
    failure = utf8 "reading " ++ path ++ utf8 ": " ++ fault

/-- The verdicts on files, in the order of the files. -/
abbrev Judged (files : Files) (paths : List Text) (verdicts : List Verdict) : Prop :=
  List.Forall₂ (fun path found => verdict files path = .ok found) paths verdicts

/-- A task that could not read its file has cancelled the check. -/
structure Failed (files : Files) (paths : List Text) (group : CheckGroup) : Prop where
  cancelled : group.cancelled = true
  blamed : ∃ failure, group.failure = some failure ∧ Unreadable files paths failure

/-- All tasks that have finished could read their files and have filled their slots. -/
structure Underway (files : Files) (paths : List Text) (done : List CheckStep) (group : CheckGroup) :
    Prop where
  goesOn : group.cancelled = false
  unfailed : group.failure = none
  distinct : group.running.Nodup
  running : ∀ task, task ∈ group.running ↔ .start task ∈ done ∧ .finish task ∉ done
  slots : group.verdicts.length = paths.length
  filled : ∀ task, .finish task ∈ done → ∃ path found, paths[task]? = some path ∧
    verdict files path = .ok found ∧ group.verdicts[task]? = some found

theorem underway_initial (files : Files) (paths : List Text) :
    Underway files paths [] (initial false paths.length) := by
  refine ⟨rfl, rfl, .nil, ?_, by simp [initial], ?_⟩
  · intro task
    simp [initial]
  · rintro _ ⟨⟩

theorem verdict_of_read {path source : Text} (read : files.read path = .ok source) :
    verdict files path = .ok { source, fault := check path source } := by
  rw [verdict, read]

theorem verdict_of_unread {path fault : Text} (unread : files.read path = .error fault) :
    verdict files path = .error (utf8 "reading " ++ path ++ utf8 ": " ++ fault) := by
  rw [verdict, unread]

/-- A check that has failed keeps its failure, whatever its tasks still do. -/
theorem Failed.advance (failed : Failed files paths group) (step : CheckStep) :
    Failed files paths (group.advance files paths step) := by
  obtain ⟨cancelled, failure, found, unreadable⟩ := failed
  cases step with
  | start task =>
    simp only [CheckGroup.advance, cancelled, if_true]
    exact ⟨rfl, failure, by simp [fail, found], unreadable⟩
  | finish task =>
    simp only [CheckGroup.advance]
    split
    · exact ⟨cancelled, failure, found, unreadable⟩
    · split
      · split
        · exact ⟨rfl, failure, by simp [fail, found], unreadable⟩
        · exact ⟨cancelled, failure, found, unreadable⟩
      · exact ⟨cancelled, failure, found, unreadable⟩

theorem Underway.start (underway : Underway files paths done group) {task : Nat}
    (unstarted : .start task ∉ done) (unfinished : .finish task ∉ done) :
    Underway files paths (done ++ [.start task]) (group.advance files paths (.start task)) := by
  have idle : task ∉ group.running := fun runs => unstarted ((underway.running task).mp runs).1
  rw [CheckGroup.advance, if_neg (by simp [underway.goesOn])]
  refine { underway with distinct := List.nodup_cons.mpr ⟨idle, underway.distinct⟩, running := ?_
                         filled := ?_ }
  · intro other
    by_cases same : other = task
    · subst same
      simp [unfinished]
    · simp [same, underway.running other]
  · intro other finished
    exact underway.filled other (by simpa using finished)

theorem Underway.finish (underway : Underway files paths done group) {task : Nat}
    (inside : task < paths.length) (started : .start task ∈ done) (unfinished : .finish task ∉ done) :
    Underway files paths (done ++ [.finish task]) (group.advance files paths (.finish task)) ∨
      Failed files paths (group.advance files paths (.finish task)) := by
  have runs : task ∈ group.running := (underway.running task).mpr ⟨started, unfinished⟩
  have own : paths[task]? = some paths[task] := List.getElem?_eq_getElem inside
  simp only [CheckGroup.advance, own, runs, if_true]
  cases read : files.read paths[task] with
  | error fault =>
    right
    simp only [verdict_of_unread read]
    exact ⟨rfl, _, by simp [fail, underway.unfailed], _, List.getElem_mem inside, fault, read, rfl⟩
  | ok source =>
    left
    simp only [verdict_of_read read]
    refine { underway with distinct := underway.distinct.erase task, running := ?_
                           slots := by simp [underway.slots], filled := ?_ }
    · intro other
      rw [underway.distinct.mem_erase_iff, underway.running]
      by_cases same : other = task
      · subst same
        simp
      · simp [same]
    · intro other finished
      by_cases same : other = task
      · subst same
        exact ⟨_, _, own, verdict_of_read read, by simp [underway.slots, inside]⟩
      · obtain ⟨path, found, at_, read, filled⟩ :=
          underway.filled other (by simpa [same] using finished)
        exact ⟨path, found, at_, read, by rwa [List.getElem?_set_ne (Ne.symm same)]⟩

theorem Underway.advance (underway : Underway files paths done group) {step : CheckStep}
    (due : Due paths.length done step) :
    Underway files paths (done ++ [step]) (group.advance files paths step) ∨
      Failed files paths (group.advance files paths step) := by
  cases due with
  | start unstarted unfinished => exact .inl (underway.start unstarted unfinished)
  | finish inside started unfinished => exact underway.finish inside started unfinished

theorem Failed.advanceAll (failed : Failed files paths group) (rest : List CheckStep) :
    Failed files paths (group.advanceAll files paths rest) := by
  induction rest generalizing group with
  | nil => exact failed
  | cons step rest ih => exact ih (failed.advance step)

theorem Underway.advanceAll {rest : List CheckStep} (underway : Underway files paths done group)
    (orders : IsSchedule paths.length (done ++ rest)) :
    Underway files paths (done ++ rest) (group.advanceAll files paths rest) ∨
      Failed files paths (group.advanceAll files paths rest) := by
  induction rest generalizing done group with
  | nil => exact .inl (by simpa [CheckGroup.advanceAll] using underway)
  | cons step rest ih =>
    rcases underway.advance orders.due with next | failed
    · rw [List.append_cons] at orders ⊢
      exact ih next orders
    · exact .inr (failed.advanceAll rest)

/-- Tasks that have all finished have a verdict on each file, in the order of the files. -/
theorem Underway.verdicts {schedule : List CheckStep}
    (underway : Underway files paths schedule group)
    (orders : IsSchedule paths.length schedule) :
    Judged files paths group.verdicts := by
  refine List.forall₂_iff_get.mpr ⟨underway.slots.symm, ?_⟩
  intro task inside within
  obtain ⟨path, found, own, read, filled⟩ := underway.filled task (orders.finishes inside)
  rw [List.getElem?_eq_getElem inside] at own
  rw [List.getElem?_eq_getElem within] at filled
  cases own
  cases filled
  exact read

/-- Tasks that have all taken their steps have a verdict on each file, or one could not read its
file. -/
theorem ended (files : Files) {schedule : List CheckStep}
    (orders : IsSchedule paths.length schedule) :
    (((initial false paths.length).advanceAll files paths schedule).failure = none ∧
        Judged files paths
          ((initial false paths.length).advanceAll files paths schedule).verdicts) ∨
      Failed files paths ((initial false paths.length).advanceAll files paths schedule) := by
  have behindNone : IsSchedule paths.length ([] ++ schedule) := orders
  rcases (underway_initial files paths).advanceAll behindNone with underway | failed
  · exact .inl ⟨underway.unfailed, underway.verdicts orders⟩
  · exact .inr failed

end CheckGroup

section Reports
variable {files : Files} {paths : List Text} {verdicts : List Verdict}

theorem Checked.add_eq (checked : Checked) (path source : Text) :
    let shown := [({ source, fault := check path source } : Verdict).effect path]
    (checked.add path source).out = checked.out ++ Effect.outText shown ∧
      (checked.add path source).err = checked.err ++ Effect.errText shown ∧
        (checked.add path source).faulty =
          checked.faulty + if (check path source).isSome then 1 else 0 := by
  have line : utf8 ": ok\n" = utf8 ": ok" ++ utf8 "\n" := by decide
  rcases found : check path source with _ | fault <;>
    simp [Checked.add, found, Verdict.effect, Effect.outText, Effect.errText, Effect.outLine, line]

/-- Files that can be read are all checked in turn, and their verdicts show the same. -/
theorem checkInTurn_of_verdicts (read : CheckGroup.Judged files paths verdicts) (before : Checked) :
    ∃ checked, checkInTurn files before paths = .ok checked ∧
      checked.out = before.out ++ Effect.outText (List.zipWith Verdict.effect paths verdicts) ∧
      checked.err = before.err ++ Effect.errText (List.zipWith Verdict.effect paths verdicts) ∧
      checked.faulty = before.faulty + verdicts.countP fun v => v.fault.isSome := by
  induction read generalizing before with
  | nil => exact ⟨before, rfl, (List.append_nil _).symm, (List.append_nil _).symm, rfl⟩
  | @cons path found paths verdicts own _ ih =>
    rcases content : files.read path with fault | source
    · rw [CheckGroup.verdict_of_unread content] at own
      cases own
    · rw [CheckGroup.verdict_of_read content] at own
      cases own
      obtain ⟨out, err, faulty⟩ := before.add_eq path source
      obtain ⟨checked, ran, outs, errs, count⟩ := ih (before.add path source)
      refine ⟨checked, by rw [checkInTurn, content]; exact ran, ?_, ?_, ?_⟩
      · rw [outs, out, List.append_assoc, ← Effect.outText_append]
        rfl
      · rw [errs, err, List.append_assoc, ← Effect.errText_append]
        rfl
      · rw [count, faulty, List.countP_cons, Nat.add_assoc, Nat.add_comm (ite _ _ _)]

theorem readable_of_verdicts (read : CheckGroup.Judged files paths verdicts) {path fault : Text}
    (member : path ∈ paths) : files.read path ≠ .error fault := by
  intro unread
  induction read with
  | nil => cases member
  | cons own _ ih =>
    rcases List.mem_cons.mp member with rfl | later
    · rw [CheckGroup.verdict_of_unread unread] at own
      cases own
    · exact ih later

/-- What the report on files shows is what checking them in turn shows. -/
theorem verdictReport_shows (read : CheckGroup.Judged files paths verdicts) :
    ∃ checked, checkInTurn files {} paths = .ok checked ∧
      (verdictReport paths verdicts).failure = none ∧
      (verdictReport paths verdicts).status = (if 0 < checked.faulty then 1 else 0) ∧
      Effect.outText (verdictReport paths verdicts).effects = checked.out ∧
      Effect.errText (verdictReport paths verdicts).effects =
        checked.err ++ checked.tally paths.length := by
  have line : utf8 " files have errors\n" = utf8 " files have errors" ++ utf8 "\n" := by decide
  obtain ⟨checked, ran, out, err, count⟩ := checkInTurn_of_verdicts read {}
  simp only [List.nil_append, Nat.zero_add] at out err count
  refine ⟨checked, ran, ?_⟩
  rw [verdictReport, ← count, Checked.tally, out, err]
  rcases Nat.eq_zero_or_pos checked.faulty with none_ | some_
  · simp [none_]
  · rw [if_neg (Nat.ne_of_gt some_), if_pos some_, if_pos some_, Effect.outText_append,
      Effect.errText_append]
    simp [Effect.outText, Effect.errText, Effect.errLine, line, failureStatus]

theorem verdicts_unique {others : List Verdict} (read : CheckGroup.Judged files paths verdicts)
    (again : CheckGroup.Judged files paths others) : verdicts = others := by
  apply List.right_unique_forall₂' _ read again
  intro path found other first second
  rw [first] at second
  exact Except.ok.inj second

end Reports

section Runs
variable {files : Files} {paths : List Text} {schedule : List CheckStep}

/-- Where all files can be read, every schedule gives the report on the same verdicts. -/
theorem checkBy_of_readable (orders : IsSchedule paths.length schedule)
    (readable : ∀ path ∈ paths, ∃ source, files.read path = .ok source) :
    ∃ verdicts, CheckGroup.Judged files paths verdicts ∧
      checkBy schedule files false paths = verdictReport paths verdicts := by
  rcases CheckGroup.ended files orders with ⟨unfailed, read⟩ | ⟨-, _, -, unreadable⟩
  · exact ⟨_, read, by rw [checkBy, CheckGroup.report, unfailed]⟩
  · obtain ⟨path, member, fault, unread, -⟩ := unreadable
    obtain ⟨source, read⟩ := readable path member
    rw [read] at unread
    cases unread

theorem checkBy_of_unreadable (orders : IsSchedule paths.length schedule)
    (unreadable : ∃ path ∈ paths, ∃ fault, files.read path = .error fault) :
    ∃ failure, CheckGroup.Unreadable files paths failure ∧
      checkBy schedule files false paths = .refused refusalStatus failure := by
  rcases CheckGroup.ended files orders with ⟨-, read⟩ | ⟨-, failure, failed, blamed⟩
  · obtain ⟨path, member, fault, unread⟩ := unreadable
    exact absurd unread (readable_of_verdicts read member)
  · exact ⟨failure, blamed, by rw [checkBy, CheckGroup.report, failed]⟩

end Runs

/-- A file without a fault and one with a fault. -/
def shelf : Files :=
  { here := [], directories := []
    contents := [([utf8 "good"], utf8 "let a = 1; b;"), ([utf8 "bad"], utf8 "f(1")] }

def shelved : List Text := [utf8 "good", utf8 "bad", utf8 "good"]

def unshelved : List Text := [utf8 "bad", utf8 "absent", utf8 "good"]

/-- Three tasks, the last of which starts first, while the first finishes last. -/
def crossed : List CheckStep :=
  [.start 2, .start 0, .finish 2, .start 1, .finish 1, .finish 0]

end Scriptlet.Cli
