import Scriptlet.Cli.Script
import Scriptlet.Log.Sink
import Scriptlet.Proofs.Entries
import Scriptlet.Proofs.Reordering
import Scriptlet.Proofs.Runs
/-!
The scripts of a directory. They run in the order of their paths, each as if it were the only one, up
to the first that cannot be read, fails or ends the program; what the command shows is what these
scripts show one after another. All that a script can tell of those before it is the time.
-/
namespace Scriptlet.Cli

/-- A script and the machine that it runs on. -/
structure Turn where
  script : Text
  machine : Machine

namespace Turn
variable (bound : Nat) (files : Files) (turn : Turn)

/-- A new interpreter, with the path of the script as the name of its file. -/
def interpreter : Interpreter := .fresh turn.machine turn.script

/-- What the script does that is run on its own. -/
def effects : List Effect :=
  .log (startRecord turn.script) :: (runScript bound files turn.script turn.interpreter).effects

/-- The status with which the script stops the command, if it does. -/
def stop : Option Int64 :=
  match files.read turn.script with
  | .error _ => some 1
  | .ok source =>
    match (turn.interpreter.run bound source).1.outcome with
    | .finished _ => none
    | .failed _ => some 1
    | .halted halt => some halt.code
    | .exhausted => some 1

/-- The machine that the script leaves. -/
def left : Machine :=
  (runScript bound files turn.script turn.interpreter).interpreter.store.machine

theorem stop_runScript :
    (runScript bound files turn.script turn.interpreter).stop = turn.stop bound files := by
  rw [runScript, stop]
  cases files.read turn.script with
  | error fault => rfl
  | ok source =>
    simp only [concluded]
    cases (turn.interpreter.run bound source).1.outcome <;> rfl

theorem later_left : turn.machine.Later (turn.left bound files) := by
  rw [left, runScript]
  cases files.read turn.script with
  | error fault => exact .refl _
  | ok source => exact turn.interpreter.later_run bound source

end Turn

section InTurn
variable (bound : Nat) (files : Files)

/-- The first turn starts on the machine, and each later one on what the one before left. -/
def HandsOn : Machine → List Turn → Prop
  | _, [] => True
  | machine, turn :: more => turn.machine = machine ∧ HandsOn (turn.left bound files) more

variable {bound files} in
theorem HandsOn.later {machine : Machine} {ran : List Turn}
    (handsOn : HandsOn bound files machine ran) : ∀ turn ∈ ran, machine.Later turn.machine := by
  induction ran generalizing machine with
  | nil => nofun
  | cons first more ih =>
    obtain ⟨rfl, handsOn⟩ := handsOn
    intro turn member
    rcases List.mem_cons.mp member with rfl | later
    · exact .refl _
    · exact (first.later_left bound files).trans (ih handsOn turn later)

/-- A report on scripts of which some have run, in their order: all of them, if none stops, and else
those up to the first that stops. -/
structure InTurn (machine : Machine) (scripts : List Text) (ran : List Turn) (report : Report) :
    Prop where
  front : ran.map Turn.script <+: scripts
  handsOn : HandsOn bound files machine ran
  carriedOut : report.failure = none
  effects : report.effects = ran.flatMap (Turn.effects bound files)
  ended :
    (ran.map Turn.script = scripts ∧ (∀ turn ∈ ran, turn.stop bound files = none) ∧
      report.status = 0) ∨
    ∃ earlier last, ran = earlier ++ [last] ∧ (∀ turn ∈ earlier, turn.stop bound files = none) ∧
      last.stop bound files = some report.status

/-- Each stream shows what the scripts that have run show there, one after another. -/
theorem InTurn.collect {machine : Machine} {scripts : List Text} {ran : List Turn} {report : Report}
    (inTurn : InTurn bound files machine scripts ran report) (sink : LogSink) (time : Text)
    (target : LogTarget) :
    sink.collect time target report.effects =
      ran.flatMap fun turn => sink.collect time target (turn.effects bound files) := by
  rw [inTurn.effects, LogSink.collect, List.flatMap_assoc]
  rfl

theorem InTurn.stopped {machine : Machine} {scripts : List Text} {earlier later : List Turn}
    {turn : Turn} {report : Report} {status : Int64}
    (inTurn : InTurn bound files machine scripts (earlier ++ turn :: later) report)
    (stops : turn.stop bound files = some status) : later = [] ∧ report.status = status := by
  obtain ⟨-, unstopped, -⟩ | ⟨front, last, split, unstopped, ended⟩ := inTurn.ended
  · cases (unstopped turn (by simp)).symm.trans stops
  · rcases later.eq_nil_or_concat with rfl | ⟨more, other, rfl⟩
    · obtain ⟨rfl, rfl⟩ := List.append_inj' split rfl |>.imp_right List.singleton_inj.mp
      exact ⟨rfl, Option.some.inj (ended.symm.trans stops)⟩
    · have whole : (earlier ++ turn :: more) ++ [other] = front ++ [last] := by simpa using split
      obtain ⟨rfl, -⟩ := List.append_inj' whole rfl
      cases (unstopped turn (by simp)).symm.trans stops

theorem runScripts_cons (turn : Turn) (more : List Text) :
    runScripts bound files turn.machine (turn.script :: more) =
      match turn.stop bound files with
      | some status => { effects := turn.effects bound files, status }
      | none =>
        let others := runScripts bound files (turn.left bound files) more
        { others with effects := turn.effects bound files ++ others.effects } := by
  rw [← Turn.stop_runScript]
  rfl

theorem runScripts_inTurn (machine : Machine) (scripts : List Text) :
    ∃ ran, InTurn bound files machine scripts ran (runScripts bound files machine scripts) := by
  induction scripts generalizing machine with
  | nil => exact ⟨[], List.nil_prefix, trivial, rfl, rfl, .inl ⟨rfl, by simp, rfl⟩⟩
  | cons script more ih =>
    let turn : Turn := { script, machine }
    change ∃ ran, InTurn bound files machine _ ran
      (runScripts bound files turn.machine (turn.script :: more))
    rw [runScripts_cons]
    cases ends : turn.stop bound files with
    | some status =>
      exact ⟨[turn], List.prefix_append _ _, ⟨rfl, trivial⟩, rfl, by simp [turn],
        .inr ⟨[], turn, rfl, by simp, ends⟩⟩
    | none =>
      obtain ⟨ran, front, handsOn, carriedOut, effects, ended⟩ := ih (turn.left bound files)
      refine ⟨turn :: ran, List.prefix_cons_inj script |>.mpr front, ⟨rfl, handsOn⟩, carriedOut,
        by simp [turn, effects], ?_⟩
      rcases ended with ⟨all, unstopped, status⟩ | ⟨earlier, last, rfl, unstopped, status⟩
      · exact .inl ⟨by rw [List.map_cons, all], by simpa [ends] using unstopped, status⟩
      · exact .inr ⟨turn :: earlier, last, rfl, by simpa [ends] using unstopped, status⟩

theorem runScripts_singleton (turn : Turn) :
    runScripts bound files turn.machine [turn.script] =
      { effects := turn.effects bound files, status := (turn.stop bound files).getD 0 } := by
  rw [runScripts_cons]
  cases ends : turn.stop bound files <;> simp [runScripts]

end InTurn

/-- A directory with three scripts, of which the second ends the program, a text and a directory. -/
def pinboard : Files :=
  { here := [], directories := [[utf8 "d"], [utf8 "d", utf8 "sub.itl"]]
    contents :=
      [([utf8 "d", utf8 "b.ITL"], utf8 "exit();"), ([utf8 "d", utf8 "a.itl"], utf8 "println();"),
        ([utf8 "d", utf8 "notes.txt"], utf8 "@"), ([utf8 "d", utf8 "c.itl"], utf8 "1;")] }

def noon : Machine := .still ⟨2024, 3, 9, 12, 0, 0, 0⟩

theorem pinboard_sound : pinboard.Sound := by
  refine ⟨by decide, ?_, by decide +kernel⟩
  intro place held
  obtain ⟨content, held⟩ := Option.isSome_iff_exists.mp held
  have files : ∀ entry ∈ pinboard.contents, pinboard.isDirectory entry.1 = false := by
    decide +kernel
  exact files _ (Files.mem_of_content? held)

def openingTurn : Turn := { script := utf8 "d/a.itl", machine := noon }

def closingTurn : Turn := { script := utf8 "d/b.ITL", machine := openingTurn.left 100 pinboard }

end Scriptlet.Cli
