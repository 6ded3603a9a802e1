import Scriptlet.Cli.Script
/-!
Checking files without running them. Each file is read and parsed by a task of its own, and the
tasks may take their steps in any order. A task that cannot read its file cancels those that have not
started. The verdicts are shown in the order of the files once all tasks are done.
-/
namespace Scriptlet.Cli

structure Verdict where
  source : Text := []
  fault : Option Diagnostic := none
  deriving DecidableEq, Repr

inductive CheckStep where
  /-- The task starts, unless the tasks are cancelled. -/
  | start (task : Nat)
  /-- The task reads and parses its file. -/
  | finish (task : Nat)
  deriving DecidableEq, Repr

structure CheckGroup where
  cancelled : Bool
  failure : Option Text := none
  running : List Nat := []
  /-- The verdicts so far, one for each file. -/
  verdicts : List Verdict
  deriving DecidableEq, Repr

namespace CheckGroup

def initial (cancelled : Bool) (count : Nat) : CheckGroup :=
  { cancelled, verdicts := List.replicate count {} }

/-- Takes note of a failure, which cancels the tasks. Only the first failure is kept. -/
def fail (group : CheckGroup) (failure : Text) : CheckGroup :=
  { group with cancelled := true, failure := group.failure.or (some failure) }

def verdict (files : Files) (path : Text) : Except Text Verdict :=
  match files.read path with
  | .error fault => .error (utf8 "reading " ++ path ++ utf8 ": " ++ fault)
  | .ok source => .ok { source, fault := check path source }

def advance (files : Files) (paths : List Text) (group : CheckGroup) : CheckStep → CheckGroup
  | .start task =>
    if group.cancelled then group.fail (utf8 "context canceled")
    else { group with running := task :: group.running }
  | .finish task =>
    match paths[task]? with
    | none => group
    | some path =>
      if task ∈ group.running then
        let group := { group with running := group.running.erase task }
        match verdict files path with
        | .error failure => group.fail failure
        | .ok verdict => { group with verdicts := group.verdicts.set task verdict }
      else group

def advanceAll (files : Files) (paths : List Text) (group : CheckGroup)
    (schedule : List CheckStep) : CheckGroup :=
  schedule.foldl (advance files paths) group

end CheckGroup

def Verdict.effect (path : Text) (v : Verdict) : Effect :=
  match v.fault with
  | none => .outLine (path ++ utf8 ": ok")
  | some fault => .err (faultReport fault v.source)

def refusalStatus : Int64 := 2

def verdictReport (paths : List Text) (verdicts : List Verdict) : Report :=
  let failed := verdicts.countP fun v => v.fault.isSome
  let shown := List.zipWith Verdict.effect paths verdicts
  if failed = 0 then { effects := shown }
  else
    { effects :=
        shown
          ++ [.errLine
              (Text.ofNat failed ++ utf8 " of " ++ Text.ofNat paths.length
                ++ utf8 " files have errors")]
      status := failureStatus }

def CheckGroup.report (paths : List Text) (group : CheckGroup) : Report :=
  match group.failure with
  | some failure => .refused refusalStatus failure
  | none => verdictReport paths group.verdicts

def inOrder (count : Nat) : List CheckStep :=
  (List.range count).flatMap fun task => [.start task, .finish task]

def checkBy (schedule : List CheckStep) (files : Files) (cancelled : Bool) (paths : List Text) :
    Report :=
  ((CheckGroup.initial cancelled paths.length).advanceAll files paths schedule).report paths

def checkFiles (files : Files) (cancelled : Bool) (paths : List Text) : Report :=
  checkBy (inOrder paths.length) files cancelled paths

end Scriptlet.Cli
