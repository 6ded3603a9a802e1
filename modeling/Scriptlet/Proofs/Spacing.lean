import Scriptlet.Proofs.Erasure
import Scriptlet.Proofs.Fallbacks
import Scriptlet.Proofs.RoundTrip
import Scriptlet.Proofs.Runs
/-!
Spacing makes no difference. Sources that are scanned to the same tokens, apart from their places, are
parsed and run alike: what they come to differs in places only, and so does the store they leave.
-/
namespace Scriptlet

theorem Diagnostic.unplaced_orInFile (fault : Diagnostic) (file : Text) :
    (fault.orInFile file).unplaced = fault.unplaced.orInFile file := by
  unfold Diagnostic.orInFile
  by_cases named : fault.file = [] <;> simp [named, Diagnostic.unplaced, placedAt, inFile]

/-- A parsed program, or why there is none, without places. -/
def Parser.unplaced : Except Diagnostic Program → Except Diagnostic Program
  | .ok program => .ok (Program.unplaced program)
  | .error fault => .error fault.unplaced

/-- The end of a run without places: those of a fault, and those in the bodies of functions. -/
def Outcome.unplaced : Outcome → Outcome
  | .failed fault => .failed fault.unplaced
  | .halted halt => .halted halt
  | .finished value => .finished (value.map Value.unplaced)
  | .exhausted => .exhausted

theorem Cursor.unplaced_ofTokens {xs ys : List Token}
    (same : xs.map Token.unplaced = ys.map Token.unplaced) :
    (ofTokens xs).unplaced = (ofTokens ys).unplaced := by
  have started (tokens : List Token) (nonempty : tokens ≠ []) :
      (startOf tokens).unplaced = tokens.map Token.unplaced := by
    cases tokens with
    | nil => contradiction
    | cons first rest => rfl
  -- the last tokens are of one kind, so both sequences are closed or both get a closing token
  have lasts : (xs.getLast?).map Token.unplaced = (ys.getLast?).map Token.unplaced := by
    rw [← List.getLast?_map, ← List.getLast?_map, same]
  unfold ofTokens
  rcases endX : xs.getLast? with _ | x <;> rcases endY : ys.getLast? with _ | y
  · rfl
  · simp [endX, endY] at lasts
  · simp [endX, endY] at lasts
  · have kind : x.kind = y.kind := by
      apply Token.kind_of_unplaced
      simpa [endX, endY] using lasts
    have someX : xs ≠ [] := by
      rintro rfl
      cases endX
    have someY : ys ≠ [] := by
      rintro rfl
      cases endY
    dsimp only
    rw [kind]
    split
    · rw [started xs someX, started ys someY, same]
    · rw [started _ (by simp), started _ (by simp), List.map_append, List.map_append, same]

/-- Sources of the same tokens are parsed alike, with any reserved words. -/
theorem Parser.unplaced_parseFresh {keywords : Keywords} {a b : Text} {as bs : List Token}
    (scannedA : scan keywords a = .ok as) (scannedB : scan keywords b = .ok bs)
    (same : as.map Token.content = bs.map Token.content) :
    unplaced (parseFresh keywords a) = unplaced (parseFresh keywords b) := by
  have alike := Grammar.alike_program _ _ (Cursor.unplaced_ofTokens (unplaced_of_contents same))
  have parses {source : Text} {tokens : List Token} (scanned : scan keywords source = .ok tokens) :
      parseFresh keywords source = (·.1) <$> Grammar.program.run (Cursor.ofTokens tokens) := by
    rw [parseFresh, scanned]
    rfl
  rw [parses scannedA, parses scannedB]
  generalize Grammar.program.run (Cursor.ofTokens as) = first at alike ⊢
  generalize Grammar.program.run (Cursor.ofTokens bs) = second at alike ⊢
  rcases first with fault | ⟨p, c⟩ <;> rcases second with other | ⟨q, d⟩
  · injection alike with faults
    exact congrArg Except.error faults
  · cases alike
  · cases alike
  · injection alike with both
    injection both with trees _
    change Except.ok (Program.unplaced p) = Except.ok (Program.unplaced q)
    rw [Program.unplaced, Program.unplaced, unplacedBody_eq, unplacedBody_eq, trees]

/-- What is to be told of a variable: whether it is constant, its name, and the type and the printable
form of its value. -/
def Binding.shown (b : Binding) : Bool × Text × Text × Text :=
  (b.constant, b.name, b.value.typeLabel, b.value.inspect)

theorem Binding.shown_unplaced (b : Binding) : b.unplaced.shown = b.shown := by
  rw [shown, unplaced, Value.typeLabel_unplaced, Value.inspect_unplaced, shown]

theorem Binding.map_shown_of_unplaced {bindings others : List Binding}
    (same : bindings.map unplaced = others.map unplaced) :
    bindings.map shown = others.map shown := by
  have through : shown = shown ∘ unplaced := funext fun b => b.shown_unplaced.symm
  rw [through, ← List.map_map, ← List.map_map, same]

theorem Frames.userVariables_unplaced (frames : Frames) (scope : Scope) :
    frames.unplaced.userVariables scope = (frames.userVariables scope).map Binding.unplaced := by
  have predeclared (b : Binding) : isPredeclared scope b.unplaced = isPredeclared scope b := by
    rcases b with ⟨name, value, constant⟩
    cases value <;> rfl
  have kept :
      (fun b => !isPredeclared scope b) ∘ Binding.unplaced = fun b => !isPredeclared scope b :=
    funext fun b => congrArg _ (predeclared b)
  have sorted (bindings : List Binding) :
      (bindings.map Binding.unplaced).mergeSort (fun a b => Text.le a.name b.name) =
        (bindings.mergeSort fun a b => Text.le a.name b.name).map Binding.unplaced := by
    symm
    apply List.map_mergeSort
    intros
    rfl
  rw [userVariables, userVariables, frame_unplaced, Frame.unplaced, List.filter_map, sorted, kept]

/-- Programs that differ in places only, in stores that do, end alike and leave such stores. What was
printed before makes no difference either. -/
theorem Program.seen_eval {program other : Program} (programs : program.unplaced = other.unplaced)
    {store after : Store} {earlier before : List Printed}
    (stores : store.unplaced earlier = after.unplaced before) (bound : Nat) (scope : Scope) :
    Action.seen Value.unplaced earlier ((program.eval bound scope).outcome store) =
      Action.seen Value.unplaced before ((other.eval bound scope).outcome after) := by
  rw [← Program.erases_eval bound program scope earlier store,
    ← Program.erases_eval bound other scope before after, programs, stores]

namespace Action

variable {earlier before : List Printed} {a b : Except Stop Value × Store}

theorem snd_seen (earlier : List Printed) (a : Except Stop Value × Store) :
    (seen Value.unplaced earlier a).2 = a.2.unplaced earlier := by
  rcases a with ⟨_ | _, _⟩ <;> rfl

theorem conclude_seen (i : Interpreter) (earlier : List Printed) (a : Except Stop Value × Store) :
    (i.conclude (seen Value.unplaced earlier a).1).1 = (i.conclude a.1).1.unplaced := by
  rcases a with ⟨(fault | _ | _) | _, _⟩
  · exact congrArg Outcome.failed (fault.unplaced_orInFile i.file).symm
  all_goals rfl

end Action

namespace Interpreter

theorem outcome_conclude_of_file {i j : Interpreter} (file : i.file = j.file)
    (result : Except Stop Value) : (i.conclude result).1 = (j.conclude result).1 := by
  rcases result with (_ | _ | _) | _ <;> simp only [conclude, file]

theorem userVariables_of_frames {i j : Interpreter}
    (frames : i.store.frames.unplaced = j.store.frames.unplaced) :
    i.userVariables.map Binding.unplaced = j.userVariables.map Binding.unplaced := by
  rw [userVariables, userVariables, ← Frames.userVariables_unplaced, ← Frames.userVariables_unplaced,
    frames]

end Interpreter

/-- Runs of programs that differ in places only differ in places only. -/
theorem Interpreter.Quiet.execute_unplaced {i : Interpreter} (quiet : i.Quiet) (bound : Nat)
    {program other : Program} (programs : program.unplaced = other.unplaced) :
    (execute bound i program).1.outcome.unplaced = (execute bound i other).1.outcome.unplaced ∧
      (execute bound i program).1.printed = (execute bound i other).1.printed ∧
      (execute bound i program).2.store.unplaced [] = (execute bound i other).2.store.unplaced [] := by
  have same := Program.seen_eval programs (rfl : i.store.unplaced [] = i.store.unplaced []) bound
    globalScope
  have stores := congrArg Prod.snd same
  rw [Action.snd_seen, Action.snd_seen] at stores
  refine ⟨?_, ?_, ?_⟩
  · cases program with
    | nil =>
      cases other with
      | nil => rfl
      | cons => cases programs
    | cons =>
      cases other with
      | nil => cases programs
      | cons =>
        rw [outcome_execute (List.cons_ne_nil _ _), outcome_execute (List.cons_ne_nil _ _), task,
          task]
        have ends := congrArg (fun seen => (i.conclude seen.1).1) same
        simp only [Action.conclude_seen] at ends
        exact ends
  · have printed := congrArg Store.printed stores
    simp only [Store.unplaced, List.append_nil] at printed
    rw [quiet.printed_execute, quiet.printed_execute]
    exact congrArg List.reverse printed
  · rw [quiet.store_execute, quiet.store_execute]
    exact congrArg (fun store : Store => { store with printed := [] }) stores

theorem Interpreter.Standard.run_unplaced {i : Interpreter} (standard : i.Standard) (quiet : i.Quiet)
    {a b : Text} (parses : Parser.unplaced (Parser.parseFresh Keywords.default a) =
      Parser.unplaced (Parser.parseFresh Keywords.default b)) (bound : Nat) :
    (i.run bound a).1.outcome.unplaced = (i.run bound b).1.outcome.unplaced ∧
      (i.run bound a).1.printed = (i.run bound b).1.printed ∧
      (i.run bound a).2.store.unplaced [] = (i.run bound b).2.store.unplaced [] := by
  have parsedA := standard.fst_parse a
  have parsedB := standard.fst_parse b
  generalize Parser.parseFresh Keywords.default a = first at parses parsedA
  generalize Parser.parseFresh Keywords.default b = second at parses parsedB
  rcases first with fault | program <;> rcases second with other | again
  · have faults : fault.unplaced = other.unplaced := Except.error.inj parses
    rw [run_of_error parsedA, run_of_error parsedB]
    refine ⟨?_, ?_, rfl⟩
    · simp only [Outcome.unplaced, Diagnostic.unplaced_orInFile, faults]
    · rw [printed_cacheEvent_cons, printed_cacheEvent_cons]
      rfl
  · cases parses
  · cases parses
  · have programs : program.unplaced = again.unplaced := Except.ok.inj parses
    obtain ⟨outcomes, printed, stores⟩ := quiet.execute_unplaced bound programs
    rw [run_of_ok parsedA, run_of_ok parsedB]
    refine ⟨outcomes, ?_, stores⟩
    rw [printed_cacheEvent_cons, printed_cacheEvent_cons]
    exact printed

/-- Sources of the same tokens are parsed to trees that differ in places only, or refused with faults
that do; and on an interpreter with any history they run alike: to the same end, with the same prints,
and leaving the same variables and the same store but for the places in functions and faults. -/
theorem spacing_immaterial {keywords : Keywords} {a b : Text} {as bs : List Token}
    (scannedA : scan keywords a = .ok as) (scannedB : scan keywords b = .ok bs)
    (same : as.map Token.content = bs.map Token.content) :
    Parser.unplaced (Parser.parseFresh keywords a) = Parser.unplaced (Parser.parseFresh keywords b) ∧
      (keywords = Keywords.default → ∀ i : Interpreter, i.Reachable → ∀ bound,
        (i.run bound a).1.outcome.unplaced = (i.run bound b).1.outcome.unplaced ∧
          (i.run bound a).1.printed = (i.run bound b).1.printed ∧
          (i.run bound a).2.userVariables.map Binding.unplaced =
            (i.run bound b).2.userVariables.map Binding.unplaced ∧
          (i.run bound a).2.store.unplaced [] = (i.run bound b).2.store.unplaced []) := by
  have parses := Parser.unplaced_parseFresh scannedA scannedB same
  refine ⟨parses, ?_⟩
  rintro rfl i reachable bound
  obtain ⟨outcomes, printed, stores⟩ :=
    reachable.standard_ready.1.run_unplaced reachable.quiet parses bound
  have variables_ := Interpreter.userVariables_of_frames (congrArg Store.frames stores)
  exact ⟨outcomes, printed, variables_, stores⟩

/-- A source that prints and fails. -/
def crowded : Text := utf8 "println(f);f.a"

/-- The same source with a comment, on four lines. -/
def spread : Text := utf8 "# shown\nprintln ( f ) ;\n\tf\n.a"

-- The function `f` is one of an earlier run.
theorem spread_like_crowded :
    ∃ as bs, scan Keywords.default crowded = .ok as ∧ scan Keywords.default spread = .ok bs ∧
      as.map Token.content = bs.map Token.content ∧ keeper.Reachable ∧
      (keeper.run 9 crowded).1.outcome.unplaced = (keeper.run 9 spread).1.outcome.unplaced ∧
      (keeper.run 9 crowded).1.printed = (keeper.run 9 spread).1.printed := by
  have contents : (scan Keywords.default crowded).toOption.map (List.map Token.content) =
      (scan Keywords.default spread).toOption.map (List.map Token.content) := by decide +kernel
  have scans : (scan Keywords.default crowded).isOk = true ∧
      (scan Keywords.default spread).isOk = true := by decide +kernel
  rcases scannedA : scan Keywords.default crowded with fault | as
  · rw [scannedA] at scans
    cases scans.1
  · rcases scannedB : scan Keywords.default spread with fault | bs
    · rw [scannedB] at scans
      cases scans.2
    · rw [scannedA, scannedB] at contents
      have same : as.map Token.content = bs.map Token.content := Option.some.inj contents
      have reachable : keeper.Reachable := .run _ _ (.fresh _ _)
      have runs := (spacing_immaterial scannedA scannedB same).2 rfl keeper reachable 9
      exact ⟨as, bs, rfl, rfl, same, reachable, runs.1, runs.2.1⟩

end Scriptlet
