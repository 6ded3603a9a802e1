import Scriptlet.Proofs.Reset
import Scriptlet.Proofs.Whereabouts
/-!
The files that faults are reported in. A fault gets the name of the file that is being run. It stands in
the text of that file if it was found before the evaluation, or if the functions in the store are of
texts that were run under that name; but a function of another file, called from this one, fails where
it stands in the other.
-/
namespace Scriptlet

/-- One of the tokens that a text is scanned to. -/
def Text.HasToken (text : Text) (token : Token) : Prop :=
  ∃ tokens, scan Keywords.default text = .ok tokens ∧ token ∈ tokens

/-- The fault is in a text: it points into it, to the byte or to the token where it was found. -/
structure Diagnostic.StandsIn (fault : Diagnostic) (text : Text) : Prop where
  inside : fault.position.PointsInto text
  here : fault.faultClass = .lexical ∧ Position.start.OfByte text fault.position ∨
    fault.faultClass ≠ .lexical ∧ fault.AtKnown text.HasToken

theorem Diagnostic.standsIn_of_token {fault : Diagnostic} {text : Text} {token : Token}
    (later : fault.faultClass ≠ .lexical) (has : text.HasToken token)
    (same : fault.position = token.position) : fault.StandsIn text := by
  obtain ⟨tokens, scanned, member⟩ := has
  refine ⟨?_, .inr ⟨later, token, ⟨tokens, scanned, member⟩, same⟩⟩
  rw [same]
  exact (Token.pointsInto_of_scan scanned member).1

theorem Diagnostic.file_orInFile {fault : Diagnostic} (unnamed : fault.file = []) (file : Text) :
    (fault.orInFile file).file = file := by
  rw [Diagnostic.orInFile, if_pos unnamed]
  rfl

theorem Policy.Admits.imp {policy other : Policy} {value : Value} (admits : policy.Admits value)
    (runs : ∀ statement, policy.runs statement → other.runs statement)
    (enters : ∀ scope, policy.enters scope → other.enters scope)
    (shapes : ∀ names, policy.shapes names → other.shapes names) : other.Admits value := by
  induction admits with
  | null => exact .null
  | boolean value => exact .boolean value
  | number value => exact .number value
  | string value => exact .string value
  | native which => exact .native which
  | object named _ ih => exact .object (shapes _ named) ih
  | function each within =>
    exact .function (fun statement member => runs statement (each statement member))
      (enters _ within)

namespace Interpreter

variable {i : Interpreter} {bound : Nat} {text : Text} {fault : Diagnostic}

theorem Standard.fault_file (standard : i.Standard)
    (failed : (i.run bound text).1.outcome = .failed fault) : fault.file = i.file := by
  rcases parsed : (i.parse text).1 with found | program
  · rw [run_of_error parsed] at failed
    cases failed
    obtain ⟨found, refused, rfl⟩ := standard.parseFresh_of_error parsed
    exact Diagnostic.file_orInFile (ofSource_of_parseFresh refused).file i.file
  · rw [run_of_ok parsed] at failed
    obtain ⟨found, after, ended, rfl⟩ := failed_of_execute failed
    exact Diagnostic.file_orInFile (Program.blames_eval bound _ globalScope _ _ _ ended).file i.file

/-- A run keeps the functions in the store marked at known tokens, if those of its text are known. -/
theorem Standard.marked_run {known : Token → Prop} (standard : i.Standard)
    (ready : (Policy.marked known).Ready i.store) (covers : ∀ token, text.HasToken token → known token)
    (bound : Nat) : (Policy.marked known).Ready (i.run bound text).2.store := by
  rcases i.frames_run bound text with same | ⟨program, parsed, same⟩
  · exact ⟨Nat.zero_le _, same ▸ ready.admits⟩
  · obtain ⟨tokens, scanned, marked⟩ := Parser.marked_of_parseFresh (standard.parseFresh parsed)
    have runs : ∀ statement ∈ program, statement.Marked known := fun statement member =>
      (marked statement member).imp fun token inside => covers token ⟨tokens, scanned, inside⟩
    have within : (i.task bound program).Within (Policy.marked known) :=
      ⟨runs, trivial, fun _ _ => trivial, ready⟩
    have changes := (Policy.keeps_eval within.enters within.runs within.declares bound i.store ready).1
    exact ⟨Nat.zero_le _, same ▸ (changes.ready ready).admits⟩

theorem run_of_runFile {files : Files} {path : Text} {result : Run} {after : Interpreter}
    (read : files.read path = .ok text) (ended : i.runFile bound files path = .ok (result, after)) :
    Interpreter.run bound { i with file := path } text = (result, after) := by
  rw [runFile_of_read read] at ended
  exact Except.ok.inj ended

theorem Standard.file_of_runFile (standard : i.Standard) {files : Files} {path : Text}
    {result : Run} {after : Interpreter} (read : files.read path = .ok text)
    (ended : i.runFile bound files path = .ok (result, after))
    (failed : result.outcome = .failed fault) : fault.file = path := by
  have ran := run_of_runFile read ended
  apply (standard.renamed path).fault_file
  rw [ran]
  exact failed

/-- The interpreters that come about by running files, and the texts that were run, each under the
name of its file, the latest first. A file that cannot be read leaves an interpreter as it is. -/
inductive RanFiles : Interpreter → List (Text × Text) → Prop where
  | fresh (machine : Machine) (file : Text) : RanFiles (fresh machine file) []
  | runFile {i past bound files path text result after} :
      RanFiles i past → files.read path = .ok text →
        i.runFile bound files path = .ok (result, after) → RanFiles after ((path, text) :: past)

/-- A token of one of the texts. -/
def TokenOf (texts : List (Text × Text)) (token : Token) : Prop :=
  ∃ each ∈ texts, each.2.HasToken token

/-- What can fail in the functions that the store holds are tokens of the texts. -/
def FunctionsOf (i : Interpreter) (texts : List (Text × Text)) : Prop :=
  (Policy.marked (TokenOf texts)).Ready i.store

theorem FunctionsOf.mono {texts more : List (Text × Text)} (declared : i.FunctionsOf texts)
    (sub : texts ⊆ more) : i.FunctionsOf more := by
  have met (token : Token) : TokenOf texts token → TokenOf more token := by
    rintro ⟨each, member, has⟩
    exact ⟨each, sub member, has⟩
  refine ⟨Nat.zero_le _, ?_⟩
  intro holder b member
  exact (declared.admits holder b member).imp (fun _ marked => marked.imp met) (fun _ _ => trivial)
    fun _ _ => trivial

/-- The functions that an interpreter keeps are of the texts that it ran. -/
theorem RanFiles.functionsOf {past : List (Text × Text)} (ran : i.RanFiles past) :
    i.Standard ∧ i.FunctionsOf past := by
  induction ran with
  | fresh machine file => exact ⟨standard_fresh machine file, ready_fresh (Nat.zero_le _) machine⟩
  | @runFile i past bound files path text result after _ read ended ih =>
    obtain ⟨standard, declared⟩ := ih
    have last : (Interpreter.run bound { i with file := path } text).2 = after := by
      rw [run_of_runFile read ended]
    have renamed := standard.renamed path
    rw [← last]
    refine ⟨renamed.run bound text, renamed.marked_run ?_ ?_ bound⟩
    · exact declared.mono (List.subset_cons_self _ _)
    · exact fun token has => ⟨_, List.mem_cons_self, has⟩

/-- Where a run fails whose interpreter has functions of some texts. -/
theorem Standard.standsIn_of_run (standard : i.Standard) {texts : List (Text × Text)}
    (declared : i.FunctionsOf texts) (failed : (i.run bound text).1.outcome = .failed fault) :
    (fault.isStatic = true → fault.StandsIn text) ∧
      ∃ each ∈ (i.file, text) :: texts, fault.StandsIn each.2 := by
  have more := declared.mono (List.subset_cons_self (i.file, text) texts)
  rcases standard.place_of_run more
      (fun tokens scanned token member => ⟨_, List.mem_cons_self, tokens, scanned, member⟩) failed with
    ⟨lexical, byte⟩ | ⟨grammar, tokens, scanned, token, member, same⟩ |
    ⟨dynamic, token, ⟨each, ran, has⟩, same⟩
  · have stands : fault.StandsIn text := ⟨byte.pointsInto, .inl ⟨lexical, byte⟩⟩
    exact ⟨fun _ => stands, _, List.mem_cons_self, stands⟩
  · have stands := Diagnostic.standsIn_of_token (by simp [grammar]) ⟨tokens, scanned, member⟩ same
    exact ⟨fun _ => stands, _, List.mem_cons_self, stands⟩
  · have later : fault.faultClass ≠ .lexical := by
      rcases dynamic with resolution | type <;> simp [*]
    refine ⟨?_, each, ran, Diagnostic.standsIn_of_token later has same⟩
    intro static
    rcases dynamic with resolution | type <;> simp [Diagnostic.isStatic, *] at static

end Interpreter

/-- When a file is run after others and fails, the fault names that file, and stands in its text or in
one that was run before. If it was found before the evaluation, it stands in the text of the file; and
if the functions in the store are of texts that were run under the name of the file, as when there are
none, it stands in a text that was run under the name it gives. -/
theorem failure_stands_in_named_file {past : List (Text × Text)} {i : Interpreter}
    (ran : i.RanFiles past) {bound : Nat} {files : Files} {path text : Text} {result : Run}
    {after : Interpreter} {fault : Diagnostic} (read : files.read path = .ok text)
    (ended : i.runFile bound files path = .ok (result, after))
    (failed : result.outcome = .failed fault) :
    fault.file = path ∧ (∃ each ∈ (path, text) :: past, fault.StandsIn each.2) ∧
      (fault.isStatic = true → fault.StandsIn text) ∧
      ∀ own ⊆ past, (∀ each ∈ own, each.1 = path) → i.FunctionsOf own →
        ∃ each ∈ (path, text) :: own, each.1 = fault.file ∧ fault.StandsIn each.2 := by
  obtain ⟨standard, declared⟩ := ran.functionsOf
  have named := standard.file_of_runFile read ended failed
  have ran : (Interpreter.run bound { i with file := path } text).1.outcome = .failed fault := by
    rw [Interpreter.run_of_runFile read ended]
    exact failed
  have where_ (texts : List (Text × Text)) (functions : i.FunctionsOf texts) :=
    (standard.renamed path).standsIn_of_run functions ran
  refine ⟨named, (where_ past declared).2, (where_ past declared).1, ?_⟩
  intro own _ same functions
  obtain ⟨each, member, stands⟩ := (where_ own functions).2
  refine ⟨each, member, ?_, stands⟩
  rw [named]
  rcases List.mem_cons.mp member with rfl | earlier
  · rfl
  · exact same each earlier

/-- A function that fails for a number, in the third line. -/
def failingFunction : Text := utf8 "func f(o) \x7b\n\no.a;\n\x7d"

/-- The function in one file, a call of it in another, and a file that fails in itself. -/
def someFiles : Files where
  here := []
  directories := []
  contents := [([utf8 "a.itl"], failingFunction), ([utf8 "b.itl"], utf8 "f(1);"),
    ([utf8 "c.itl"], utf8 "print.a;")]

/-- An interpreter that has run the file with the function. -/
def Interpreter.holder : Interpreter :=
  ((fresh (.still ⟨2024, 3, 9, 14, 5, 7, 0⟩) (utf8 "a.itl")).run 9 failingFunction).2

theorem Interpreter.holder_ranFiles : holder.RanFiles [(utf8 "a.itl", failingFunction)] := by
  have read : someFiles.read (utf8 "a.itl") = .ok failingFunction := rfl
  exact .runFile (.fresh (.still ⟨2024, 3, 9, 14, 5, 7, 0⟩) []) read (runFile_of_read read)

/-- A call from the other file fails in the third line, which is the line of the function. -/
theorem Interpreter.holder_fails : ∃ run after fault,
    holder.runFile 9 someFiles (utf8 "b.itl") = .ok (run, after) ∧ run.outcome = .failed fault ∧
      fault.position = ⟨3, 2⟩ := by
  have read : someFiles.read (utf8 "b.itl") = .ok (utf8 "f(1);") := rfl
  obtain ⟨fault, failed, -, there⟩ := Outcome.failed_of_fault?
    (show (Interpreter.run 9 { holder with file := utf8 "b.itl" } (utf8 "f(1);")).1.outcome.fault? =
      some (.type, ⟨3, 2⟩) by decide +kernel)
  exact ⟨_, _, fault, runFile_of_read read, failed, there⟩

-- The call fails in the file of the function. A file of its own fails in itself.
theorem call_stands_in_function :
    (∃ fault : Diagnostic, fault.file = utf8 "b.itl" ∧ fault.position = ⟨3, 2⟩ ∧
        (fault.StandsIn (utf8 "f(1);") ∨ fault.StandsIn failingFunction)) ∧
      ∃ fault : Diagnostic, fault.file = utf8 "c.itl" ∧ fault.position = ⟨1, 6⟩ ∧
        fault.StandsIn (utf8 "print.a;") := by
  constructor
  · have read : someFiles.read (utf8 "b.itl") = .ok (utf8 "f(1);") := rfl
    obtain ⟨run, after, fault, ended, failed, there⟩ := Interpreter.holder_fails
    obtain ⟨named, stands, -⟩ :=
      failure_stands_in_named_file Interpreter.holder_ranFiles read ended failed
    exact ⟨fault, named, there, by simpa using stands⟩
  · have read : someFiles.read (utf8 "c.itl") = .ok (utf8 "print.a;") := rfl
    obtain ⟨fault, failed, -, there⟩ := Outcome.failed_of_fault?
      (show (Interpreter.run 9 (.fresh (.still ⟨2024, 3, 9, 14, 5, 7, 0⟩) (utf8 "c.itl"))
        (utf8 "print.a;")).1.outcome.fault? = some (.type, ⟨1, 6⟩) by decide +kernel)
    obtain ⟨named, -, -, own⟩ := failure_stands_in_named_file
      (.fresh (.still ⟨2024, 3, 9, 14, 5, 7, 0⟩) []) read (Interpreter.runFile_of_read read) failed
    obtain ⟨each, member, -, stands⟩ := own [] (List.Subset.refl _) (by simp)
      (Interpreter.ready_fresh (Nat.zero_le _) _)
    obtain rfl := List.mem_singleton.mp member
    exact ⟨fault, named, there, stands⟩

/-- Not every fault is in a line of a text that was run under the name it gives. -/
theorem failure_not_always_in_named_file :
    ¬ ∀ (i : Interpreter) (past : List (Text × Text)) (bound : Nat) (files : Files)
      (path text : Text) (run : Run) (after : Interpreter) (fault : Diagnostic),
        i.RanFiles past → files.read path = .ok text →
          i.runFile bound files path = .ok (run, after) → run.outcome = .failed fault →
            ∃ each ∈ (path, text) :: past, each.1 = fault.file ∧
              fault.position.PointsInto each.2 := by
  intro always
  have read : someFiles.read (utf8 "b.itl") = .ok (utf8 "f(1);") := rfl
  obtain ⟨run, after, fault, ended, failed, there⟩ := Interpreter.holder_fails
  have standard := Interpreter.holder_ranFiles.functionsOf.1
  have file := standard.file_of_runFile read ended failed
  obtain ⟨each, member, named, inside⟩ :=
    always _ _ _ _ _ _ _ _ _ Interpreter.holder_ranFiles read ended failed
  rw [file] at named
  have lines := inside.line_le
  simp only [List.mem_cons, List.not_mem_nil, or_false] at member
  rcases member with rfl | rfl
  · rw [there] at lines
    exact absurd lines (by decide)
  · exact absurd named (by decide)

end Scriptlet
