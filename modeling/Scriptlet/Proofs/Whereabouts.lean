import Scriptlet.Proofs.Checking
import Scriptlet.Proofs.Coverage
import Scriptlet.Proofs.Placement
import Scriptlet.Proofs.Places
/-!
Where evaluation fails. A rule places its own faults at marks of its statement, and what a program
evaluates are its parts and the bodies of functions that it declared; so its faults are at tokens that
it was read from. With the places of scanning and parsing, every fault of a run points into the source.
-/
namespace Scriptlet

/-- The marks of a statement and of its parts, at any depth, are known tokens. -/
def Stmt.Marked (known : Token → Prop) (statement : Stmt) : Prop :=
  ∀ part, Relation.ReflTransGen (fun whole part => part ∈ Stmt.parts whole) statement part →
    ∀ token ∈ part.marks, known token

variable {known : Token → Prop}

theorem Stmt.marked_iff {statement : Stmt} :
    statement.Marked known ↔
      (∀ token ∈ statement.marks, known token) ∧ ∀ part ∈ statement.parts, part.Marked known := by
  constructor
  · intro marked
    exact ⟨marked statement .refl, fun part own inner path => marked inner (.head own path)⟩
  · rintro ⟨own, parts⟩ inner path
    rcases path.cases_head with rfl | ⟨part, member, path⟩
    · exact own
    · exact parts part member inner path

theorem Stmt.Marked.imp {other : Token → Prop} {statement : Stmt} (marked : statement.Marked known)
    (met : ∀ token, known token → other token) : statement.Marked other :=
  fun part path token member => met token (marked part path token member)

/-- The same of an expression: its marks, and those of its operands. -/
theorem Expr.marked_iff {e : Expr} :
    (Stmt.expr e).Marked known ↔
      (∀ token ∈ e.marks, known token) ∧ ∀ part ∈ e.operands, (Stmt.expr part).Marked known := by
  rw [Stmt.marked_iff]
  simp [Stmt.marks, Stmt.parts]

theorem Expr.marked_of_two {e left right : Expr} {mark : Token} (marks : e.marks = [mark])
    (operands : e.operands = [left, right]) (own : known mark) (first : (Stmt.expr left).Marked known)
    (second : (Stmt.expr right).Marked known) : (Stmt.expr e).Marked known := by
  rw [Expr.marked_iff, marks, operands]
  refine ⟨fun token member => List.mem_singleton.mp member ▸ own, ?_⟩
  intro part member
  rcases List.mem_pair.mp member with rfl | rfl
  · exact first
  · exact second

theorem Expr.known_of_nameMarks {e : Expr} (marked : (Stmt.expr e).Marked known) :
    ∀ token ∈ e.nameMarks, known token := by
  cases e with
  | ident name => exact (Expr.marked_iff.mp marked).1
  | _ => simp [Expr.nameMarks]

section Phrases

theorem Entry.marked {entry : Entry} {ts : List Token} (formed : entry.tokens.Sublist ts)
    (values : ∀ value ∈ entry.value, (∀ token ∈ value.tokens, known token) →
      (Stmt.expr value.tree).Marked known)
    (all : ∀ token ∈ ts, known token) :
    known entry.key ∧ ∀ part ∈ entry.tree.2.present, (Stmt.expr part).Marked known := by
  refine ⟨all _ (formed.subset entry.key_mem), ?_⟩
  intro part member
  obtain ⟨rfl, present⟩ := Expr.eq_of_mem_present member
  rcases given : entry.value with _ | value
  · simp [Entry.tree, given] at present
  · have inside := (Entry.sublist given).trans formed
    have marked := values value given fun token inner => all token (inside.subset inner)
    simpa [Entry.tree, given] using marked

theorem Expr.Derives.marked {tier : Tier} {ts : List Token} {e : Expr} (derived : e.Derives tier ts)
    (all : ∀ token ∈ ts, known token) : (Stmt.expr e).Marked known := by
  induction derived with
  | through _ ih => exact ih all
  | name | bare => exact Expr.marked_iff.mpr ⟨all, by simp [operands, present]⟩
  | number | quoted | decimal => exact Expr.marked_iff.mpr ⟨by simp [marks], by simp [operands]⟩
  | group _ _ _ ih => exact ih fun token inner => all token (by simp [inner])
  | @call ts callee opening arguments inner closing _ _ listed _ _ ih ihs =>
    refine Expr.marked_iff.mpr ⟨by simpa [marks] using all opening (by simp), ?_⟩
    intro part member
    rcases List.mem_cons.mp member with rfl | argument
    · exact ih fun token before => all token (by simp [before])
    · obtain ⟨phrase, given, rfl⟩ := List.mem_map.mp argument
      refine ihs phrase given fun token own => all token ?_
      simp [(listed.sublist phrase given).subset own]
  | @computed ts holder opening inner key closing _ _ _ _ ih ihKey =>
    apply Expr.marked_of_two rfl rfl (all opening (by simp))
    · exact ih fun token before => all token (by simp [before])
    · exact ihKey fun token inside => all token (by simp [inside])
  | @named ts holder point inner name _ _ _ ih _ =>
    refine Expr.marked_iff.mpr ⟨by simpa [marks] using all point (by simp), ?_⟩
    intro part member
    obtain rfl := List.mem_singleton.mp member
    exact ih fun token before => all token (by simp [before])
  | @operation tier ts left operator inner right _ _ _ _ ihLeft ihRight =>
    apply Expr.marked_of_two rfl rfl (all operator (by simp))
    · exact ihLeft fun token before => all token (by simp [before])
    · exact ihRight fun token behind => all token (by simp [behind])
  | @increment ts operand operator _ _ ih =>
    have marked := ih fun token before => all token (by simp [before])
    refine Expr.marked_iff.mpr ⟨?_, ?_⟩
    · exact List.forall_mem_cons.mpr ⟨all operator (by simp), known_of_nameMarks marked⟩
    · intro part member
      obtain ⟨rfl, -⟩ := eq_of_mem_present member
      exact marked
  | @object opening entries inner closing _ enumerated _ _ ihs =>
    have each (entry : Entry) (member : entry ∈ entries) :=
      Entry.marked (enumerated.sublist entry member) (ihs entry member)
        fun token inside => all token (by simp [inside])
    refine Expr.marked_iff.mpr ⟨?_, ?_⟩
    · simp only [marks, List.map_map, List.forall_mem_map]
      exact fun entry member => (each entry member).1
    · intro part member
      obtain ⟨_, inside, own⟩ := List.mem_flatMap.mp member
      obtain ⟨entry, given, rfl⟩ := List.mem_map.mp inside
      exact (each entry given).2 part own
  | @assign ts target equals inner value _ _ _ ihTarget ihValue =>
    have named := known_of_nameMarks (ihTarget fun token before => all token (by simp [before]))
    refine Expr.marked_iff.mpr ⟨?_, ?_⟩
    · exact List.forall_mem_cons.mpr ⟨all equals (by simp), named⟩
    · intro part member
      obtain rfl := List.mem_singleton.mp member
      exact ihValue fun token behind => all token (by simp [behind])

theorem Expr.marked_present {e : Expr} (marked : e ≠ .absent → (Stmt.expr e).Marked known) :
    ∀ part ∈ e.present.map Stmt.expr, part.Marked known := by
  intro part member
  obtain ⟨given, inside, rfl⟩ := List.mem_map.mp member
  obtain ⟨rfl, present⟩ := eq_of_mem_present inside
  exact marked present

theorem Declaration.Derives.marked {ts : List Token} {d : Declaration} (derived : d.Derives ts)
    (all : ∀ token ∈ ts, known token) : (Stmt.declare d).Marked known := by
  rw [Stmt.marked_iff]
  cases derived with
  | bare => exact ⟨by simpa [Stmt.marks] using all _ (by simp), by simp [Stmt.parts, Expr.present]⟩
  | valued _ _ _ value _ =>
    refine ⟨by simpa [Stmt.marks] using all _ (by simp), Expr.marked_present fun _ => ?_⟩
    exact value.marked fun token inside => all token (by simp [inside])
  | @folded word name equals ts left operator inner right semicolon _ _ _ first _ second _ =>
    refine ⟨by simpa [Stmt.marks] using all _ (by simp), Expr.marked_present fun _ => ?_⟩
    apply Expr.marked_of_two rfl rfl (all operator (by simp))
    · exact first.marked fun token before => all token (by simp [before])
    · exact second.marked fun token behind => all token (by simp [behind])

theorem Block.marked {block : Block}
    (body : ∀ part ∈ block.body, (∀ token ∈ part.tokens, known token) → part.tree.Marked known)
    (all : ∀ token ∈ block.tokens, known token) : ∀ part ∈ block.trees, part.Marked known := by
  intro statement member
  obtain ⟨part, inside, rfl⟩ := List.mem_map.mp member
  refine body part inside fun token own => all token ?_
  simp [Block.tokens, (sublist_of_part inside).subset own]

/-- The word of a link is a mark; its condition and its body are parts. -/
theorem Link.marked {kind : Kind} {tier : Tier} {link : Link} (formed : link.Formed kind tier)
    (body : ∀ part ∈ link.block.body, (∀ token ∈ part.tokens, known token) →
      part.tree.Marked known)
    (all : ∀ token ∈ link.tokens, known token) :
    known link.word ∧
      ∀ part ∈ Stmt.expr link.condition.tree :: link.block.trees, part.Marked known := by
  refine ⟨all _ List.mem_cons_self, List.forall_mem_cons.mpr ⟨?_, Block.marked body ?_⟩⟩
  · exact formed.condition.marked fun token inside => all token (by simp [Link.tokens, inside])
  · exact fun token inside => all token (by simp [Link.tokens, inside])

theorem Stmt.marked_branch {first : Guarded Stmt} {others : List (Guarded Stmt)}
    (each : ∀ link ∈ first :: others, known link.token ∧
      ∀ part ∈ Stmt.expr link.condition :: link.body, part.Marked known) :
    (Stmt.branch first others).Marked known := by
  refine Stmt.marked_iff.mpr ⟨?_, ?_⟩
  · simp only [Stmt.marks, List.forall_mem_map]
    exact fun link member => (each link member).1
  · intro part member
    obtain ⟨link, inside, own⟩ := List.mem_flatMap.mp member
    exact (each link inside).2 part own

theorem Link.marked_chain {first : Link} {others : List Link} (opens : first.Formed .ifWord .assignment)
    (goes : ∀ link ∈ others, link.Formed .elifWord .assignment)
    (bodies : ∀ link ∈ first :: others, ∀ part ∈ link.block.body,
      (∀ token ∈ part.tokens, known token) → part.tree.Marked known)
    (all : ∀ token ∈ first.tokens ++ others.flatMap Link.tokens, known token) :
    ∀ link ∈ (first :: others).map Link.tree, known link.token ∧
      ∀ part ∈ Stmt.expr link.condition :: link.body, part.Marked known := by
  rw [List.forall_mem_map]
  intro link member
  rcases List.mem_cons.mp member with rfl | later
  · exact Link.marked opens (bodies _ member) fun token inside => all token (by simp [inside])
  · refine Link.marked (goes link later) (bodies link member) fun token inside => all token ?_
    exact List.mem_append_right _ (List.mem_flatMap.mpr ⟨link, later, inside⟩)

theorem Stmt.Derives.marked {ts : List Token} {statement : Stmt} (derived : Stmt.Derives ts statement)
    (all : ∀ token ∈ ts, known token) : statement.Marked known := by
  induction derived with
  | expr derived => exact derived.marked all
  | closed derived _ => exact derived.marked fun token before => all token (by simp [before])
  | declare derived => exact derived.marked all
  | function _ _ _ _ _ _ _ _ _ ih =>
    refine Stmt.marked_iff.mpr ⟨by simpa [Stmt.marks] using all _ (by simp), ?_⟩
    exact Block.marked ih fun token inside => all token (by simp [inside])
  | branch opens goes _ ih => exact Stmt.marked_branch (Link.marked_chain opens goes ih all)
  | @otherwise first others word block opens goes _ _ _ _ ih ihLast =>
    have chain := Link.marked_chain opens goes ih fun token before =>
      all token (List.mem_append_left _ before)
    have last := Block.marked ihLast fun token inside => all token (by simp [inside])
    have always : (Stmt.expr (.boolean word true)).Marked known :=
      Expr.marked_iff.mpr ⟨by simp [Expr.marks], by simp [Expr.operands]⟩
    apply Stmt.marked_branch
    rw [← List.cons_append]
    intro link member
    rcases List.mem_append.mp member with conditional | closing
    · exact chain link conditional
    · obtain rfl := List.mem_singleton.mp closing
      exact ⟨all word (by simp), List.forall_mem_cons.mpr ⟨always, last⟩⟩
  | whileLoop formed _ ih =>
    obtain ⟨word, parts⟩ := Link.marked formed ih all
    exact Stmt.marked_iff.mpr ⟨by simpa [Stmt.marks] using word, parts⟩
  | @forLoop word opening start first semicolon test ts step inner closing block _ _ declared tested _
      stepped _ _ _ ih =>
    have start_ := declared.marked fun token inside => all token (by simp [inside])
    have test_ := tested.marked fun token inside => all token (by simp [inside])
    have step_ := Expr.marked_present fun present : step ≠ .absent => by
      rcases stepped with ⟨-, absent⟩ | ⟨-, derived⟩
      · exact absurd absent present
      · exact derived.marked fun token inside => all token (by simp [inside])
    have body := Block.marked ih fun token inside => all token (by simp [inside])
    refine Stmt.marked_iff.mpr ⟨by simpa [Stmt.marks] using all word (by simp), ?_⟩
    intro part member
    simp only [Stmt.parts, Option.toList_some, List.map_cons, List.map_nil, List.mem_append,
      List.mem_cons, List.not_mem_nil, or_false] at member
    rcases member with (rfl | rfl | inside) | inside
    · exact start_
    · exact test_
    · exact step_ part inside
    · exact body part inside

end Phrases

section Evaluations

/-- Runs statements that are marked at known tokens, in any scope. -/
def Policy.marked (known : Token → Prop) : Policy where
  runs := Stmt.Marked known
  enters := fun _ => True
  declares := fun _ _ => True
  base := 0
  runs_parts := fun marked => (Stmt.marked_iff.mp marked).2
  enters_own := fun _ _ => trivial
  declares_own := fun _ _ => trivial

/-- The evaluation without its faults: where it stops, nothing is said about why. -/
def Eval.muted (eval : Evaluation) : Evaluation :=
  fun statement scope => tryCatch (eval statement scope) fun _ => throw .exhausted

theorem Eval.outcome_muted (eval : Evaluation) (statement : Stmt) (scope : Scope) (store : Store) :
    (muted eval statement scope).outcome store =
      match (eval statement scope).outcome store with
      | (.ok value, after) => (.ok value, after)
      | (.error _, after) => (.error .exhausted, after) := by
  change StateT.run (ExceptT.run (tryCatch _ _)) store = _
  simp only [ExceptT.run_tryCatch, StateT.run_bind, Action.outcome]
  rcases StateT.run (ExceptT.run (eval statement scope)) store with ⟨stop | value, after⟩ <;> rfl

theorem Eval.blames_muted {blame : Diagnostic → Prop} (eval : Evaluation) (statement : Stmt)
    (scope : Scope) : Action.Blames blame (muted eval statement scope) := by
  intro store fault after stops
  rw [Action.Stops, outcome_muted] at stops
  split at stops <;> cases stops

/-- The fault is at the place of a known token. -/
def Diagnostic.AtKnown (known : Token → Prop) (fault : Diagnostic) : Prop :=
  ∃ token, known token ∧ fault.position = token.position

/-- A task whose parts all give values has no fault but at its own marks. -/
theorem Task.Raises.atKnown {task : Task} {fault : Diagnostic} {after : Store}
    (raised : task.Raises (.failed fault) after) (within : task.Within (Policy.marked known)) :
    fault.AtKnown known := by
  have silent (eval : Eval.Evaluation) (statement : Stmt) (scope : Scope) :
      Action.Blames (Diagnostic.AtKnown known) (Eval.muted eval statement scope) :=
    Eval.blames_muted eval statement scope
  -- what the task performs gives values, so it may as well be performed without faults
  have alone (other : Eval.Evaluation) (same : ∀ bound statement scope store,
      task.Performs ⟨bound, .statement statement, scope, store⟩ →
        other statement scope = Eval.muted (Stmt.eval bound) statement scope) :
      task.outcomeWith other = (.error (.failed fault), after) := by
    rw [← raised.stops]
    apply Task.outcomeWith_eq
    intro bound statement scope store performed
    obtain ⟨value, left, gives⟩ := raised.parts _ performed
    change (statement.eval bound scope).outcome store = _ at gives
    rw [same _ _ _ _ performed, Eval.outcome_muted, gives]
  rcases task with ⟨bound, node, scope, store⟩
  cases node with
  | program statements =>
    have stops := alone (Eval.muted (Stmt.eval bound)) (by rintro _ _ _ _ ⟨⟩; rfl)
    exact Eval.blames_sequence (silent _) scope _ statements _ _ _ stops
  | statement single =>
    cases bound with
    | zero => cases raised.stops
    | succ bound =>
      have stops := alone (Eval.muted (Stmt.eval bound)) (by rintro _ _ _ _ ⟨⟩; rfl)
      have own := (Stmt.marked_iff.mp (within.runs single List.mem_cons_self)).1
      refine Eval.blames_rule (silent _) scope bound single ?_ _ _ _ stops
      exact fun token member _ _ => ⟨token, own token member, rfl⟩

/-- The faults of an evaluation are at tokens that its statements, or the functions in its store, are
marked at. -/
theorem Task.atKnown {task : Task} (within : task.Within (Policy.marked known))
    {fault : Diagnostic} {after : Store} (failed : task.outcome = (.error (.failed fault), after)) :
    fault.AtKnown known := by
  obtain ⟨origin, path, raised⟩ := Task.exists_raises failed
  exact raised.atKnown (Task.within_of_reflTransGen within path)

theorem Program.Derives.marked {program : Program} {ts : List Token} (derived : program.Derives ts)
    (all : ∀ token ∈ ts, known token) : ∀ statement ∈ program, Stmt.Marked known statement := by
  obtain ⟨parts, each, rfl, rfl⟩ := derived
  intro statement member
  obtain ⟨part, inside, rfl⟩ := List.mem_map.mp member
  exact (each part inside).marked fun token own => all token (List.mem_flatMap.mpr ⟨part, inside, own⟩)

theorem Diagnostic.position_orInFile (fault : Diagnostic) (file : Text) :
    (fault.orInFile file).position = fault.position := by
  unfold Diagnostic.orInFile
  split <;> rfl

theorem Diagnostic.atKnown_orInFile (fault : Diagnostic) (file : Text) :
    (fault.orInFile file).AtKnown known ↔ fault.AtKnown known := by
  simp only [Diagnostic.AtKnown, position_orInFile]

theorem Interpreter.atKnown_of_execute {i : Interpreter} {program : Program} {bound : Nat}
    {fault : Diagnostic} (ready : (Policy.marked known).Ready i.store)
    (marked : ∀ statement ∈ program, statement.Marked known)
    (failed : (execute bound i program).1.outcome = .failed fault) : fault.AtKnown known := by
  obtain ⟨found, after, ended, rfl⟩ := failed_of_execute failed
  have within : (i.task bound program).Within (Policy.marked known) :=
    ⟨marked, trivial, fun _ _ => trivial, ready⟩
  exact (found.atKnown_orInFile i.file).mpr (Task.atKnown within ended)

end Evaluations

section Sources
variable {source : Text} {fault : Diagnostic}

/-- A source is refused at one of its bytes, or at one of its tokens. -/
theorem Parser.place_of_parseFresh
    (refused : parseFresh Keywords.default source = .error fault) :
    fault.faultClass = .lexical ∧ Position.start.OfByte source fault.position ∨
      fault.faultClass = .grammar ∧
        ∃ tokens, scan Keywords.default source = .ok tokens ∧ fault.AtKnown (· ∈ tokens) := by
  rcases parseFresh_eq_error_iff.mp refused with unscanned | ⟨tokens, scanned, ran⟩
  · exact .inl (ofByte_of_scanFrom unscanned)
  · obtain ⟨front, last, rfl, ended, -⟩ := proper_of_scan scanned
    have ahead := upcoming_ofTokens front ended
    have settled := Grammar.points_program (Cursor.ofTokens (front ++ [last])) fun token member =>
      show token ∈ front ++ [last] by rwa [ahead] at member
    rw [ran] at settled
    cases settled with
    | fails here same grammar => exact .inr ⟨grammar, _, scanned, _, here, same⟩

/-- The statements of a program are marked at tokens of its source. -/
theorem Parser.marked_of_parseFresh {program : Program}
    (parsed : parseFresh Keywords.default source = .ok program) :
    ∃ tokens, scan Keywords.default source = .ok tokens ∧
      ∀ statement ∈ program, Stmt.Marked (· ∈ tokens) statement := by
  obtain ⟨front, last, after, scanned, ended, inside, ran⟩ := run_of_parseFresh parsed
  have derived := Grammar.derives_front (upcoming_ofTokens front ended) ended inside ran
  exact ⟨_, scanned, derived.marked fun token member => List.mem_append_left [last] member⟩

namespace Interpreter

/-- A source that is run in a store whose functions have known tokens fails at one of its bytes, before
it has tokens, or at one of its tokens, before it is evaluated, or at a known token. -/
theorem Standard.place_of_run {i : Interpreter} (standard : i.Standard)
    (ready : (Policy.marked known).Ready i.store)
    (covers : ∀ tokens, scan Keywords.default source = .ok tokens → ∀ token ∈ tokens, known token)
    {bound : Nat} (failed : (i.run bound source).1.outcome = .failed fault) :
    fault.faultClass = .lexical ∧ Position.start.OfByte source fault.position ∨
      fault.faultClass = .grammar ∧
        (∃ tokens, scan Keywords.default source = .ok tokens ∧ fault.AtKnown (· ∈ tokens)) ∨
      (fault.faultClass = .resolution ∨ fault.faultClass = .type) ∧ fault.AtKnown known := by
  rcases parsed : (i.parse source).1 with found | program
  · rw [run_of_error parsed] at failed
    cases failed
    obtain ⟨found, refused, rfl⟩ := standard.parseFresh_of_error parsed
    simp only [Diagnostic.class_orInFile, Diagnostic.position_orInFile, Diagnostic.atKnown_orInFile]
    rcases Parser.place_of_parseFresh refused with lexical | grammar
    · exact .inl lexical
    · exact .inr (.inl grammar)
  · rw [run_of_ok parsed] at failed
    obtain ⟨tokens, scanned, marked⟩ := Parser.marked_of_parseFresh (standard.parseFresh parsed)
    have known_ := fun statement member => (marked statement member).imp (covers tokens scanned)
    exact .inr (.inr ⟨dynamic_of_execute failed, atKnown_of_execute ready known_ failed⟩)

/-- The first source that an interpreter runs fails at one of its bytes, before it has tokens, or at
one of its tokens. -/
theorem place_of_run {machine : Machine} {file : Text} {bound : Nat}
    (failed : ((fresh machine file).run bound source).1.outcome = .failed fault) :
    fault.faultClass = .lexical ∧ Position.start.OfByte source fault.position ∨
      fault.faultClass ≠ .lexical ∧
        ∃ tokens, scan Keywords.default source = .ok tokens ∧ fault.AtKnown (· ∈ tokens) := by
  have ready : (Policy.marked fun token =>
      ∃ tokens, scan Keywords.default source = .ok tokens ∧ token ∈ tokens).Ready
        (fresh machine file).store := ready_fresh (Nat.zero_le _) machine
  rcases (standard_fresh machine file).place_of_run ready
      (fun tokens scanned token member => ⟨tokens, scanned, member⟩) failed with
    lexical | ⟨grammar, among⟩ | ⟨dynamic, token, ⟨tokens, scanned, member⟩, same⟩
  · exact .inl lexical
  · exact .inr ⟨by simp [grammar], among⟩
  · refine .inr ⟨?_, tokens, scanned, token, member, same⟩
    rcases dynamic with resolution | type <;> simp [*]

end Interpreter

/-- A token of a source points into it. It is in column 0 only if it is the end of input and the last
line is empty. -/
theorem Token.pointsInto_of_scan {tokens : List Token} {token : Token}
    (scanned : scan Keywords.default source = .ok tokens) (member : token ∈ tokens) :
    token.position.PointsInto source ∧ (token.position.column = 0 →
      token.kind = .endOfInput ∧ (Cli.sourceLines source).getLast? = some []) := by
  obtain ⟨front, rfl, bytes⟩ := ofByte_of_tokens scanned
  rcases List.mem_append.mp member with inside | last
  · have byte := bytes token inside
    refine ⟨byte.pointsInto, ?_⟩
    intro zero
    have := byte.column_pos
    omega
  · obtain rfl := List.mem_singleton.mp last
    refine ⟨Position.atEnd_pointsInto source, ?_⟩
    intro zero
    obtain ⟨line, final, column⟩ := Position.column_atEnd source
    have empty : line = [] := List.eq_nil_of_length_eq_zero (by simp only at zero; omega)
    exact ⟨rfl, empty ▸ final⟩

/-- The report of a fault that points into the source shows the line it is in. -/
theorem Cli.faultReport_of_pointsInto (inside : fault.position.PointsInto source) :
    ∃ line, (sourceLines source)[(fault.position.line - 1).toNat]? = some line ∧
      faultReport fault source = fault.pretty ++ utf8 "\n" ++
        (margin ++ line.dropWhile isIndentation ++ utf8 "\n" ++
          caretLine line fault.position.column) := by
  obtain ⟨line, found, -⟩ := inside.column_le
  have positive : ¬ fault.position.line ≤ 0 := by
    have := inside.line_pos
    omega
  exact ⟨line, found, by rw [faultReport, sourceContext, if_neg positive, found]⟩

end Sources

/-- When the first source that an interpreter runs fails, the fault points into the source, and its
report shows the line that it is in. A lexical fault is at a byte of the source; any other is at one of
its tokens, and in column 0 only if this is the end of input and the last line is empty. -/
theorem failure_pointsInto_source {machine : Machine} {file : Text} {bound : Nat} {source : Text}
    {fault : Diagnostic}
    (failed : ((Interpreter.fresh machine file).run bound source).1.outcome = .failed fault) :
    fault.position.PointsInto source ∧
      (∃ line, (Cli.sourceLines source)[(fault.position.line - 1).toNat]? = some line ∧
        Cli.faultReport fault source = fault.pretty ++ utf8 "\n" ++
          (Cli.margin ++ line.dropWhile Cli.isIndentation ++ utf8 "\n" ++
            Cli.caretLine line fault.position.column)) ∧
      (fault.faultClass = .lexical → Position.start.OfByte source fault.position) ∧
      (fault.faultClass ≠ .lexical → ∃ tokens, scan Keywords.default source = .ok tokens ∧
        ∃ token ∈ tokens, fault.position = token.position ∧ (fault.position.column = 0 →
          token.kind = .endOfInput ∧ (Cli.sourceLines source).getLast? = some [])) := by
  rcases Interpreter.place_of_run failed with
    ⟨lexical, byte⟩ | ⟨other, tokens, scanned, token, member, same⟩
  · exact ⟨byte.pointsInto, Cli.faultReport_of_pointsInto byte.pointsInto, fun _ => byte,
      fun other => absurd lexical other⟩
  · obtain ⟨inside, zero⟩ := Token.pointsInto_of_scan scanned member
    rw [← same] at inside zero
    exact ⟨inside, Cli.faultReport_of_pointsInto inside, fun lexical => absurd lexical other,
      fun _ => ⟨tokens, scanned, token, member, same, zero⟩⟩

/-- How a source ends that is the first to be run. -/
def Interpreter.firstOutcome (source : Text) : Outcome :=
  ((fresh (.still ⟨2024, 3, 9, 14, 5, 7, 0⟩) []).run 9 source).1.outcome

/-- The class and the place of a fault. -/
def Outcome.fault? : Outcome → Option (FaultClass × Position)
  | .failed fault => some (fault.faultClass, fault.position)
  | _ => none

theorem Outcome.failed_of_fault? {outcome : Outcome} {kind : FaultClass} {place : Position}
    (found : outcome.fault? = some (kind, place)) :
    ∃ fault, outcome = .failed fault ∧ fault.faultClass = kind ∧ fault.position = place := by
  cases outcome with
  | failed fault =>
    cases found
    exact ⟨fault, rfl, rfl, rfl⟩
  | _ => cases found

-- An escape that is none, a call that is not closed before the empty last line, and a member of a
-- number inside a function.
theorem failures_point :
    (∃ fault, Interpreter.firstOutcome (utf8 "x\n'\\z'") = .failed fault ∧
        fault.position = ⟨2, 3⟩ ∧ fault.position.PointsInto (utf8 "x\n'\\z'") ∧
        Position.start.OfByte (utf8 "x\n'\\z'") fault.position) ∧
      (∃ fault, Interpreter.firstOutcome (utf8 "f(\n") = .failed fault ∧
        fault.position = ⟨2, 0⟩ ∧ fault.position.PointsInto (utf8 "f(\n") ∧
        ∃ token : Token, token.kind = .endOfInput ∧ fault.position = token.position) ∧
      ∃ fault, Interpreter.firstOutcome (utf8 "func f(o) \x7b\no.a; \x7d f(1);") = .failed fault ∧
        fault.position = ⟨2, 2⟩ ∧
        fault.position.PointsInto (utf8 "func f(o) \x7b\no.a; \x7d f(1);") := by
  obtain ⟨first, failed, lexical, there⟩ := Outcome.failed_of_fault?
    (show (Interpreter.firstOutcome (utf8 "x\n'\\z'")).fault? = some (.lexical, ⟨2, 3⟩) by
      decide +kernel)
  obtain ⟨second, refused, grammar, ending⟩ := Outcome.failed_of_fault?
    (show (Interpreter.firstOutcome (utf8 "f(\n")).fault? = some (.grammar, ⟨2, 0⟩) by
      decide +kernel)
  obtain ⟨third, stopped, type, point⟩ := Outcome.failed_of_fault?
    (show (Interpreter.firstOutcome (utf8 "func f(o) \x7b\no.a; \x7d f(1);")).fault? =
      some (.type, ⟨2, 2⟩) by decide +kernel)
  obtain ⟨inside, -, byte, -⟩ := failure_pointsInto_source failed
  obtain ⟨behind, -, -, token⟩ := failure_pointsInto_source refused
  obtain ⟨_, -, token, -, same, zero⟩ := token (by simp [grammar])
  refine ⟨⟨first, failed, there, inside, byte lexical⟩,
    ⟨second, refused, ending, behind, token, ?_, same⟩,
    third, stopped, point, (failure_pointsInto_source stopped).1⟩
  exact (zero (by rw [ending])).1

end Scriptlet
