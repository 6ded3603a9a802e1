import Scriptlet.Proofs.Canonical
/-!
The canonical text of statements. A statement closes itself, with a semicolon or a brace, so the parser
reads the text of each statement of a program in turn, whatever follows it. There is one exception: the
step of a loop is read only if it starts with a name, and one that is an operation starts with a
parenthesis. So for the text of a statement it is decided whether it is read back or refused.
-/
namespace Scriptlet

/-- A step that a loop can read: one that is left out, or that starts with a name. -/
def Expr.isStep : Expr → Bool
  | .absent => true
  | step => step.startsWithName

mutual

/-- The expressions of a statement and of the statements inside it, with their roles. -/
def Stmt.nodes : Stmt → List (Role × Expr)
  | .expr value => value.nodes .statement
  | .declare declaration => declaration.value.nodes .initial
  | .function _ _ _ body => bodyNodes body
  | .branch ⟨_, condition, body⟩ others =>
    condition.nodes .condition ++ bodyNodes body ++ linkNodes others
  | .whileLoop _ condition body => condition.nodes .test ++ bodyNodes body
  | .forLoop _ start condition step body =>
    (match start with
      | none => []
      | some declaration => declaration.value.nodes .initial)
      ++ condition.nodes .test ++ step.nodes .step ++ bodyNodes body

def bodyNodes : List Stmt → List (Role × Expr)
  | [] => []
  | statement :: rest => statement.nodes ++ bodyNodes rest

def linkNodes : List (Guarded Stmt) → List (Role × Expr)
  | [] => []
  | ⟨_, condition, body⟩ :: rest =>
    condition.nodes .condition ++ bodyNodes body ++ linkNodes rest

end

def Guarded.nodes (link : Guarded Stmt) : List (Role × Expr) :=
  link.condition.nodes .condition ++ bodyNodes link.body

theorem bodyNodes_eq (body : List Stmt) : bodyNodes body = body.flatMap Stmt.nodes := by
  induction body with
  | nil => rfl
  | cons statement rest ih => rw [bodyNodes, ih, List.flatMap_cons]

theorem linkNodes_eq (links : List (Guarded Stmt)) : linkNodes links = links.flatMap Guarded.nodes := by
  induction links with
  | nil => rfl
  | cons link rest ih => rw [linkNodes, ih, List.flatMap_cons]; rfl

/-- Every node of a list can be written in its role. -/
def Printable (nodes : List (Role × Expr)) : Prop :=
  ∀ node ∈ nodes, node.2.printsAs node.1 = true

/-- Every step among the nodes of a list can be read. -/
def Steps (nodes : List (Role × Expr)) : Prop :=
  ∀ node ∈ nodes, node.1 = .step → node.2.isStep = true

mutual

theorem Expr.parts_ne_step (e : Expr) : ∀ node ∈ e.parts, node.1 ≠ .step := by
  cases e with
  | absent | ident | number | string | boolean => simp [Expr.parts]
  | object token properties => exact propertyParts_ne_step properties
  | assign token target value =>
    exact List.forall_mem_append.mpr
      ⟨List.forall_mem_cons.mpr ⟨by simp, target.parts_ne_step⟩,
        List.forall_mem_cons.mpr ⟨by simp, value.parts_ne_step⟩⟩
  | binary token operator left right =>
    exact List.forall_mem_append.mpr
      ⟨List.forall_mem_cons.mpr ⟨by simp, left.parts_ne_step⟩,
        List.forall_mem_cons.mpr ⟨by simp, right.parts_ne_step⟩⟩
  | unary token operator operand =>
    exact List.forall_mem_cons.mpr ⟨by simp, operand.parts_ne_step⟩
  | call token callee arguments =>
    exact List.forall_mem_append.mpr
      ⟨List.forall_mem_cons.mpr ⟨by simp, callee.parts_ne_step⟩, argumentParts_ne_step arguments⟩
  | member token object property computed =>
    exact List.forall_mem_append.mpr
      ⟨List.forall_mem_cons.mpr ⟨by simp, object.parts_ne_step⟩,
        List.forall_mem_cons.mpr ⟨by cases computed <;> simp, property.parts_ne_step⟩⟩

theorem argumentParts_ne_step (arguments : List Expr) :
    ∀ node ∈ argumentParts arguments, node.1 ≠ .step := by
  cases arguments with
  | nil => simp [argumentParts]
  | cons e rest =>
    exact List.forall_mem_append.mpr
      ⟨List.forall_mem_cons.mpr ⟨by simp, e.parts_ne_step⟩, argumentParts_ne_step rest⟩

theorem propertyParts_ne_step (properties : List (Ident × Expr)) :
    ∀ node ∈ propertyParts properties, node.1 ≠ .step := by
  cases properties with
  | nil => simp [propertyParts]
  | cons property rest =>
    exact List.forall_mem_append.mpr
      ⟨List.forall_mem_cons.mpr ⟨by simp, property.2.parts_ne_step⟩, propertyParts_ne_step rest⟩

end

theorem steps_nodes {e : Expr} {role : Role} (other : role ≠ .step) : Steps (e.nodes role) := by
  intro node member step
  rcases List.mem_cons.mp member with rfl | inside
  · exact absurd step other
  · exact absurd step (e.parts_ne_step node inside)

theorem steps_step (e : Expr) : Steps (e.nodes .step) ↔ e.isStep = true := by
  constructor
  · intro steps
    exact steps (.step, e) List.mem_cons_self rfl
  · intro step node member _
    rcases List.mem_cons.mp member with rfl | inside
    · exact step
    · exact absurd ‹_› (e.parts_ne_step node inside)

theorem steps_append {a b : List (Role × Expr)} : Steps (a ++ b) ↔ Steps a ∧ Steps b :=
  List.forall_mem_append

theorem steps_bodyNodes {body : List Stmt} :
    Steps (bodyNodes body) ↔ ∀ statement ∈ body, Steps statement.nodes := by
  rw [bodyNodes_eq]
  exact List.forall_mem_flatMap

theorem steps_guarded {link : Guarded Stmt} :
    Steps link.nodes ↔ ∀ statement ∈ link.body, Steps statement.nodes := by
  rw [Guarded.nodes, steps_append, and_iff_right (steps_nodes (by decide)), steps_bodyNodes]

theorem steps_branch {first : Guarded Stmt} {others : List (Guarded Stmt)} :
    Steps (Stmt.branch first others).nodes ↔ Steps first.nodes ∧ ∀ link ∈ others, Steps link.nodes := by
  rw [Stmt.nodes, linkNodes_eq, steps_append]
  exact and_congr_right fun _ => List.forall_mem_flatMap

theorem steps_whileLoop {token : Token} {condition : Expr} {body : List Stmt} :
    Steps (Stmt.whileLoop token condition body).nodes ↔
      ∀ statement ∈ body, Steps statement.nodes := by
  rw [Stmt.nodes, steps_append, and_iff_right (steps_nodes (by decide)), steps_bodyNodes]

theorem steps_forLoop {token : Token} {d : Declaration} {condition step : Expr} {body : List Stmt} :
    Steps (Stmt.forLoop token (some d) condition step body).nodes ↔
      step.isStep = true ∧ ∀ statement ∈ body, Steps statement.nodes := by
  rw [Stmt.nodes, steps_append, steps_append, steps_append, steps_step, steps_bodyNodes,
    and_iff_right (steps_nodes (by decide)), and_iff_right (steps_nodes (by decide))]

namespace Parse

variable {α β : Type} {stops : Token → Prop} {good : Prop}

/-- Before a token as stated, the parser takes the tokens and returns the value if a condition holds,
and fails otherwise. -/
def Decides (good : Prop) (stops : Token → Prop) (parser : Parse α) (ts : List Token) (value : α) :
    Prop :=
  ∀ cursor next rest, cursor.upcoming = ts ++ next :: rest → stops next →
    good ∧ (∃ after, parser.run cursor = .ok (value, after) ∧ after.upcoming = next :: rest) ∨
      ¬ good ∧ ∃ fault, parser.run cursor = .error fault

theorem Reads.decides {parser : Parse α} {ts : List Token} {value : α}
    (reads : Reads stops parser ts value) (holds : good) : Decides good stops parser ts value :=
  fun cursor next rest ahead stop => .inl ⟨holds, reads cursor next rest ahead stop⟩

theorem Decides.congr {other : Prop} {parser : Parse α} {ts : List Token} {value : α}
    (decides : Decides good stops parser ts value) (same : good ↔ other) :
    Decides other stops parser ts value := by
  rwa [propext same] at decides

theorem Decides.anywhere {parser : Parse α} {ts : List Token} {value : α}
    (decides : Decides good (fun _ => True) parser ts value) : Decides good stops parser ts value :=
  fun cursor next rest ahead _ => decides cursor next rest ahead trivial

theorem run_bind_error {parser : Parse α} {next : α → Parse β} {cursor : Cursor} {fault : Diagnostic}
    (failed : parser.run cursor = .error fault) : (parser >>= next).run cursor = .error fault := by
  rw [StateT.run_bind, failed]
  rfl

theorem Decides.bind {parser : Parse α} {next : α → Parse β} {ts us : List Token} {value : α}
    {result : β} {between : Token → Prop} {also : Prop} (first : Decides good between parser ts value)
    (met : ∀ token rest, us = token :: rest → between token)
    (through_ : us = [] → ∀ token, stops token → between token)
    (second : Decides also stops (next value) us result) :
    Decides (good ∧ also) stops (parser >>= next) (ts ++ us) result := by
  intro cursor behind rest ahead stop
  obtain ⟨token, more, same, stopped⟩ := first_behind stop met through_
  rw [List.append_assoc, same] at ahead
  rcases first cursor token more ahead stopped with ⟨holds, middle, ran, left⟩ | ⟨fails, fault, ran⟩
  · rcases second middle behind rest (left.trans same.symm) stop with
      ⟨further, after, finished, last⟩ | ⟨fails, fault, failed⟩
    · exact .inl ⟨⟨holds, further⟩, after, run_bind_iff.mpr ⟨value, middle, ran, finished⟩, last⟩
    · refine .inr ⟨fun both => fails both.2, fault, ?_⟩
      rw [StateT.run_bind, ran]
      exact failed
  · exact .inr ⟨fun both => fails both.1, fault, run_bind_error ran⟩

theorem Reads.decides_bind {parser : Parse α} {next : α → Parse β} {ts us : List Token} {value : α}
    {result : β} {between : Token → Prop} (first : Reads between parser ts value)
    (met : ∀ token rest, us = token :: rest → between token)
    (through_ : us = [] → ∀ token, stops token → between token)
    (second : Decides good stops (next value) us result) :
    Decides good stops (parser >>= next) (ts ++ us) result :=
  ((first.decides trivial).bind met through_ second).congr (and_iff_right trivial)

theorem Reads.decides_cons {parser : Parse α} {next : α → Parse β} {token : Token} {us : List Token}
    {value : α} {result : β} (first : Reads (fun _ => True) parser [token] value)
    (second : Decides good stops (next value) us result) :
    Decides good stops (parser >>= next) (token :: us) result :=
  first.decides_bind (fun _ _ _ => trivial) (fun _ _ _ => trivial) second

theorem Decides.finish {parser : Parse α} {next : α → Parse β} {ts : List Token} {value : α}
    {result : β} (first : Decides good stops parser ts value)
    (second : Reads stops (next value) [] result) : Decides good stops (parser >>= next) ts result := by
  rw [← List.append_nil ts]
  exact (first.bind (by simp) (fun _ _ stop => stop) (second.decides trivial)).congr (and_iff_left trivial)

theorem decides_peek {next : Token → Parse β} {token : Token} {ts : List Token} {result : β}
    (rest : Decides good stops (next token) (token :: ts) result) :
    Decides good stops (peek >>= next) (token :: ts) result := by
  intro cursor behind more ahead stop
  have decided := rest cursor behind more ahead stop
  rwa [← current_of_upcoming ahead] at decided

theorem decides_isAt {kind : Kind} {next : Bool → Parse β} {token : Token} {ts : List Token}
    {result : β}
    (rest : Decides good stops (next (decide (token.kind = kind))) (token :: ts) result) :
    Decides good stops (isAt kind >>= next) (token :: ts) result := by
  intro cursor behind more ahead stop
  have decided := rest cursor behind more ahead stop
  rwa [← current_of_upcoming ahead] at decided

theorem decides_expect {kind : Kind} {next : Token → Parse β} {token : Token} {ts : List Token}
    {result : β} (other : token.kind ≠ kind) (hint : Text) (fails : ¬ good) :
    Decides good stops (expect kind hint >>= next) (token :: ts) result := by
  intro cursor behind more ahead _
  have here := current_of_upcoming ahead
  have refused : (expect kind hint).run cursor = .error (Cursor.unexpected kind hint token) := by
    rw [run_expect, here, if_neg other]
  exact .inr ⟨fails, _, run_bind_error refused⟩

/-- Items one after another, each before the next: they are read if each is. -/
theorem decides_collect {starts : Kind → Bool} {item : Parse α} {between : Token → Prop}
    (accepted : α → Prop) (parts : List (Phrase α))
    (each : ∀ part ∈ parts, Decides (accepted part.tree) between item part.tokens part.tree)
    (headed : ∀ part ∈ parts, ∃ first rest, part.tokens = first :: rest ∧
      starts first.kind = true ∧ between first)
    (ended : ∀ token, stops token → starts token.kind = false ∧ between token) :
    ∀ bound, (parts.flatMap Phrase.tokens).length < bound →
      Decides (∀ value ∈ parts.map Phrase.tree, accepted value) stops (collect starts item bound)
        (parts.flatMap Phrase.tokens) (parts.map Phrase.tree) := by
  induction parts with
  | nil =>
    intro bound _
    have none : Reads stops (collect starts item bound) [] [] :=
      reads_collect_none fun token stop => (ended token stop).1
    exact none.decides (by simp)
  | cons part parts ih =>
    intro bound more
    obtain ⟨fewer, rfl⟩ : ∃ fewer, bound = fewer + 1 := ⟨bound - 1, by omega⟩
    have others := ih (fun other member => each other (List.mem_cons_of_mem _ member))
      (fun other member => headed other (List.mem_cons_of_mem _ member))
    obtain ⟨first, rest, same, start, -⟩ := headed part List.mem_cons_self
    have own := each part List.mem_cons_self
    have long : part.tokens.length = rest.length + 1 := by rw [same, List.length_cons]
    rw [List.flatMap_cons] at more ⊢
    have decided : Decides (accepted part.tree ∧ ∀ value ∈ parts.map Phrase.tree, accepted value) stops
        (do
          let head ← item
          let tail ← collect starts item fewer
          return head :: tail)
        (part.tokens ++ parts.flatMap Phrase.tokens) (part.tree :: parts.map Phrase.tree) := by
      refine own.bind ?_ (fun _ token stop => (ended token stop).2)
        ((others fewer ?_).finish (reads_pure _))
      -- behind an item stands the first token of the next, or what ends the list
      · intro token rest head
        cases parts with
        | nil => cases head
        | cons next parts =>
          obtain ⟨start, _, begins, -, stopped⟩ := headed next (by simp)
          rw [List.flatMap_cons, begins] at head
          cases head
          exact stopped
      · simp only [List.length_append] at more
        omega
    rw [same, List.cons_append] at decided ⊢
    apply decides_peek
    rw [start]
    exact decided.congr (by simp)

theorem decides_many {starts : Kind → Bool} {item : Parse α} {ts : List Token} {items : List α}
    (bounded : ∀ bound, ts.length < bound → Decides good stops (collect starts item bound) ts items) :
    Decides good stops (many starts item) ts items := by
  intro cursor next rest ahead stop
  apply bounded cursor.remaining _ cursor next rest ahead stop
  rw [cursor.remaining_eq, ahead]
  simp

end Parse

namespace Grammar

open Parse

section Declarations
variable {word name equals semicolon : Token} {value : Expr} {us : List Token}

theorem reads_declaration_bare (let_ : word.kind = .letWord) (isName : name.kind = .name)
    (ends : semicolon.kind = .semicolon) :
    Reads (fun _ => True) declaration [word, name, semicolon]
      ⟨word, ⟨name, name.literal⟩, false, .absent⟩ := by
  apply (reads_next word).cons
  simp only [let_, ne_eq, not_true_eq_false, decide_false, Bool.false_and, Bool.false_eq_true, if_false]
  apply (reads_expect isName _).cons
  apply reads_isAt
  rw [ends]
  exact (reads_next semicolon).finish (reads_pure _)

theorem reads_declaration (kind : word.kind = .letWord ∨ word.kind = .constWord)
    (isName : name.kind = .name) (assigns : equals.kind = .assign)
    (derived : value.Derives .assignment us) (ends : semicolon.kind = .semicolon) :
    Reads (fun _ => True) declaration (word :: name :: equals :: (us ++ [semicolon]))
      ⟨word, ⟨name, name.literal⟩, word.kind = .constWord, value⟩ := by
  apply (reads_next word).cons
  have allowed : ¬ (decide (word.kind ≠ .letWord) && decide (word.kind ≠ .constWord)) = true := by
    rcases kind with same | same <;> simp [same]
  rw [if_neg allowed]
  apply (reads_expect isName _).cons
  apply reads_isAt
  rw [assigns]
  apply (reads_expect assigns _).cons
  refine (reads_expression derived).bind ?_ (by simp) ?_
  · rintro _ _ ⟨⟩
    exact free_assignment (by simp [ends])
  apply reads_isAt
  simp only [ends, reduceCtorEq, decide_false, Bool.false_eq_true, if_false, pure_bind]
  exact (reads_expect ends _).finish (reads_pure _)

end Declarations

theorem reads_parameters (function : Token) (names : List Ident) :
    Reads (fun _ => True) (parameters function (names.map Expr.ident)) [] names := by
  induction names with
  | nil => exact reads_pure []
  | cons name rest ih => exact ih.finish (reads_pure _)

/-- What may follow a statement: anything but a further link of a conditional chain. -/
def Ended (token : Token) : Prop := token.kind ≠ .elifWord ∧ token.kind ≠ .elseWord

section Forms
variable {inner : Parse Stmt} {parts : List (Phrase Stmt)} {opening closing : Token}

/-- The statements can be read one after another. -/
structure Sequenced (inner : Parse Stmt) (parts : List (Phrase Stmt)) : Prop where
  each : ∀ part ∈ parts, Decides (Steps part.tree.nodes) Ended inner part.tokens part.tree
  headed : ∀ part ∈ parts, ∃ first rest, part.tokens = first :: rest ∧
    insideBraces first.kind = true ∧ Ended first

/-- A block of statements, and whether it is read. -/
def Enclosed (inner : Parse Stmt) (ts : List Token) (body : List Stmt) : Prop :=
  Decides (∀ statement ∈ body, Steps statement.nodes) (fun _ => True) (block inner) ts body

theorem enclosed_of_sequenced (opens : opening.kind = .openBrace) (sequenced : Sequenced inner parts)
    (closes : closing.kind = .closeBrace) :
    Enclosed inner (opening :: (parts.flatMap Phrase.tokens ++ [closing])) (parts.map Phrase.tree) := by
  apply (reads_expect opens _).decides_cons
  have statements : Decides (∀ statement ∈ parts.map Phrase.tree, Steps statement.nodes)
      (·.kind = .closeBrace) (many insideBraces inner) (parts.flatMap Phrase.tokens)
      (parts.map Phrase.tree) := by
    apply decides_many
    apply decides_collect (fun s => Steps s.nodes) parts sequenced.each sequenced.headed
    intro token kind
    simp [kind, insideBraces, Ended]
  have closed : Reads (fun _ => True) (do
      let _ ← expect .closeBrace (utf8 "expected '\x7d' to close the block")
      return parts.map Phrase.tree) [closing] (parts.map Phrase.tree) :=
    (reads_expect closes _).finish (reads_pure _)
  refine (statements.bind ?_ (by simp) (closed.decides trivial)).congr (and_iff_left trivial)
  rintro _ _ ⟨⟩
  exact closes

variable {word : Token} {body : List Stmt} {ts us : List Token} {test : Expr}

theorem decides_guarded (opens : opening.kind = .openParen) (derived : test.Derives .assignment us)
    (closes : closing.kind = .closeParen) (enclosed : Enclosed inner ts body) :
    Decides (Steps (Guarded.nodes ⟨word, test, body⟩)) (fun _ => True) (guarded inner)
      (word :: opening :: (us ++ closing :: ts)) ⟨word, test, body⟩ := by
  apply Decides.congr _ steps_guarded.symm
  apply (reads_next word).decides_cons
  apply (reads_expect opens _).decides_cons
  refine (reads_expression derived).decides_bind ?_ (by simp) ?_
  · rintro _ _ ⟨⟩
    exact free_assignment (by simp [closes])
  exact (reads_expect closes _).decides_cons (enclosed.finish (reads_pure _))

theorem reads_otherwise_none : Reads Ended (otherwise inner) [] [] :=
  reads_isAt_end false (fun _ ended => decide_eq_false ended.2) (reads_pure [])

theorem decides_otherwise (otherwise_ : word.kind = .elseWord) (enclosed : Enclosed inner ts body) :
    Decides (∀ statement ∈ body, Steps statement.nodes) Ended (otherwise inner) (word :: ts)
      [⟨word, .boolean word true, body⟩] := by
  apply decides_isAt
  rw [otherwise_]
  apply (reads_next word).decides_cons
  exact Decides.anywhere (enclosed.finish (reads_pure _))

theorem decides_branch {first : Guarded Stmt} {others : List (Phrase (Guarded Stmt))}
    {last : List (Guarded Stmt)}
    (own : Decides (Steps first.nodes) (fun _ => True) (guarded inner) us first)
    (each : ∀ link ∈ others,
      Decides (Steps link.tree.nodes) (fun _ => True) (guarded inner) link.tokens link.tree)
    (headed : ∀ link ∈ others, ∃ word rest, link.tokens = word :: rest ∧ word.kind = .elifWord)
    (final : Decides (∀ link ∈ last, Steps link.nodes) Ended (otherwise inner) ts last)
    (finalHead : ∀ word rest, ts = word :: rest → word.kind ≠ .elifWord) :
    Decides (Steps (Stmt.branch first (others.map Phrase.tree ++ last)).nodes) Ended (branch inner)
      (us ++ (others.flatMap Phrase.tokens ++ ts)) (.branch first (others.map Phrase.tree ++ last)) := by
  have links : Decides (∀ link ∈ others.map Phrase.tree, Steps link.nodes) (·.kind ≠ .elifWord)
      (many (· = .elifWord) (guarded inner)) (others.flatMap Phrase.tokens)
      (others.map Phrase.tree) := by
    apply decides_many
    apply decides_collect (fun link => Steps link.nodes) others each
    · intro link member
      obtain ⟨word, rest, same, kind⟩ := headed link member
      exact ⟨word, rest, same, by simp [kind], trivial⟩
    · intro token other
      exact ⟨by simpa using other, trivial⟩
  refine Decides.congr (own.bind (fun _ _ _ => trivial) (fun _ _ _ => trivial)
    (links.bind finalHead (fun _ _ (ended : Ended _) => ended.1) (final.finish (reads_pure _)))) ?_
  rw [steps_branch, List.forall_mem_append]

theorem decides_function {name : Token} {names : List Ident} {items : List (Phrase Expr)}
    (isName : name.kind = .name) (opens : opening.kind = .openParen) (listed : Listed items us)
    (derived : ∀ item ∈ items, item.tree.Derives .assignment item.tokens)
    (trees : items.map Phrase.tree = names.map Expr.ident) (closes : closing.kind = .closeParen)
    (enclosed : Enclosed inner ts body) :
    Decides (Steps (Stmt.function word ⟨name, name.literal⟩ names body).nodes) Ended (function inner)
      (word :: name :: (opening :: (us ++ [closing]) ++ ts))
      (.function word ⟨name, name.literal⟩ names body) := by
  apply Decides.congr _ steps_bodyNodes.symm
  apply (reads_next word).decides_cons
  apply (reads_expect isName _).decides_cons
  have given := reads_arguments opens listed derived
    (fun item member => reads_expression (derived item member)) closes
  refine given.decides_bind (fun _ _ _ => trivial) (fun _ _ _ => trivial) ?_
  rw [trees, ← List.nil_append ts]
  refine (reads_parameters name names).decides_bind (fun _ _ _ => trivial) (fun _ _ _ => trivial) ?_
  exact Decides.anywhere (enclosed.finish (reads_pure _))

/-- What closes something or separates does not carry a condition on. -/
theorem comparison_stops {token : Token} (kind : token.kind = .closeParen ∨ token.kind = .semicolon) :
    Tier.Free .comparison token ∧ Tier.continues .comparison token = false := by
  rcases kind with kind | kind <;>
    simp [Tier.Free, Tier.inside, Tier.continues, startsSuffix, kind]

theorem decides_whileLoop (opens : opening.kind = .openParen) (derived : test.Derives .comparison us)
    (closes : closing.kind = .closeParen) (enclosed : Enclosed inner ts body) :
    Decides (Steps (Stmt.whileLoop word test body).nodes) Ended (whileLoop inner)
      (word :: opening :: (us ++ closing :: ts)) (.whileLoop word test body) := by
  apply Decides.congr _ steps_whileLoop.symm
  apply (reads_next word).decides_cons
  apply (reads_expect opens _).decides_cons
  refine (reads_comparison derived).decides_bind ?_ (by simp) ?_
  · rintro _ _ ⟨⟩
    exact comparison_stops (.inl closes)
  apply (reads_expect closes _).decides_cons
  exact Decides.anywhere (enclosed.finish (reads_pure _))

theorem decides_forLoop {d : Declaration} {step : Expr} {semicolon : Token} {ds ss : List Token}
    (opens : opening.kind = .openParen) (declared : Reads (fun _ => True) declaration ds d)
    (derived : test.Derives .comparison us) (ends : semicolon.kind = .semicolon)
    (stepped : step = .absent ∧ ss = [] ∨ step.Canonical ss) (closes : closing.kind = .closeParen)
    (enclosed : Enclosed inner ts body) :
    Decides (Steps (Stmt.forLoop word (some d) test step body).nodes) Ended (forLoop inner)
      (word :: opening :: (ds ++ (us ++ semicolon :: (ss ++ closing :: ts))))
      (.forLoop word (some d) test step body) := by
  apply Decides.congr _ steps_forLoop.symm
  apply (reads_next word).decides_cons
  apply (reads_expect opens _).decides_cons
  refine declared.decides_bind (fun _ _ _ => trivial) (fun _ _ _ => trivial) ?_
  refine (reads_comparison derived).decides_bind ?_ (by simp) ?_
  · rintro _ _ ⟨⟩
    exact comparison_stops (.inr ends)
  apply (reads_expect ends _).decides_cons
  have finished (hint : Text) : Decides (∀ statement ∈ body, Steps statement.nodes) Ended
      (do let _ ← expect .closeParen hint
          return Stmt.forLoop word (some d) test step (← block inner)) (closing :: ts)
      (Stmt.forLoop word (some d) test step body) := by
    apply (reads_expect closes _).decides_cons
    exact Decides.anywhere (enclosed.finish (reads_pure _))
  rcases stepped with ⟨rfl, rfl⟩ | canonical
  · apply decides_isAt
    simp only [closes, reduceCtorEq, decide_false, Bool.false_eq_true, if_false, pure_bind]
    exact (finished _).congr (and_iff_right rfl).symm
  · obtain ⟨first, rest, rfl, starts⟩ := head_of_derives canonical.derives
    have isStep : step.isStep = step.startsWithName := by
      cases step <;> first | exact absurd rfl canonical.derives.ne_absent | rfl
    -- the token behind the condition decides: it is a name if and only if the step starts with one
    have named := canonical.starts first rfl
    rw [isStep]
    by_cases name : first.kind = .name
    · apply decides_isAt
      rw [decide_eq_true name]
      refine ((reads_expression canonical.assignment).decides_bind ?_ (by simp) (finished _)).congr
        (and_iff_right (named.mp name)).symm
      rintro _ _ ⟨⟩
      exact free_assignment (by simp [closes])
    · apply decides_isAt
      simp only [name, decide_false, Bool.false_eq_true, if_false, pure_bind]
      -- the step is taken for one that is left out, and stands where the parenthesis is expected
      apply decides_expect
      · intro kind
        simp [kind, starters] at starts
      · exact fun both => name (named.mpr both.1)

end Forms

end Grammar

end Scriptlet
