import Scriptlet.Proofs.Layout
import Scriptlet.Proofs.Reprinting
/-!
Canonical text as source text. The canonical text of a program is cut into tokens of which it is decided
whether they are read back; if they are, the tree is the one that was written down, except for the places
of its tokens.
-/
namespace Scriptlet

open Parse Grammar

/-- The tokens that the canonical text of a statement is cut into, for which it is decided whether they
are read. -/
structure Stmt.Settled (s : Stmt) (us : List Token) : Prop where
  written : Written (fun _ => True) us s.text
  decides : ∀ depth, us.length ≤ depth + 1 →
    Decides (Steps s.nodes) Ended (statementOf (nestedStatement depth)) us s
  headed : ∃ first rest, us = first :: rest ∧ insideBraces first.kind = true ∧ Ended first

def Stmt.Prints (s : Stmt) : Prop := ∃ us, s.Settled us

section Bodies
variable {body : List Stmt}

theorem phrases_of_prints (all : ∀ s ∈ body, s.Prints) :
    ∃ parts : List (Phrase Stmt), parts.map Phrase.tree = body ∧
      ∀ part ∈ parts, part.tree.Settled part.tokens := by
  induction body with
  | nil => exact ⟨[], rfl, by simp⟩
  | cons s rest ih =>
    obtain ⟨us, settled⟩ := all s List.mem_cons_self
    obtain ⟨parts, rfl, each⟩ := ih fun other member => all other (List.mem_cons_of_mem _ member)
    refine ⟨⟨us, s⟩ :: parts, rfl, ?_⟩
    intro part member
    rcases List.mem_cons.mp member with rfl | later
    · exact settled
    · exact each part later

theorem written_statements {separator : Text} (blank : Written (fun _ => True) [] separator)
    {parts : List (Phrase Stmt)} (each : ∀ part ∈ parts, part.tree.Settled part.tokens) :
    Written (fun _ => True) (parts.flatMap Phrase.tokens)
      (Text.join separator (statementTexts (parts.map Phrase.tree))) := by
  induction parts with
  | nil => exact written_nil
  | cons part parts ih =>
    have own := (each part List.mem_cons_self).written
    have rest := ih fun other member => each other (List.mem_cons_of_mem _ member)
    cases parts with
    | nil => simpa [statementTexts, Text.join] using own
    | cons next parts =>
      have joined := (own.then_ blank).then_ rest
      rwa [List.append_nil] at joined

theorem sequenced_of_settled {parts : List (Phrase Stmt)}
    (each : ∀ part ∈ parts, part.tree.Settled part.tokens) {depth : Nat}
    (short : ∀ part ∈ parts, part.tokens.length ≤ depth) :
    Sequenced (nestedStatement depth) parts := by
  refine ⟨?_, fun part member => (each part member).headed⟩
  intro part member
  obtain ⟨first, rest, same, -⟩ := (each part member).headed
  have length := short part member
  -- a statement has a token, so there is a depth for it
  cases depth with
  | zero => simp [same] at length
  | succ depth => exact (each part member).decides depth length

theorem sublist_of_part {α : Type} {parts : List (Phrase α)} {part : Phrase α} (member : part ∈ parts) :
    part.tokens.Sublist (parts.flatMap Phrase.tokens) := by
  rw [List.flatMap_def]
  exact List.sublist_flatten_of_mem (List.mem_map_of_mem member)

/-- The tokens of a block whose statements are settled. -/
structure Blocked (body : List Stmt) (us : List Token) : Prop where
  written : Written (fun _ => True) us (blockText (statementTexts body))
  enclosed : ∀ depth, us.length ≤ depth → Enclosed (nestedStatement depth) us body

theorem blocked_of_prints (all : ∀ s ∈ body, s.Prints) : ∃ us, Blocked body us := by
  obtain ⟨parts, rfl, each⟩ := phrases_of_prints all
  refine ⟨.plain .openBrace "\x7b" :: (parts.flatMap Phrase.tokens ++ [.plain .closeBrace "\x7d"]),
    ?_, ?_⟩
  · have opened : Written (fun _ => True) [.plain .openBrace "\x7b"] (utf8 "\x7b ") :=
      (written_plain .openBrace "\x7b" (by decide)).then_ written_space
    have closing : Written (fun _ => True) [.plain .closeBrace "\x7d"] (utf8 " \x7d") :=
      written_space.then_ (written_plain .closeBrace "\x7d" (by decide))
    -- an empty block has one blank between its braces
    cases parts with
    | nil => exact opened.then_ (written_plain .closeBrace "\x7d" (by decide))
    | cons part parts =>
      change Written _ _ (utf8 "\x7b " ++ Text.join (utf8 " ")
        (statementTexts ((part :: parts).map Phrase.tree)) ++ utf8 " \x7d")
      have whole := (opened.then_ (written_statements written_space each)).then_ closing
      simpa only [List.append_assoc, List.cons_append, List.nil_append, List.append_nil] using whole
  · intro depth short
    apply enclosed_of_sequenced rfl _ rfl
    apply sequenced_of_settled each
    intro part member
    have := (sublist_of_part member).length_le
    simp only [List.length_cons, List.length_append] at short
    omega

end Bodies

section Forms
variable {word : Token} {test : Expr} {body : List Stmt}

theorem Stmt.prints_expr {value : Expr} (prints : value.Prints) : (Stmt.expr value).Prints := by
  obtain ⟨us, canonical⟩ := prints
  have reads : Reads Ended expressionStatement (us ++ [.plain .semicolon ";"]) (.expr value) := by
    refine (reads_expression canonical.assignment).bind ?_ (by simp) ?_
    · rintro _ _ ⟨⟩
      exact free_assignment (by simp [Token.plain])
    · apply reads_isAt
      exact (reads_next _).finish (reads_pure _)
  have written := canonical.written.apart (written_plain .semicolon ";" (by decide)) (by decide)
  obtain ⟨first, rest, rfl, starts⟩ := head_of_derives canonical.assignment
  have kinds : first.kind ∈ .openBrace :: starters := by
    rcases starts with starts | ⟨kind, -⟩
    · exact List.mem_cons_of_mem _ starts
    · rw [kind]
      exact List.mem_cons_self
  simp only [starters, List.mem_cons, List.not_mem_nil, or_false] at kinds
  refine ⟨first :: rest ++ [.plain .semicolon ";"], written, ?_, first, _, rfl, ?_⟩
  · intro depth _
    apply decides_peek
    have decides := reads.decides (steps_nodes (e := value) (show Role.statement ≠ .step by decide))
    rcases kinds with kind | kind | kind | kind | kind | kind | kind <;> rw [kind] <;> exact decides
  · rcases kinds with kind | kind | kind | kind | kind | kind | kind <;>
      simp [insideBraces, Ended, kind]

theorem written_reserved {kind : Kind} (text : Text) (proper : word.Proper) (same : word.kind = kind)
    (only : (Lexeme.symbols ++ Keywords.default).filter (·.2 = kind) = [(text, kind)])
    (noSymbol : (text, kind) ∉ Lexeme.symbols) :
    Written (fun _ => True) [word] (text ++ utf8 " ") :=
  (proper.reserved text same only noSymbol).apart written_space (by decide)

/-- The tokens that the canonical text of a declaration is cut into, which are read. -/
structure Declaration.Settled (d : Declaration) (us : List Token) : Prop where
  written : Written (fun _ => True) us d.text
  reads : Reads (fun _ => True) declaration us d
  headed : ∃ first rest, us = first :: rest ∧ (first.kind = .letWord ∨ first.kind = .constWord)

theorem Declaration.settled_valued {name : Token} {value : Expr} (proper : word.Proper)
    (kind : word.kind = .letWord ∨ word.kind = .constWord) (properName : name.Proper)
    (isName : name.kind = .name) (prints : value.Prints) :
    ∃ us, Settled ⟨word, ⟨name, name.literal⟩, word.kind = .constWord, value⟩ us := by
  obtain ⟨us, canonical⟩ := prints
  have head : Written (fun _ => True) [word]
      (if decide (word.kind = .constWord) then utf8 "const " else utf8 "let ") := by
    rcases kind with same | same <;> rw [same]
    · exact written_reserved (utf8 "let") proper same (by decide) (by decide)
    · exact written_reserved (utf8 "const") proper same (by decide) (by decide)
  have equals : Written (fun _ => True) [.plain .assign "="] (utf8 " = ") :=
    written_space.then_ (@written_operator (.plain .assign "=") (by decide)).spaced
  have written := (((head.then_ (properName.name isName)).apart equals (by decide)).then_
    canonical.written).apart (written_plain .semicolon ";" (by decide)) (by decide)
  refine ⟨word :: name :: .plain .assign "=" :: (us ++ [.plain .semicolon ";"]), ?_, ?_,
    word, _, rfl, kind⟩
  · have some_ := canonical.derives.ne_absent
    cases value <;> first | exact absurd rfl some_ | simpa [Declaration.text] using written
  · exact reads_declaration kind isName rfl canonical.assignment rfl

theorem Declaration.settled_of_derives {d : Declaration} {ts : List Token} (derived : d.Derives ts)
    (proper : ∀ token ∈ ts, token.Proper) (fits : d.value.Fits .initial) : ∃ us, d.Settled us := by
  cases derived with
  | @bare word name semicolon let_ isName ends =>
    refine ⟨[word, name, .plain .semicolon ";"], ?_, ?_, word, _, rfl, .inl let_⟩
    · have head : Written (fun _ => True) [word] (utf8 "let ") :=
        written_reserved (utf8 "let") (proper word (by simp)) let_ (by decide) (by decide)
      have written := (head.then_ ((proper name (by simp)).name isName)).apart
        (written_plain .semicolon ";" (by decide)) (by decide)
      simpa [Declaration.text] using written
    · exact reads_declaration_bare let_ isName rfl
  | @valued word name equals us value semicolon kind isName assigns derived ends =>
    have prints := Expr.prints_of_derives derived
      (fun token member => proper token (by simp [member])) fits
    exact settled_valued (proper word (by simp)) kind (proper name (by simp)) isName prints
  | @folded word name equals us left operator vs right semicolon kind isName assigns derivedLeft
      compares derivedRight ends =>
    -- a comparison behind the value was folded into it, and is written as any other operation
    have fitsLeft : left.Fits .operand := fits.left rfl rfl
    have fitsRight : right.Fits .operand := fits.right rfl rfl
    have printsLeft := Expr.prints_of_derives derivedLeft
      (fun token member => proper token (by simp [member])) fitsLeft
    have printsRight := Expr.prints_of_derives derivedRight
      (fun token member => proper token (by simp [member])) fitsRight
    have chains : Tier.continues .comparison operator = true := by simp [Tier.continues, compares]
    have prints := Expr.prints_binary (proper operator (by simp)) rfl chains fitsLeft fitsRight
      printsLeft printsRight
    exact settled_valued (proper word (by simp)) kind (proper name (by simp)) isName prints

theorem Stmt.prints_declare {d : Declaration} {us : List Token} (settled : d.Settled us) :
    (Stmt.declare d).Prints := by
  obtain ⟨written, reads, first, rest, rfl, kinds⟩ := settled
  refine ⟨first :: rest, written, ?_, first, rest, rfl, ?_⟩
  · intro depth _
    have read : Reads Ended (do return Stmt.declare (← declaration)) (first :: rest)
        (Stmt.declare d) :=
      reads.anywhere.finish (reads_pure _)
    have decides := read.decides (steps_nodes (e := d.value) (show Role.initial ≠ .step by decide))
    apply decides_peek
    rcases kinds with kind | kind <;> rw [kind] <;> exact decides
  · rcases kinds with kind | kind <;> simp [insideBraces, Ended, kind]

theorem written_opened {kind : Kind} (text : Text) (proper : word.Proper) (same : word.kind = kind)
    (only : (Lexeme.symbols ++ Keywords.default).filter (·.2 = kind) = [(text, kind)])
    (noSymbol : (text, kind) ∉ Lexeme.symbols) :
    Written (fun _ => True) [word, .plain .openParen "("] (text ++ utf8 " " ++ utf8 "(") :=
  (written_reserved text proper same only noSymbol).then_ (written_plain .openParen "(" (by decide))

theorem written_closing : Written (fun _ => True) [.plain .closeParen ")"] (utf8 ") ") :=
  (written_plain .closeParen ")" (by decide)).then_ written_space

theorem written_head {us bs : List Token} {opened : Text} {hs : List Token}
    (head : Written (fun _ => True) hs opened) (written : Written Loose us test.text)
    (blocked : Blocked body bs) :
    Written (fun _ => True) (hs ++ us ++ .plain .closeParen ")" :: bs)
      (opened ++ test.text ++ utf8 ") " ++ blockText (statementTexts body)) := by
  have whole := ((head.then_ written).apart written_closing (by decide)).then_ blocked.written
  simpa only [List.append_assoc, List.cons_append, List.nil_append] using whole

theorem Stmt.prints_whileLoop (proper : word.Proper) (kind : word.kind = .whileWord)
    (fits : test.Fits .test) (prints : test.Prints) (all : ∀ s ∈ body, s.Prints) :
    (Stmt.whileLoop word test body).Prints := by
  obtain ⟨us, canonical⟩ := prints
  obtain ⟨bs, blocked⟩ := blocked_of_prints all
  have head : Written (fun _ => True) [word, .plain .openParen "("] (utf8 "while (") :=
    written_opened (utf8 "while") proper kind (by decide) (by decide)
  refine ⟨word :: .plain .openParen "(" :: (us ++ .plain .closeParen ")" :: bs), ?_, ?_,
    word, _, rfl, by simp [insideBraces, Ended, kind]⟩
  · exact written_head head canonical.written blocked
  · intro depth short
    apply decides_peek
    rw [kind]
    refine decides_whileLoop rfl (canonical.test fits) rfl (blocked.enclosed depth ?_)
    simp only [List.length_cons, List.length_append] at short
    omega

theorem Stmt.prints_forLoop {d : Declaration} {ds : List Token} {step : Expr} (proper : word.Proper)
    (kind : word.kind = .forWord) (settled : d.Settled ds) (fits : test.Fits .test)
    (prints : test.Prints) (stepped : step = .absent ∨ step.Prints) (all : ∀ s ∈ body, s.Prints) :
    (Stmt.forLoop word (some d) test step body).Prints := by
  obtain ⟨us, canonical⟩ := prints
  obtain ⟨bs, blocked⟩ := blocked_of_prints all
  have head : Written (fun _ => True) [word, .plain .openParen "("] (utf8 "for (") :=
    written_opened (utf8 "for") proper kind (by decide) (by decide)
  have tested := (((head.then_ settled.written).then_ written_space).then_ canonical.written).apart
    (written_plain .semicolon ";" (by decide)) (by decide)
  -- what is written for the step, with the blank before it
  obtain ⟨ss, text, same, written, read⟩ : ∃ ss text,
      forText (some d) test step = utf8 "for (" ++ d.text ++ utf8 " " ++ test.text ++ utf8 ";" ++ text
        ++ utf8 ") " ∧ Written Loose ss text ∧ (step = .absent ∧ ss = [] ∨ step.Canonical ss) := by
    by_cases absent : step = .absent
    · subst absent
      exact ⟨[], [], rfl, written_nil, .inl ⟨rfl, rfl⟩⟩
    · obtain ⟨ss, steps⟩ := stepped.resolve_left absent
      refine ⟨ss, utf8 " " ++ step.text, ?_, written_space.then_ steps.written, .inr steps⟩
      cases step <;> first | exact absurd rfl absent | rfl
  have whole := ((tested.then_ written).apart written_closing (by decide)).then_ blocked.written
  refine ⟨word :: .plain .openParen "(" ::
    (ds ++ (us ++ .plain .semicolon ";" :: (ss ++ .plain .closeParen ")" :: bs))), ?_, ?_,
    word, _, rfl, by simp [insideBraces, Ended, kind]⟩
  · rw [Stmt.text, same]
    simpa only [List.append_assoc, List.cons_append, List.nil_append, List.append_nil] using whole
  · intro depth short
    apply decides_peek
    rw [kind]
    refine decides_forLoop rfl settled.reads (canonical.test fits) rfl read rfl (blocked.enclosed depth ?_)
    simp only [List.length_cons, List.length_append] at short
    omega

theorem expressionTexts_ident (names : List Ident) :
    expressionTexts (names.map Expr.ident) = names.map Ident.text := by
  induction names with
  | nil => rfl
  | cons name rest ih => rw [List.map_cons, expressionTexts, ih]; rfl

theorem Stmt.prints_function {name : Token} {names : List Ident} (proper : word.Proper)
    (kind : word.kind = .funcWord) (properName : name.Proper) (isName : name.kind = .name)
    (given : ∀ e ∈ names.map Expr.ident, e.Prints) (all : ∀ s ∈ body, s.Prints) :
    (Stmt.function word ⟨name, name.literal⟩ names body).Prints := by
  obtain ⟨items, us, listed, trees, derived, written⟩ := Expr.listed_arguments given
  obtain ⟨bs, blocked⟩ := blocked_of_prints all
  rw [expressionTexts_ident] at written
  have head : Written (fun _ => True) [word] (utf8 "func ") :=
    written_reserved (utf8 "func") proper kind (by decide) (by decide)
  have opened := ((head.then_ (properName.name isName)).apart (written_plain .openParen "(" (by decide))
    (by decide)).then_ written
  have whole := (opened.apart written_closing (by decide)).then_ blocked.written
  refine ⟨word :: name :: (.plain .openParen "(" :: (us ++ [.plain .closeParen ")"]) ++ bs), ?_, ?_,
    word, _, rfl, by simp [insideBraces, Ended, kind]⟩
  · change Written _ _ (utf8 "func " ++ name.literal ++ utf8 "("
      ++ Text.join (utf8 ", ") (names.map Ident.text) ++ utf8 ") " ++ blockText (statementTexts body))
    simpa only [List.append_assoc, List.cons_append, List.nil_append] using whole
  · intro depth short
    apply decides_peek
    rw [kind]
    refine decides_function isName rfl listed derived trees rfl (blocked.enclosed depth ?_)
    simp only [List.length_cons, List.length_append] at short
    omega

/-- The tokens that the canonical text of a link is cut into. -/
structure Guarded.Settled (kind : Kind) (link : Guarded Stmt) (us : List Token) : Prop where
  written : Written (fun _ => True) us
    (guardText link.token link.condition ++ blockText (statementTexts link.body))
  decides : ∀ depth, us.length ≤ depth + 1 →
    Decides (Steps link.nodes) (fun _ => True) (guarded (nestedStatement depth)) us link
  headed : ∃ first rest, us = first :: rest ∧ first.kind = kind

theorem Guarded.settled_of_prints {kind : Kind} (proper : word.Proper) (same : word.kind = kind)
    (which : kind = .ifWord ∨ kind = .elifWord) (prints : test.Prints)
    (all : ∀ s ∈ body, s.Prints) : ∃ us, Settled kind ⟨word, test, body⟩ us := by
  obtain ⟨us, canonical⟩ := prints
  obtain ⟨bs, blocked⟩ := blocked_of_prints all
  refine ⟨word :: .plain .openParen "(" :: (us ++ .plain .closeParen ")" :: bs), ?_, ?_,
    word, _, rfl, same⟩
  · subst same
    rcases which with kind | kind
    · have head : Written (fun _ => True) [word, .plain .openParen "("] (utf8 "if (") :=
        written_opened (utf8 "if") proper kind (by decide) (by decide)
      simp only [guardText, kind]
      exact written_head head canonical.written blocked
    · have head : Written (fun _ => True) [word, .plain .openParen "("] (utf8 "elif (") :=
        written_opened (utf8 "elif") proper kind (by decide) (by decide)
      simp only [guardText, kind]
      exact written_head head canonical.written blocked
  · intro depth short
    refine decides_guarded rfl canonical.assignment rfl (blocked.enclosed depth ?_)
    simp only [List.length_cons, List.length_append] at short
    omega

theorem linksText_append (a b : List (Guarded Stmt)) : linksText (a ++ b) = linksText a ++ linksText b := by
  induction a with
  | nil => rfl
  | cons link rest ih => simp only [List.cons_append, linksText, ih, List.append_assoc]

theorem phrases_of_links {links : List (Guarded Stmt)}
    (all : ∀ link ∈ links, ∃ us, link.Settled .elifWord us) :
    ∃ parts : List (Phrase (Guarded Stmt)), parts.map Phrase.tree = links ∧
      (∀ part ∈ parts, part.tree.Settled .elifWord part.tokens) ∧
        Written (fun _ => True) (parts.flatMap Phrase.tokens) (linksText links) := by
  induction links with
  | nil => exact ⟨[], rfl, by simp, written_nil⟩
  | cons link rest ih =>
    obtain ⟨us, settled⟩ := all link List.mem_cons_self
    obtain ⟨parts, rfl, each, written⟩ :=
      ih fun other member => all other (List.mem_cons_of_mem _ member)
    refine ⟨⟨us, link⟩ :: parts, rfl, ?_, ?_⟩
    · intro part member
      rcases List.mem_cons.mp member with rfl | later
      · exact settled
      · exact each part later
    · have whole := (written_space.then_ settled.written).then_ written
      simpa only [linksText, List.flatMap_cons, List.nil_append, List.append_assoc] using whole

/-- The text of the closing link of a chain, if there is one. -/
structure LastSettled (last : List (Guarded Stmt)) (us : List Token) : Prop where
  written : Written (fun _ => True) us (linksText last)
  decides : ∀ depth, us.length ≤ depth →
    Decides (∀ link ∈ last, Steps link.nodes) Ended (otherwise (nestedStatement depth)) us last
  headed : ∀ first rest, us = first :: rest → first.kind ≠ .elifWord

theorem lastSettled_nil : LastSettled [] [] where
  written := written_nil
  decides _ _ := reads_otherwise_none.decides (by simp)
  headed _ _ := by simp

theorem lastSettled_else (proper : word.Proper) (kind : word.kind = .elseWord)
    (all : ∀ s ∈ body, s.Prints) :
    ∃ us, LastSettled [⟨word, .boolean word true, body⟩] us := by
  obtain ⟨bs, blocked⟩ := blocked_of_prints all
  have head : Written (fun _ => True) [word] (utf8 "else ") :=
    written_reserved (utf8 "else") proper kind (by decide) (by decide)
  refine ⟨word :: bs, ?_, ?_, ?_⟩
  · have whole := written_space.then_ (head.then_ blocked.written)
    simpa [linksText, guardText, kind] using whole
  · intro depth short
    have enclosed := blocked.enclosed depth (by simp at short; omega)
    refine (decides_otherwise kind enclosed).congr ?_
    rw [List.forall_mem_singleton, steps_guarded]
  · rintro _ _ ⟨⟩
    simp [kind]

theorem Stmt.prints_branch {first : Guarded Stmt} {others last : List (Guarded Stmt)}
    {us zs : List Token} (own : first.Settled .ifWord us)
    (all : ∀ link ∈ others, ∃ us, link.Settled .elifWord us) (final : LastSettled last zs) :
    (Stmt.branch first (others ++ last)).Prints := by
  obtain ⟨parts, rfl, each, written⟩ := phrases_of_links all
  obtain ⟨word, rest, rfl, kind⟩ := own.headed
  refine ⟨word :: rest ++ (parts.flatMap Phrase.tokens ++ zs), ?_, ?_, word, _, rfl,
    by simp [insideBraces, Ended, kind]⟩
  · have whole := own.written.then_ (written.then_ final.written)
    rw [Stmt.text, linksText_append]
    exact whole
  · intro depth short
    simp only [List.length_cons, List.length_append] at short
    apply decides_peek
    rw [kind]
    have ifLink := own.decides depth (by simp; omega)
    apply decides_branch ifLink
    · intro link member
      have := (sublist_of_part member).length_le
      exact (each link member).decides depth (by omega)
    · exact fun link member => (each link member).headed
    · exact final.decides depth (by omega)
    · exact final.headed

theorem printable_body (fits : Printable (bodyNodes body)) : ∀ s ∈ body, Printable s.nodes := by
  rw [bodyNodes_eq] at fits
  exact List.forall_mem_flatMap.mp fits

theorem Block.prints {block : Block}
    (each : ∀ part ∈ block.body, (∀ token ∈ part.tokens, token.Proper) →
      Printable part.tree.nodes → part.tree.Prints)
    (proper : ∀ token ∈ block.tokens, token.Proper) (fits : Printable (bodyNodes block.trees)) :
    ∀ s ∈ block.trees, s.Prints := by
  intro s member
  obtain ⟨part, inside, rfl⟩ := List.mem_map.mp member
  apply each part inside _ (printable_body fits _ member)
  intro token inner
  apply proper
  exact List.mem_cons_of_mem _ (List.mem_append_left _ ((sublist_of_part inside).subset inner))

theorem Link.settled {link : Link} {kind : Kind} (formed : link.Formed kind .assignment)
    (which : kind = .ifWord ∨ kind = .elifWord)
    (each : ∀ part ∈ link.block.body, (∀ token ∈ part.tokens, token.Proper) →
      Printable part.tree.nodes → part.tree.Prints)
    (proper : ∀ token ∈ link.tokens, token.Proper) (fits : Printable link.tree.nodes) :
    ∃ us, link.tree.Settled kind us := by
  obtain ⟨fitsTest, fitsBody⟩ := List.forall_mem_append.mp fits
  apply Guarded.settled_of_prints (proper link.word (by simp [Link.tokens])) formed.word which
  · exact Expr.prints_of_derives formed.condition
      (fun token member => proper token (by simp [Link.tokens, member])) fitsTest
  · exact Block.prints each (fun token member => proper token (by simp [Link.tokens, member])) fitsBody

theorem Link.settled_others {others : List Link}
    (formed : ∀ link ∈ others, link.Formed .elifWord .assignment)
    (each : ∀ link ∈ others, ∀ part ∈ link.block.body, (∀ token ∈ part.tokens, token.Proper) →
      Printable part.tree.nodes → part.tree.Prints)
    (proper : ∀ token ∈ others.flatMap Link.tokens, token.Proper)
    (fits : Printable (linkNodes (others.map Link.tree))) :
    ∀ link ∈ others.map Link.tree, ∃ us, link.Settled .elifWord us := by
  intro link member
  obtain ⟨other, given, rfl⟩ := List.mem_map.mp member
  rw [linkNodes_eq] at fits
  apply Link.settled (formed other given) (.inr rfl) (each other given) _
    (List.forall_mem_flatMap.mp fits _ member)
  intro token inside
  exact proper token (List.mem_flatMap.mpr ⟨other, given, inside⟩)

/-- Whatever statement was read, its canonical text is read back or refused as it is decided. -/
theorem Stmt.prints_of_derives {s : Stmt} {ts : List Token} (derived : s.Derives ts)
    (proper : ∀ token ∈ ts, token.Proper) (fits : Printable s.nodes) : s.Prints := by
  induction derived with
  | expr derived => exact prints_expr (Expr.prints_of_derives derived proper fits)
  | closed derived =>
    exact prints_expr (Expr.prints_of_derives derived
      (fun token member => proper token (by simp [member])) fits)
  | declare derived =>
    obtain ⟨us, settled⟩ := Declaration.settled_of_derives derived proper fits
    exact prints_declare settled
  | @function word name opening parameters inner closing names block func isName opens listed derived
      closes same braced _ ih =>
    apply prints_function (proper word (by simp)) func (proper name (by simp)) isName
    · intro e member
      rw [← same] at member
      obtain ⟨parameter, given, tree⟩ := List.mem_map.mp member
      -- parameters are names, and these fit any role
      have leaf : parameter.tree.Fits .argument := by
        rw [same] at member
        obtain ⟨name, -, rfl⟩ := List.mem_map.mp member
        rw [tree]
        simp [Expr.Fits, Expr.nodes, Expr.parts, Expr.printsAs]
      rw [← tree]
      refine Expr.prints_of_derives (derived parameter given) ?_ leaf
      intro token inside
      exact proper token (by simp [(listed.sublist parameter given).subset inside])
    · exact Block.prints ih (fun token member => proper token (by simp [member])) fits
  | @branch first others formed conditions _ ih =>
    obtain ⟨fitsFirst, fitsOthers⟩ := List.forall_mem_append.mp fits
    obtain ⟨us, own⟩ := Link.settled formed (.inl rfl) (ih first List.mem_cons_self)
      (fun token member => proper token (by simp [member])) fitsFirst
    rw [← List.append_nil (others.map Link.tree)]
    refine prints_branch own (Link.settled_others conditions ?_ ?_ fitsOthers) lastSettled_nil
    · exact fun link member => ih link (List.mem_cons_of_mem _ member)
    · exact fun token member => proper token (List.mem_append_right _ member)
  | @otherwise first others word block formed conditions _ otherwise braced _ ih lasts =>
    obtain ⟨fitsFirst, fitsRest⟩ := List.forall_mem_append.mp fits
    rw [linkNodes_eq, List.flatMap_append, ← linkNodes_eq, ← linkNodes_eq] at fitsRest
    obtain ⟨fitsOthers, fitsLast⟩ := List.forall_mem_append.mp fitsRest
    obtain ⟨us, own⟩ := Link.settled formed (.inl rfl) (ih first List.mem_cons_self)
      (fun token member => proper token (by simp [member])) fitsFirst
    have bodies : ∀ s ∈ block.trees, s.Prints := by
      apply Block.prints lasts (fun token member => proper token (by simp [member]))
      intro node member
      exact fitsLast node (by simp [linkNodes, member])
    obtain ⟨zs, final⟩ := lastSettled_else (proper word (by simp)) otherwise bodies
    refine prints_branch own (Link.settled_others conditions ?_ ?_ fitsOthers) final
    · exact fun link member => ih link (List.mem_cons_of_mem _ member)
    · exact fun token member => proper token (List.mem_append_left _ (List.mem_append_right _ member))
  | @whileLoop loop formed _ ih =>
    obtain ⟨fitsTest, fitsBody⟩ := List.forall_mem_append.mp fits
    apply prints_whileLoop (proper loop.word (by simp [Link.tokens])) formed.word fitsTest
    · exact Expr.prints_of_derives formed.condition
        (fun token member => proper token (by simp [Link.tokens, member])) fitsTest
    · exact Block.prints ih (fun token member => proper token (by simp [Link.tokens, member])) fitsBody
  | @forLoop word opening start first semicolon test ts step inner closing block loops opens declared
      derived ends stepped closes braced _ ih =>
    obtain ⟨fitsHead, fitsBody⟩ := List.forall_mem_append.mp fits
    obtain ⟨fitsTests, fitsStep⟩ := List.forall_mem_append.mp fitsHead
    obtain ⟨fitsStart, fitsTest⟩ := List.forall_mem_append.mp fitsTests
    obtain ⟨ds, settled⟩ := Declaration.settled_of_derives declared
      (fun token member => proper token (by simp [member])) fitsStart
    have tested := Expr.prints_of_derives derived
      (fun token member => proper token (by simp [member])) fitsTest
    apply prints_forLoop (proper word (by simp)) loops settled fitsTest tested
    · rcases stepped with ⟨-, absent⟩ | ⟨-, derivedStep⟩
      · exact .inl absent
      · exact .inr (Expr.prints_of_derives derivedStep
          (fun token member => proper token (by simp [member])) fitsStep)
    · exact Block.prints ih (fun token member => proper token (by simp [member])) fitsBody

end Forms

/-- All expressions of a program, with their roles. -/
def Program.nodes (program : Program) : List (Role × Expr) := bodyNodes program

instance (nodes : List (Role × Expr)) : Decidable (Printable nodes) :=
  inferInstanceAs (Decidable (∀ node ∈ nodes, node.2.printsAs node.1 = true))

instance (nodes : List (Role × Expr)) : Decidable (Steps nodes) :=
  inferInstanceAs (Decidable (∀ node ∈ nodes, node.1 = .step → node.2.isStep = true))

section Programs
variable {source : Text} {program : Program}

theorem run_statement (cursor : Cursor) :
    statement.run cursor = (nestedStatement cursor.remaining).run cursor := by
  rw [statement, StateT.run_bind, StateT.run_get]
  rfl

theorem Stmt.Settled.statement {s : Stmt} {us : List Token} (settled : s.Settled us) :
    Decides (Steps s.nodes) Ended Grammar.statement us s := by
  intro cursor next rest ahead stop
  -- nesting is bounded by the tokens that are left, those behind the statement included
  have length : cursor.remaining = us.length + rest.length + 1 := by
    rw [cursor.remaining_eq, ahead, List.length_append, List.length_cons, Nat.add_assoc]
  have decided := settled.decides (us.length + rest.length) (by omega) cursor next rest ahead stop
  rw [run_statement, length, nestedStatement]
  exact decided

theorem Program.settled (all : ∀ s ∈ program, s.Prints) :
    ∃ us, Written (fun _ => True) us program.text ∧
      Decides (Steps program.nodes) (·.kind = .endOfInput) Grammar.program us program := by
  obtain ⟨parts, rfl, each⟩ := phrases_of_prints all
  refine ⟨parts.flatMap Phrase.tokens, ?_, ?_⟩
  · have line : Written (fun _ => True) [] (utf8 "\n") := written_blank (by decide)
    exact written_statements line each
  · have decides := fun part member => (each part member).statement
    apply Decides.congr _ steps_bodyNodes.symm
    apply decides_many
    apply decides_collect (fun s => Steps s.nodes) parts decides
    · intro part member
      obtain ⟨first, rest, same, inside, ended⟩ := (each part member).headed
      refine ⟨first, rest, same, ?_, ended⟩
      simp only [insideBraces, Bool.and_eq_true] at inside
      exact inside.1
    · intro token kind
      simp [kind, Ended]

theorem proper_of_cut {cut : Cut} {text : Text} (of_ : cut.Of text) {token : Token}
    (member : token.content ∈ cut.pieces.flatMap fun piece => piece.2.contents Keywords.default) :
    token.Proper := by
  induction of_ with
  | last => cases member
  | @piece _ lexeme _ pieces _ _ longest _ ih =>
    rcases List.mem_append.mp member with own | later
    · exact ⟨lexeme, longest.lexical, own⟩
    · exact ih later

theorem ended_of_contents {tokens : List Token} {contents : List (Kind × Text)}
    (same : tokens.map Token.content = contents ++ [(.endOfInput, [])]) :
    ∃ front last, tokens = front ++ [last] ∧ last.kind = .endOfInput ∧
      front.map Token.content = contents := by
  obtain ⟨front, back, rfl, own, ended⟩ := List.map_eq_append_iff.mp same
  obtain ⟨last, rfl, content⟩ := List.map_eq_singleton_iff.mp ended
  exact ⟨front, last, rfl, congrArg Prod.fst content, own⟩

/-- The tokens of a source: those of its lexemes, and the end of input. -/
theorem proper_of_scan {tokens : List Token} (scanned : scan Keywords.default source = .ok tokens) :
    ∃ front last, tokens = front ++ [last] ∧ last.kind = .endOfInput ∧
      ∀ token ∈ front, token.Proper := by
  obtain ⟨cut, of_⟩ := Cut.exists_of_scanFrom scanned
  obtain ⟨_, again, contents⟩ := of_.scanFrom Keywords.default .start
  rw [← scan, scanned] at again
  cases again
  obtain ⟨front, last, rfl, ended, own⟩ := ended_of_contents contents
  refine ⟨front, last, rfl, ended, ?_⟩
  intro token member
  apply proper_of_cut of_
  rw [← own]
  exact List.mem_map_of_mem member

theorem upcoming_ofTokens (front : List Token) {last : Token} (ended : last.kind = .endOfInput) :
    (Cursor.ofTokens (front ++ [last])).upcoming = front ++ [last] := by
  have closed : Cursor.ofTokens (front ++ [last]) = Cursor.startOf (front ++ [last]) := by
    simp [Cursor.ofTokens, ended]
  rw [closed]
  cases front <;> rfl

theorem derives_of_parse (parsed : Parser.parseFresh Keywords.default source = .ok program) :
    ∃ ts, (∀ token ∈ ts, token.Proper) ∧ program.Derives ts := by
  obtain ⟨tokens, after, scanned, ran⟩ := Parser.parseFresh_eq_ok_iff.mp parsed
  obtain ⟨front, last, rfl, ended, proper⟩ := proper_of_scan scanned
  have ahead := upcoming_ofTokens front ended
  have closed : (Cursor.ofTokens (front ++ [last])).Closed := by
    refine ⟨last, ?_, ended⟩
    rw [ahead]
    simp
  have consumes : Consumes (fun _ => True) Grammar.program Program.Derives := consumes_program
  obtain ⟨taken, whole, derived⟩ := consumes _ closed trivial _ _ ran
  -- the end of input is not taken, for a token is left
  have some_ : after.upcoming ≠ [] := by simp [Cursor.upcoming]
  have inside : front = taken ++ after.upcoming.dropLast := by
    rw [← List.dropLast_append_of_ne_nil some_, ← whole, ahead, List.dropLast_concat]
  refine ⟨taken, ?_, derived⟩
  intro token member
  apply proper
  rw [inside]
  exact List.mem_append_left _ member

theorem Program.prints_of_derives {ts : List Token} (derived : program.Derives ts)
    (proper : ∀ token ∈ ts, token.Proper) (fits : Printable program.nodes) :
    ∀ s ∈ program, s.Prints := by
  obtain ⟨parts, all, rfl, rfl⟩ := derived
  intro s member
  obtain ⟨part, inside, rfl⟩ := List.mem_map.mp member
  refine Stmt.prints_of_derives (all part inside) ?_ (printable_body fits _ member)
  intro token inner
  exact proper token ((sublist_of_part inside).subset inner)

theorem unplaced_of_contents {a b : List Token} (same : a.map Token.content = b.map Token.content) :
    a.map Token.unplaced = b.map Token.unplaced := by
  have view : Token.unplaced = (fun content => ⟨content.1, content.2, .unknown⟩) ∘ Token.content := rfl
  rw [view, ← List.map_map, ← List.map_map, same]

/-- A text that is cut into tokens is parsed as these tokens are. -/
theorem parse_of_written {us : List Token} {text : Text} {good : Prop}
    (written : Written (fun _ => True) us text)
    (decides : Decides good (·.kind = .endOfInput) Grammar.program us program) :
    good ∧ (∃ again, Parser.parseFresh Keywords.default text = .ok again ∧
        Program.unplaced again = Program.unplaced program) ∨
      ¬ good ∧ ∃ fault, Parser.parseFresh Keywords.default text = .error fault := by
  obtain ⟨cut, of_, contents⟩ := written [] trivial ⟨[], []⟩ (.last .nothing)
  rw [List.append_nil] at of_
  obtain ⟨tokens, scanned, same⟩ := of_.scanFrom Keywords.default .start
  obtain ⟨front, last, rfl, ended, own⟩ := ended_of_contents (same.trans contents)
  have parses : Parser.parseFresh Keywords.default text
      = (·.1) <$> Grammar.program.run (Cursor.ofTokens (front ++ [last])) := by
    rw [Parser.parseFresh, scan, scanned]
    rfl
  -- the tokens of the text, and those that are known to be parsed, differ in their places only
  have cursors : (Cursor.ofTokens (front ++ [last])).unplaced
      = (Cursor.ofTokens (us ++ [last])).unplaced := by
    rw [Cursor.unplaced, Cursor.unplaced, upcoming_ofTokens front ended, upcoming_ofTokens us ended,
      List.map_append, List.map_append, unplaced_of_contents own]
  have alike := alike_program _ _ cursors
  rw [parses]
  generalize Grammar.program.run (Cursor.ofTokens (front ++ [last])) = ran at alike ⊢
  rcases decides _ last [] (upcoming_ofTokens us ended) ended with
    ⟨holds, after, read, -⟩ | ⟨fails, fault, refused⟩
  · rw [read] at alike
    refine .inl ⟨holds, ?_⟩
    rcases ran with fault | ⟨again, behind⟩
    · cases alike
    · injection alike with both
      injection both with trees _
      refine ⟨again, rfl, ?_⟩
      rw [Program.unplaced, Program.unplaced, unplacedBody_eq, unplacedBody_eq, trees]
  · rw [refused] at alike
    refine .inr ⟨fails, ?_⟩
    rcases ran with fault | ⟨again, behind⟩
    · exact ⟨fault, rfl⟩
    · cases alike

/-- Where the nodes of a program can be written in their roles, its canonical text is read back or
refused, as the steps of its loops decide. -/
theorem Program.decided (parsed : Parser.parseFresh Keywords.default source = .ok program)
    (printable : Printable program.nodes) :
    Steps program.nodes ∧ (∃ again, Parser.parseFresh Keywords.default program.text = .ok again ∧
        Program.unplaced again = Program.unplaced program) ∨
      ¬ Steps program.nodes ∧
        ∃ fault, Parser.parseFresh Keywords.default program.text = .error fault := by
  obtain ⟨ts, proper, derived⟩ := derives_of_parse parsed
  obtain ⟨us, written, decides⟩ := Program.settled (prints_of_derives derived proper printable)
  exact parse_of_written written decides

/-- The canonical text of a program stands for it: it is parsed again, into the same tree except for the
places of its tokens. -/
theorem Program.parse_text (parsed : Parser.parseFresh Keywords.default source = .ok program)
    (printable : Printable program.nodes) (steps : Steps program.nodes) :
    ∃ again, Parser.parseFresh Keywords.default program.text = .ok again ∧
      Program.unplaced again = Program.unplaced program := by
  rcases Program.decided parsed printable with ⟨-, read⟩ | ⟨fails, -⟩
  · exact read
  · exact absurd steps fails

end Programs

/-- Functions and branches, loops and objects, and expressions of every tier. -/
def sampler : Text :=
  utf8 "func f(a, b) \x7b if (a == b) \x7b a = b = a * 2.5 + 1; \x7d elif (c = f(a)) \x7b "
    ++ utf8 "b.c[d = 1](e, 'x'); \x7d else \x7b let y = \x7b p: 1.5, q, r: \x7b\x7d \x7d; \x7d \x7d "
    ++ utf8 "for (const i = g(); i < 3; h.k(i) = 1) \x7b while (x > (y + 1)) \x7b x++ ++; \x7d \x7d"

theorem sampler_parse_text :
    ∃ program again, Parser.parseFresh Keywords.default sampler = .ok program ∧
      Parser.parseFresh Keywords.default program.text = .ok again ∧
        Program.unplaced again = Program.unplaced program := by
  have fits : ((Parser.parseFresh Keywords.default sampler).toOption.any fun program =>
      Printable program.nodes ∧ Steps program.nodes) = true := by decide +kernel
  rcases parsed : Parser.parseFresh Keywords.default sampler with fault | program
  · rw [parsed] at fits
    cases fits
  · rw [parsed] at fits
    obtain ⟨printable, steps⟩ := of_decide_eq_true fits
    obtain ⟨again, read, same⟩ := Program.parse_text parsed printable steps
    exact ⟨program, again, rfl, read, same⟩

/-- The canonical text of a program is a source exactly if every loop has a step that starts with a
name, or none. -/
theorem Program.text_accepted_iff {source : Text} {program : Program}
    (parsed : Parser.parseFresh Keywords.default source = .ok program)
    (printable : Printable program.nodes) :
    (∃ again, Parser.parseFresh Keywords.default program.text = .ok again) ↔ Steps program.nodes := by
  rcases Program.decided parsed printable with ⟨steps, again, read, -⟩ | ⟨fails, fault, refused⟩
  · exact iff_of_true ⟨again, read⟩ steps
  · apply iff_of_false _ fails
    rintro ⟨again, read⟩
    rw [refused] at read
    cases read

/-- Two loops of which the inner one has an operation as its step. -/
def counting : Text :=
  utf8 "for (let i = 0; i < 3; i = i + 1) \x7b for (let j = 0; j < i; j++) \x7b x; \x7d \x7d"

theorem counting_text_refused :
    ∃ program, Parser.parseFresh Keywords.default counting = .ok program ∧
      ¬ ∃ again, Parser.parseFresh Keywords.default program.text = .ok again := by
  have fits : ((Parser.parseFresh Keywords.default counting).toOption.any fun program =>
      Printable program.nodes ∧ ¬ Steps program.nodes) = true := by decide +kernel
  rcases parsed : Parser.parseFresh Keywords.default counting with fault | program
  · rw [parsed] at fits
    cases fits
  · rw [parsed] at fits
    obtain ⟨printable, fails⟩ := of_decide_eq_true fits
    refine ⟨program, rfl, ?_⟩
    rwa [Program.text_accepted_iff parsed printable]

/-- Not every program has a canonical text that is a source. -/
theorem text_not_always_accepted :
    ¬ ∀ source program, Parser.parseFresh Keywords.default source = .ok program →
      ∃ again, Parser.parseFresh Keywords.default program.text = .ok again := by
  intro always
  have refused : ((Parser.parseFresh Keywords.default
      (utf8 "for (let i = 0; i < 3; i++) \x7b x; \x7d")).toOption.any fun program =>
        !(Parser.parseFresh Keywords.default program.text).isOk) = true := by decide +kernel
  have accepted := always (utf8 "for (let i = 0; i < 3; i++) \x7b x; \x7d")
  generalize Parser.parseFresh Keywords.default
    (utf8 "for (let i = 0; i < 3; i++) \x7b x; \x7d") = parsed at refused accepted
  rcases parsed with fault | program
  · cases refused
  · obtain ⟨again, read⟩ := accepted program rfl
    change (!(Parser.parseFresh Keywords.default program.text).isOk) = true at refused
    rw [read] at refused
    cases refused

end Scriptlet
