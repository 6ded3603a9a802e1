import Scriptlet.Proofs.Canonical
import Scriptlet.Proofs.Coverage
import Scriptlet.Proofs.Finality
/-!
Redundant parentheses. A phrase of an expression is still one of the same tree inside parentheses, and a
phrase of an expression is all that a program of one expression is read from. So parentheses around the
source of an expression change nothing but places; the closing one stands on a line of its own, since the
source may end with a comment.
-/
namespace Scriptlet

open Parse

/-- No word announces the end of input. -/
def Keywords.Endless (keywords : Keywords) : Prop := ∀ word, keywords.kindOf word ≠ .endOfInput

theorem Keywords.endless_default : Keywords.default.Endless := by
  intro word ended
  have reserved := Token.Proper.reserved_of_kindOf (by decide) ended.symm
  have none : ∀ entry ∈ Keywords.default, entry.2 ≠ .endOfInput := by decide
  exact none _ reserved rfl

section Scanning
variable {keywords : Keywords} {p : Position} {source : Text}

theorem Lexeme.Lexical.inside {lexeme : Lexeme} (lexical : lexeme.Lexical)
    (endless : keywords.Endless) : ∀ token ∈ lexeme.tokens keywords p, token.kind ≠ .endOfInput := by
  intro token member
  cases lexical with
  | @symbol text kind listed =>
    have none : ∀ symbol ∈ Lexeme.symbols, symbol.2 ≠ .endOfInput := by decide
    obtain rfl := List.mem_singleton.mp member
    exact none _ listed
  | word =>
    obtain rfl := List.mem_singleton.mp member
    exact endless _
  | digits =>
    obtain rfl := List.mem_singleton.mp member
    exact fun same => nomatch same
  | @quoted mark =>
    simp only [Lexeme.tokens, List.mem_cons, List.not_mem_nil, or_false] at member
    rcases member with rfl | rfl | rfl <;> by_cases single : mark = Text.apostrophe <;> simp [single]

theorem last_of_scanFrom {front : List Token} {last : Token}
    (scanned : scanFrom keywords p source = .ok (front ++ [last])) : last.kind = .endOfInput := by
  obtain ⟨others, ending, whole, ended⟩ := ended_of_scanFrom scanned
  obtain ⟨-, same⟩ := List.append_inj' whole rfl
  rwa [List.singleton_inj.mp same]

theorem inside_of_scanFrom {front : List Token} {last : Token} (endless : keywords.Endless)
    (scanned : scanFrom keywords p source = .ok (front ++ [last])) :
    ∀ token ∈ front, token.kind ≠ .endOfInput := by
  generalize whole : front ++ [last] = tokens at scanned
  fun_induction scanFrom keywords p source generalizing front tokens with
  | case1 =>
    cases scanned
    obtain ⟨rfl, -⟩ := List.append_inj' (whole.trans (List.nil_append _).symm) rfl
    simp
  | case2 => cases scanned
  | case3 => cases scanned
  | case4 p source start byte rest gap lexeme after read later found =>
    rename_i ih
    cases scanned
    obtain ⟨others, ending, rfl, -⟩ := ended_of_scanFrom found
    rw [← List.append_assoc] at whole
    obtain ⟨rfl, same⟩ := List.append_inj' whole rfl
    intro token member
    rcases List.mem_append.mp member with own | behind
    · exact (Lexeme.lexical_of_read read).inside endless token own
    · exact ih _ (by rw [List.singleton_inj.mp same]) found token behind

/-- A symbol that is a token of its own, and what stands behind it. -/
theorem scanFrom_delimiter {byte : UInt8} {kind : Kind} (solid : Lexeme.isBlank byte = false)
    (plain : byte ≠ 35) (found : Lexeme.delimiter? byte = some kind) (rest : Text) :
    scanFrom keywords p (byte :: rest) =
      (scanFrom keywords (p.next byte) rest).map (⟨kind, [byte], p⟩ :: ·) := by
  have split : Lexeme.splitGap false (byte :: rest) = ([], byte :: rest) := by
    simp [Lexeme.splitGap, solid, plain]
  have read : Lexeme.read byte rest = .ok (.symbol kind [byte], rest) := by
    simp only [Lexeme.read, found]
  rw [scanFrom_of_read (by rw [split]) read, split]
  rfl

/-- The tokens of a source in parentheses: those of the source, at other places, between two more. -/
theorem scan_parenthesized {front : List Token} {finish : Token}
    (scanned : scan keywords source = .ok (front ++ [finish])) :
    ∃ opening moved closing last,
      scan keywords (utf8 "(" ++ source ++ utf8 "\n)") =
          .ok (opening :: (moved ++ [closing]) ++ [last]) ∧
        opening.kind = .openParen ∧ closing.kind = .closeParen ∧ last.kind = .endOfInput ∧
          moved.map Token.content = front.map Token.content := by
  have text : utf8 "(" ++ source ++ utf8 "\n)" = 40 :: (source ++ Text.lineFeed :: [41]) := by
    rw [List.append_assoc]
    rfl
  obtain ⟨tokens, there, contents⟩ := scanFrom_moved scanned (Position.start.next 40)
  obtain ⟨moved, rfl, line⟩ := scanFrom_line there
  let behind := ((Position.start.next 40).after source).next Text.lineFeed
  refine ⟨⟨.openParen, [40], .start⟩, moved, ⟨.closeParen, [41], behind⟩,
    ⟨.endOfInput, [], (behind.next 41).atEnd⟩, ?_, rfl, rfl, rfl, ?_⟩
  · have closing : scanFrom keywords behind [41] =
        .ok [⟨.closeParen, [41], behind⟩, ⟨.endOfInput, [], (behind.next 41).atEnd⟩] := by
      have closes : Lexeme.delimiter? 41 = some .closeParen := rfl
      rw [scanFrom_delimiter (by decide) (by decide) closes, scanFrom_of_gap rfl]
      rfl
    have opens : Lexeme.delimiter? 40 = some .openParen := rfl
    rw [text, scan, scanFrom_delimiter (by decide) (by decide) opens, line, closing]
    simp [Except.map]
  · rw [List.map_append, List.map_append] at contents
    exact (List.append_inj' contents rfl).1

end Scanning

namespace Grammar

variable {ts : List Token} {e : Expr}

/-- Before the end of input a phrase of an expression is read as a statement. -/
theorem reads_expressionStatement (derived : e.Derives .assignment ts) :
    Reads (·.kind = .endOfInput) expressionStatement ts (.expr e) := by
  have free : ∀ token : Token, token.kind = .endOfInput → Tier.Free .assignment token := by
    intro token ended tier _
    cases tier <;> simp [Tier.continues, startsSuffix, isOperator, ended]
  refine ((reads_expression derived).before free).finish ?_
  refine reads_isAt_end false ?_ (reads_pure _)
  intro token ended
  simp [ended]

theorem reads_statement (derived : e.Derives .assignment ts) :
    Reads (·.kind = .endOfInput) statement ts (.expr e) := by
  have whole := reads_expressionStatement derived
  obtain ⟨first, more, rfl, starts⟩ := head_of_derives derived
  intro cursor next rest ahead stop
  have reads : Reads (·.kind = .endOfInput) (statementOf (nestedStatement cursor.ahead))
      (first :: more) (.expr e) := by
    apply reads_peek
    have kinds : first.kind ∈ .openBrace :: starters := by
      simpa [or_comm] using starts
    simp only [starters, List.mem_cons, List.not_mem_nil, or_false] at kinds
    rcases kinds with kind | kind | kind | kind | kind | kind | kind <;> rw [kind] <;> exact whole
  rw [run_statement, Cursor.remaining, nestedStatement]
  exact reads cursor next rest ahead stop

/-- A phrase of an expression is a program of this expression alone. -/
theorem reads_program (derived : e.Derives .assignment ts) :
    Reads (·.kind = .endOfInput) program ts [.expr e] := by
  have only := reads_statement derived
  obtain ⟨first, more, rfl, starts⟩ := head_of_derives derived
  have inside : first.kind ≠ .endOfInput := by
    intro ended
    simp [ended, starters] at starts
  apply reads_many
  intro bound few
  obtain ⟨fewer, rfl⟩ : ∃ fewer, bound = fewer + 1 := ⟨bound - 1, by omega⟩
  apply reads_peek
  rw [if_pos (decide_eq_true inside)]
  refine only.finish ((reads_collect_none ?_).finish (reads_pure _))
  intro token ended
  exact decide_eq_false (not_not.mpr ended)

end Grammar

/-- A program of one expression is a phrase of it, if no semicolon closes it. -/
theorem Program.Derives.single {ts : List Token} {e : Expr}
    (derived : Program.Derives ts [.expr e]) (unclosed : Unclosed ts) : e.Derives .assignment ts := by
  obtain ⟨parts, all, rfl, trees⟩ := derived
  obtain ⟨part, rfl, tree⟩ := List.map_eq_singleton_iff.mp trees.symm
  have phrase := all part List.mem_cons_self
  rw [List.flatMap_singleton] at unclosed ⊢
  generalize part.tokens = ts at phrase unclosed ⊢
  rw [tree] at phrase
  cases phrase with
  | expr derived => exact derived
  | closed _ kind => exact absurd unclosed (not_unclosed kind)

theorem Program.single_of_unplaced {program : Program} {e : Expr}
    (same : Program.unplaced program = Program.unplaced [.expr e]) :
    ∃ other : Expr, program = [.expr other] ∧ other.unplaced = e.unplaced := by
  rw [Program.unplaced, Program.unplaced, unplacedBody_eq, unplacedBody_eq] at same
  obtain ⟨statement, rfl, tree⟩ := List.map_eq_singleton_iff.mp same
  cases statement with
  | expr other => exact ⟨other, rfl, Stmt.expr.inj tree⟩
  | branch first others => cases first; cases tree
  | _ => cases tree

theorem Unclosed.of_contents {ts us : List Token} (unclosed : Unclosed ts)
    (contents : us.map Token.content = ts.map Token.content) : Unclosed us := by
  obtain ⟨front, last, rfl, kind⟩ := unclosed
  rw [List.map_append] at contents
  obtain ⟨init, back, rfl, -, ends⟩ := List.map_eq_append_iff.mp contents
  obtain ⟨final, rfl, same⟩ := List.map_eq_singleton_iff.mp ends
  exact ⟨init, final, rfl, fun closes => kind ((congrArg Prod.fst same).symm.trans closes)⟩

theorem kind_of_contents {ts us : List Token} {kind : Kind}
    (contents : us.map Token.content = ts.map Token.content) (other : ∀ token ∈ ts, token.kind ≠ kind) :
    ∀ token ∈ us, token.kind ≠ kind := by
  intro token member
  have listed := List.mem_map_of_mem (f := Token.content) member
  rw [contents] at listed
  obtain ⟨twin, inside, same⟩ := List.mem_map.mp listed
  have kinds : twin.kind = token.kind := congrArg Prod.fst same
  exact kinds ▸ other twin inside

/-- Wherever the tokens of a program of one expression stand, they are a phrase of this expression, but
for places. -/
theorem Grammar.derives_moved {front moved : List Token} {finish : Token} {e : Expr} {after : Cursor}
    (ran : program.run (Cursor.ofTokens (front ++ [finish])) = .ok ([.expr e], after))
    (finished : finish.kind = .endOfInput) (inside : ∀ token ∈ front, token.kind ≠ .endOfInput)
    (unclosed : Unclosed front) (contents : moved.map Token.content = front.map Token.content) :
    ∃ same : Expr, same.Derives .assignment moved ∧ same.unplaced = e.unplaced := by
  have ahead := upcoming_ofTokens moved finished
  have cursors : (Cursor.ofTokens (moved ++ [finish])).unplaced =
      (Cursor.ofTokens (front ++ [finish])).unplaced := by
    rw [Cursor.unplaced, Cursor.unplaced, ahead, upcoming_ofTokens front finished]
    exact unplaced_of_contents (by rw [List.map_append, List.map_append, contents])
  obtain ⟨again, behind, reran, trees⟩ := run_program_moved ran cursors
  obtain ⟨same, rfl, unplaced⟩ := Program.single_of_unplaced trees
  have derived := derives_front ahead finished (kind_of_contents contents inside) reran
  exact ⟨same, derived.single (unclosed.of_contents contents), unplaced⟩

/-- Parentheses around the source of an expression are redundant: the source in parentheses is parsed to
this expression alone, but for the places of its tokens. It is so for the default keywords, by
`Keywords.endless_default`, and for all others without a word for the end of input. -/
theorem parentheses_redundant {keywords : Keywords} (endless : keywords.Endless) {source : Text}
    {front : List Token} {last finish : Token} {e : Expr}
    (scanned : scan keywords source = .ok (front ++ [last, finish]))
    (unclosed : last.kind ≠ .semicolon)
    (parsed : Parser.parseFresh keywords source = .ok [.expr e]) :
    ∃ same, Parser.parseFresh keywords (utf8 "(" ++ source ++ utf8 "\n)") = .ok [.expr same] ∧
      same.unplaced = e.unplaced := by
  rw [← List.singleton_append, ← List.append_assoc] at scanned
  obtain ⟨opening, moved, closing, final, joint, opens, closes, ended, contents⟩ :=
    scan_parenthesized scanned
  obtain ⟨tokens, after, again, ran⟩ := Parser.parseFresh_eq_ok_iff.mp parsed
  cases scanned.symm.trans again
  obtain ⟨same, derived, unplaced⟩ := Grammar.derives_moved ran (last_of_scanFrom scanned)
    (inside_of_scanFrom endless scanned) ⟨front, last, rfl, unclosed⟩ contents
  have group := (Expr.Derives.group opens derived closes).widen
  obtain ⟨behind, reads, -⟩ := Grammar.reads_program group _ final []
    (upcoming_ofTokens (opening :: (moved ++ [closing])) ended) ended
  exact ⟨same, Parser.parseFresh_eq_ok_iff.mpr ⟨_, _, joint, reads⟩, unplaced⟩

/-- An assignment of an object with a call and a decimal in it, and a comment behind it. -/
def remarked : Text := utf8 "o = \x7b a: f(x)[1].b, c: 2.5 == ++, d \x7d # set"

/-- Whether a program is one expression. -/
def Program.isSingle : Program → Bool
  | [.expr _] => true
  | _ => false

theorem Program.exists_of_isSingle {program : Program} (single : program.isSingle = true) :
    ∃ e, program = [.expr e] := by
  unfold isSingle at single
  split at single
  · exact ⟨_, rfl⟩
  · cases single

theorem remarked_redundant :
    Keywords.default.Endless ∧ ∃ front last finish e same,
      scan Keywords.default remarked = .ok (front ++ [last, finish]) ∧ last.kind ≠ .semicolon ∧
        Parser.parseFresh Keywords.default remarked = .ok [.expr e] ∧
          Parser.parseFresh Keywords.default (utf8 "(" ++ remarked ++ utf8 "\n)") =
              .ok [.expr same] ∧
            same.unplaced = e.unplaced := by
  have kinds : (scan Keywords.default remarked).toOption.map
      (fun tokens => (tokens.drop 24).map Token.kind) = some [.closeBrace, .endOfInput] := by
    decide +kernel
  have single : (Parser.parseFresh Keywords.default remarked).toOption.any Program.isSingle =
      true := by decide +kernel
  rcases scanned : scan Keywords.default remarked with fault | tokens
  · rw [scanned] at kinds
    cases kinds
  · rw [scanned] at kinds
    obtain ⟨last, _, ends, kind, more⟩ := List.map_eq_cons_iff.mp (Option.some.inj kinds)
    obtain ⟨finish, rfl, -⟩ := List.map_eq_singleton_iff.mp more
    have unclosed : last.kind ≠ .semicolon := by simp [kind]
    rw [← List.take_append_drop 24 tokens, ends] at scanned ⊢
    rcases parsed : Parser.parseFresh Keywords.default remarked with fault | program
    · rw [parsed] at single
      cases single
    · rw [parsed] at single
      obtain ⟨e, rfl⟩ := Program.exists_of_isSingle single
      obtain ⟨same, reparsed, unplaced⟩ :=
        parentheses_redundant Keywords.endless_default scanned unclosed parsed
      exact ⟨Keywords.endless_default, _, last, finish, e, same, rfl, unclosed, rfl, reparsed,
        unplaced⟩

end Scriptlet
