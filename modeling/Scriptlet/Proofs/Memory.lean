import Scriptlet.Grammar.Parser
/-!
The memory of a parser. What it holds is what scanning its last source gives, so parsing from memory
gives what parsing afresh would.
-/
namespace Scriptlet

namespace Cursor

theorem restart_startOf (tokens : List Token) : (startOf tokens).restart = startOf tokens := by
  cases tokens <;> rfl

theorem restart_ofTokens (tokens : List Token) : (ofTokens tokens).restart = ofTokens tokens :=
  restart_startOf _

end Cursor

namespace Parser

variable {parser : Parser}

/-- The tokens that are held, if any, are those of the source that is held with them. -/
def Faithful (parser : Parser) : Prop :=
  ∀ source cursor, parser.held = some (source, cursor) →
    ∃ tokens, scan parser.keywords source = .ok tokens ∧ cursor = Cursor.ofTokens tokens

theorem result_finish (parser : Parser) (cursor : Cursor) :
    (parser.finish cursor).1 = Grammar.parseAt cursor := by
  unfold finish
  split
  · rename_i accepted
    rw [accepted]
  · rename_i refused
    rw [refused]

theorem keywords_finish (parser : Parser) (cursor : Cursor) :
    (parser.finish cursor).2.keywords = parser.keywords := by
  unfold finish
  split <;> rfl

theorem held_finish (parser : Parser) (cursor : Cursor) :
    (parser.finish cursor).2.held = parser.held := by
  unfold finish
  split <;> rfl

theorem Faithful.finish (faithful : parser.Faithful) (cursor : Cursor) :
    (parser.finish cursor).2.Faithful := by
  unfold Faithful
  rw [held_finish, keywords_finish]
  exact faithful

theorem result_parseNew (parser : Parser) (source : Text) :
    (parser.parseNew source).1 = parseFresh parser.keywords source := by
  unfold parseNew parseFresh
  rcases scan parser.keywords source with fault | tokens
  · rfl
  · exact result_finish _ _

theorem keywords_parseNew (parser : Parser) (source : Text) :
    (parser.parseNew source).2.keywords = parser.keywords := by
  unfold parseNew
  split
  · exact keywords_finish _ _
  · rfl

theorem faithful_parseNew (parser : Parser) (source : Text) :
    (parser.parseNew source).2.Faithful := by
  unfold parseNew
  split
  · rename_i tokens scanned
    apply Faithful.finish
    rintro _ _ ⟨⟩
    exact ⟨tokens, scanned, rfl⟩
  · rintro _ _ ⟨⟩

/-- A parser that is faithful gives what one without a memory gives, and stays faithful. -/
theorem Faithful.parse (faithful : parser.Faithful) (source : Text) :
    (parser.parse source).1 = parseFresh parser.keywords source ∧
      (parser.parse source).2.Faithful := by
  unfold Parser.parse
  split
  · rename_i text cursor held
    split
    · rename_i same
      subst same
      obtain ⟨tokens, scanned, rfl⟩ := faithful text cursor held
      refine ⟨?_, faithful.finish _⟩
      rw [result_finish, Cursor.restart_ofTokens, parseFresh, scanned]
      rfl
    · exact ⟨result_parseNew parser source, faithful_parseNew parser source⟩
  · exact ⟨result_parseNew parser source, faithful_parseNew parser source⟩

theorem keywords_parse (parser : Parser) (source : Text) :
    (parser.parse source).2.keywords = parser.keywords := by
  unfold Parser.parse
  split
  · split
    · exact keywords_finish _ _
    · exact keywords_parseNew _ _
  · exact keywords_parseNew _ _

end Parser

end Scriptlet
