import Mathlib.Data.List.Basic
import Scriptlet.Proofs.LineEnds
import Scriptlet.Proofs.Places
/-!
Sources further down. A source that starts some lines further down, at the same column, is scanned
alike: every token and every fault is as many lines further down and in the same column. So a text
behind a line feed is scanned as if it stood alone, and then lowered by the lines before it.
-/
namespace Scriptlet

/-- The place some lines further down. -/
def Position.below (lines : Nat) (p : Position) : Position := ⟨p.line + lines, p.column⟩

def Token.below (lines : Nat) (token : Token) : Token :=
  { token with position := token.position.below lines }

def Diagnostic.below (lines : Nat) (fault : Diagnostic) : Diagnostic :=
  fault.placedAt (fault.position.below lines)

/-- What a source is scanned to some lines further down. -/
def lowered (lines : Nat) : Except Diagnostic (List Token) → Except Diagnostic (List Token)
  | .ok tokens => .ok (tokens.map (Token.below lines))
  | .error fault => .error (fault.below lines)

namespace Position

variable {lines : Nat} {p : Position}

@[simp]
theorem next_below (byte : UInt8) : (p.below lines).next byte = (p.next byte).below lines := by
  rw [next, next]
  split
  · simp only [below, Position.mk.injEq, and_true]
    omega
  · rfl

@[simp]
theorem after_below (text : Text) : (p.below lines).after text = (p.after text).below lines := by
  induction text generalizing p with
  | nil => rfl
  | cons byte rest ih => rw [after_cons, after_cons, next_below, ih]

theorem atEnd_below : (p.below lines).atEnd = p.atEnd.below lines := rfl

/-- Behind a text and a line feed is the first column, below all lines of the text. -/
theorem next_after_start (text : Text) :
    (start.after text).next Text.lineFeed = start.below (1 + text.count Text.lineFeed) := by
  rw [next, if_pos rfl, line_after, below]
  simp only [start, Position.mk.injEq, and_true]
  omega

end Position

section Scanning
variable {keywords : Keywords} {lines : Nat} {p : Position}

theorem Lexeme.tokens_below (lexeme : Lexeme) :
    lexeme.tokens keywords (p.below lines) = (lexeme.tokens keywords p).map (Token.below lines) := by
  cases lexeme with
  | quoted mark body value =>
    simp only [tokens, Position.next_below, Position.after_below]
    rfl
  | _ => rfl

theorem LexicalFault.diagnose_below (fault : LexicalFault) :
    fault.diagnose (p.below lines) = (fault.diagnose p).below lines := by
  cases fault <;> simp only [diagnose, Position.after_below] <;> rfl

theorem scanFrom_below (source : Text) :
    scanFrom keywords (p.below lines) source = lowered lines (scanFrom keywords p source) := by
  -- the tokens behind a lexeme are lowered by induction on what is left of the source
  induction length : source.length using Nat.strongRecOn generalizing p source with
  | _ n ih =>
    subst length
    rcases found : (Lexeme.splitGap false source).2 with _ | ⟨byte, rest⟩
    · rw [scanFrom_of_gap found, scanFrom_of_gap found, Position.after_below, Position.atEnd_below]
      rfl
    · rcases read : Lexeme.read byte rest with fault | ⟨lexeme, after⟩
      · rw [scanFrom_of_fault found read, scanFrom_of_fault found read, Position.after_below,
          LexicalFault.diagnose_below]
        rfl
      · have shorter : after.length < source.length :=
          Nat.lt_of_le_of_lt (Lexeme.length_lt_of_read read) (Lexeme.length_of_splitGap found)
        rw [scanFrom_of_read found read, scanFrom_of_read found read, Position.after_below,
          Position.after_below, Lexeme.tokens_below, ih _ shorter after rfl]
        rcases scanFrom keywords _ after with fault | tokens
        · rfl
        · simp only [lowered, Except.map, List.map_append]

/-- A source that is scanned ends with the end of input; without that its tokens are followed by those
of any text on the lines behind it, which are as for the text alone but lower. If that text cannot be
scanned, it is refused with its own fault, lower too. -/
theorem scan_divides_at_line_end {a : Text} {as : List Token} (scanned : scan keywords a = .ok as) :
    ∃ front finish, as = front ++ [finish] ∧ finish.kind = .endOfInput ∧ ∀ b,
      (∀ bs, scan keywords b = .ok bs → scan keywords (a ++ Text.lineFeed :: b) =
        .ok (front ++ bs.map (Token.below (1 + a.count Text.lineFeed)))) ∧
      (∀ fault, scan keywords b = .error fault → scan keywords (a ++ Text.lineFeed :: b) =
        .error (fault.below (1 + a.count Text.lineFeed))) := by
  obtain ⟨front, whole, joint⟩ := scanFrom_line scanned
  refine ⟨front, _, whole, rfl, fun b => ?_⟩
  have behind : scan keywords (a ++ Text.lineFeed :: b) =
      (lowered (1 + a.count Text.lineFeed) (scan keywords b)).map (front ++ ·) := by
    rw [scan, joint b, Position.next_after_start, scanFrom_below, scan]
  constructor
  · intro bs alone
    rw [behind, alone]
    rfl
  · intro fault refused
    rw [behind, refused]
    rfl

/-- `a+` on the second line, with a comment behind it that is still open at the end. -/
def unfinishedSum : Text := utf8 "\na+ # and"

def sumTokens : List Token := [⟨.name, utf8 "a", ⟨2, 1⟩⟩, ⟨.binaryOperator, utf8 "+", ⟨2, 2⟩⟩]

/-- Another plus, and a string that goes on to the next line. -/
def restOfSum : Text := utf8 "+ \"b\nc\""

def restTokens : List Token :=
  [⟨.binaryOperator, utf8 "+", ⟨1, 1⟩⟩, ⟨.quote, utf8 "\"", ⟨1, 3⟩⟩, ⟨.string, utf8 "b\nc", ⟨1, 4⟩⟩,
    ⟨.quote, utf8 "\"", ⟨2, 2⟩⟩, ⟨.endOfInput, [], ⟨2, 2⟩⟩]

theorem unfinishedSum_divides :
    scan Keywords.default unfinishedSum = .ok (sumTokens ++ [⟨.endOfInput, [], ⟨2, 8⟩⟩]) ∧
      scan Keywords.default restOfSum = .ok restTokens ∧
      scan Keywords.default (unfinishedSum ++ Text.lineFeed :: restOfSum) =
        .ok (sumTokens ++ restTokens.map (Token.below 2)) := by
  have first : scan Keywords.default unfinishedSum =
      .ok (sumTokens ++ [⟨.endOfInput, [], ⟨2, 8⟩⟩]) := by decide +kernel
  have second : scan Keywords.default restOfSum = .ok restTokens := by decide +kernel
  obtain ⟨front, finish, whole, -, behind⟩ := scan_divides_at_line_end first
  obtain ⟨rfl, -⟩ := List.append_inj' whole rfl
  exact ⟨first, second, (behind restOfSum).1 _ second⟩

end Scanning

end Scriptlet
