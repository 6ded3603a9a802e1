import Scriptlet.Token.Lexeme
/-!
Scanning: a source is cut into gaps and lexemes from left to right, and each lexeme becomes the
tokens at its place. The tokens end with one for the end of input. The first fault ends scanning.
-/
namespace Scriptlet

namespace Lexeme

theorem splitGap_append (comment : Bool) (input : Text) :
    (splitGap comment input).1 ++ (splitGap comment input).2 = input := by
  induction input generalizing comment with
  | nil => cases comment <;> rfl
  | cons byte rest ih =>
    cases comment with
    | true => simp [splitGap, ih]
    | false =>
      simp only [splitGap]
      split
      · simp [ih]
      · split <;> simp [ih]

theorem Quotation.after_eq_closed {q : Quotation} {b v body value rest : Text} {close : UInt8} :
    q.after b v = .closed body value close rest ↔
      ∃ more moreValue, q = .closed more moreValue close rest ∧ body = b ++ more ∧
        value = v ++ moreValue := by
  cases q <;> simp [Quotation.after]
  grind

theorem readQuotation_append {input body value rest : Text} {close : UInt8}
    (read : readQuotation input = .closed body value close rest) :
    body ++ close :: rest = input := by
  fun_induction readQuotation input generalizing body value with
  | case1 => simp at read
  | case2 => simp_all
  | case3 => simp at read
  | case4 => simp at read
  | case5 _ _ _ _ _ _ _ ih =>
    obtain ⟨more, moreValue, inner, rfl, -⟩ := Quotation.after_eq_closed.mp read
    simp [ih inner]
  | case6 _ _ _ _ ih =>
    obtain ⟨more, moreValue, inner, rfl, -⟩ := Quotation.after_eq_closed.mp read
    simp [ih inner]

theorem raw_of_readDoubling {byte : UInt8} {rest after : Text} {lexeme : Lexeme}
    (read : readDoubling byte rest = (lexeme, after)) :
    ∃ tail, lexeme.raw = byte :: tail ∧ tail ++ after = rest := by
  cases rest <;> grind [readDoubling, raw]

theorem raw_of_readEquals {alone : Kind} {byte : UInt8} {rest after : Text} {lexeme : Lexeme}
    (read : readEquals alone byte rest = (lexeme, after)) :
    ∃ tail, lexeme.raw = byte :: tail ∧ tail ++ after = rest := by
  cases rest <;> grind [readEquals, raw]

theorem raw_of_read {byte : UInt8} {rest after : Text} {lexeme : Lexeme}
    (read : Lexeme.read byte rest = .ok (lexeme, after)) :
    ∃ tail, lexeme.raw = byte :: tail ∧ tail ++ after = rest := by
  unfold Lexeme.read at read
  repeat' split at read
  all_goals first | contradiction | skip
  all_goals simp only [Except.ok.injEq] at read
  case h_1 => grind [raw]
  case h_1.isTrue quotation _ =>
    have := readQuotation_append quotation
    grind [raw]
  case h_2.isFalse.isTrue => exact raw_of_readDoubling read
  case h_2.isFalse.isFalse.isTrue => exact raw_of_readEquals read
  case h_2.isFalse.isFalse.isFalse.isTrue => exact raw_of_readEquals read
  all_goals grind [raw, List.takeWhile_append_dropWhile]

theorem length_lt_of_read {byte : UInt8} {rest after : Text} {lexeme : Lexeme}
    (read : Lexeme.read byte rest = .ok (lexeme, after)) : after.length ≤ rest.length := by
  obtain ⟨tail, -, rfl⟩ := raw_of_read read
  simp

theorem length_of_splitGap {comment : Bool} {input rest : Text} {byte : UInt8}
    (split : (splitGap comment input).2 = byte :: rest) : rest.length < input.length := by
  have whole := congrArg List.length (splitGap_append comment input)
  simp only [split, List.length_append, List.length_cons] at whole
  omega

end Lexeme

def scanFrom (keywords : Keywords) (p : Position) (input : Text) :
    Except Diagnostic (List Token) :=
  let start := p.after (Lexeme.splitGap false input).1
  match _gap : (Lexeme.splitGap false input).2 with
  | [] => .ok [⟨.endOfInput, [], start.atEnd⟩]
  | byte :: rest =>
    match _read : Lexeme.read byte rest with
    | .error fault => .error (fault.diagnose start)
    | .ok (lexeme, after) =>
      match scanFrom keywords (start.after lexeme.raw) after with
      | .error fault => .error fault
      | .ok tokens => .ok (lexeme.tokens keywords start ++ tokens)
termination_by input.length
decreasing_by
  have := Lexeme.length_of_splitGap _gap
  have := Lexeme.length_lt_of_read _read
  omega

def scan (keywords : Keywords) (source : Text) : Except Diagnostic (List Token) :=
  scanFrom keywords .start source

/-- The tokens that are left of a source once it has been scanned: none but the end of input, at its
place. -/
def scanRemainder (source : Text) : List Token :=
  [⟨.endOfInput, [], (Position.start.after source).atEnd⟩]

end Scriptlet
