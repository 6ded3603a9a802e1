import Scriptlet.Token.Scanner
/-!
Scanning composes at line ends. No gap and no lexeme that is complete at the end of a text goes on
with a line feed, so a text behind a line feed is scanned as if it stood alone, at its place.
-/
namespace Scriptlet

namespace Lexeme

/-- A gap that takes a whole text takes the line feed too, and the gap behind it. -/
theorem splitGap_line {comment : Bool} {a : Text} (b : Text)
    (whole : (splitGap comment a).2 = []) :
    splitGap comment (a ++ Text.lineFeed :: b) =
      (a ++ Text.lineFeed :: (splitGap false b).1, (splitGap false b).2) := by
  induction a generalizing comment with
  | nil => cases comment <;> rfl
  | cons byte rest ih =>
    cases comment with
    | true =>
      simp only [List.cons_append, splitGap] at whole ⊢
      rw [ih whole]
    | false =>
      simp only [List.cons_append, splitGap] at whole ⊢
      by_cases blank : isBlank byte = true
      · simp only [blank, if_true] at whole ⊢
        rw [ih whole]
      · by_cases hash : (byte == 35) = true
        · simp only [blank, hash, if_true, if_false, Bool.false_eq_true] at whole ⊢
          rw [ih whole]
        · simp [blank, hash] at whole

theorem splitGap_append_of_cons {comment : Bool} {a rest : Text} {byte : UInt8} (more : Text)
    (found : (splitGap comment a).2 = byte :: rest) :
    splitGap comment (a ++ more) = ((splitGap comment a).1, byte :: (rest ++ more)) := by
  induction a generalizing comment with
  | nil => cases comment <;> cases found
  | cons first others ih =>
    cases comment with
    | true =>
      simp only [List.cons_append, splitGap] at found ⊢
      rw [ih found]
    | false =>
      simp only [List.cons_append, splitGap] at found ⊢
      by_cases blank : isBlank first = true
      · simp only [blank, if_true] at found ⊢
        rw [ih found]
      · by_cases hash : (first == 35) = true
        · simp only [blank, hash, if_true, if_false, Bool.false_eq_true] at found ⊢
          rw [ih found]
        · simp only [blank, hash, if_false, Bool.false_eq_true] at found ⊢
          cases found
          rfl

theorem readQuotation_append_of_closed {a body value rest : Text} {close : UInt8} (more : Text)
    (read : readQuotation a = .closed body value close rest) :
    readQuotation (a ++ more) = .closed body value close (rest ++ more) := by
  fun_induction readQuotation a generalizing body value with
  | case1 => cases read
  | case2 byte rest quote =>
    cases read
    rw [List.cons_append, readQuotation.eq_def]
    simp [quote]
  | case3 => cases read
  | case4 => cases read
  | case5 byte quote escape letter others meaning means ih =>
    obtain ⟨tail, tailValue, inner, rfl, rfl⟩ := Quotation.after_eq_closed.mp read
    simp [readQuotation, quote, escape, means, ih inner, Quotation.after]
  | case6 byte others quote plain ih =>
    obtain ⟨tail, tailValue, inner, rfl, rfl⟩ := Quotation.after_eq_closed.mp read
    have step : readQuotation (byte :: (others ++ more)) =
        (readQuotation (others ++ more)).after [byte] [byte] := by
      rw [readQuotation.eq_def]
      simp [quote, plain]
    rw [List.cons_append, step, ih inner]
    rfl

theorem takeWhile_line {p : UInt8 → Bool} (stops : p Text.lineFeed = false) (a b : Text) :
    (a ++ Text.lineFeed :: b).takeWhile p = a.takeWhile p ∧
      (a ++ Text.lineFeed :: b).dropWhile p = a.dropWhile p ++ Text.lineFeed :: b := by
  induction a with
  | nil => simp [stops]
  | cons byte rest ih => by_cases here : p byte = true <;> simp [here, ih]

theorem readDoubling_line {byte : UInt8} {rest after : Text} {lexeme : Lexeme} (b : Text)
    (other : byte ≠ Text.lineFeed) (read : readDoubling byte rest = (lexeme, after)) :
    readDoubling byte (rest ++ Text.lineFeed :: b) = (lexeme, after ++ Text.lineFeed :: b) := by
  cases rest with
  | nil =>
    cases read
    simp [readDoubling, other.symm]
  | cons next more =>
    simp only [readDoubling, List.cons_append] at read ⊢
    by_cases doubled : (next == byte) = true
    · rw [if_pos doubled] at read ⊢
      cases read
      rfl
    · rw [if_neg doubled] at read ⊢
      cases read
      rfl

theorem readEquals_line {alone : Kind} {byte : UInt8} {rest after : Text} {lexeme : Lexeme} (b : Text)
    (read : readEquals alone byte rest = (lexeme, after)) :
    readEquals alone byte (rest ++ Text.lineFeed :: b) = (lexeme, after ++ Text.lineFeed :: b) := by
  cases rest with
  | nil =>
    cases read
    simp [readEquals, Text.lineFeed]
  | cons next more =>
    simp only [readEquals, List.cons_append] at read ⊢
    by_cases equals : (next == 61) = true
    · rw [if_pos equals] at read ⊢
      cases read
      rfl
    · rw [if_neg equals] at read ⊢
      cases read
      rfl

theorem read_line {byte : UInt8} {rest after : Text} {lexeme : Lexeme} (b : Text)
    (read : Lexeme.read byte rest = .ok (lexeme, after)) :
    Lexeme.read byte (rest ++ Text.lineFeed :: b) = .ok (lexeme, after ++ Text.lineFeed :: b) := by
  unfold Lexeme.read at read ⊢
  split at read
  · cases read
    rfl
  split at read
  · rename_i quote
    split at read
    · rename_i body value close rest closed
      rw [if_pos quote, readQuotation_append_of_closed _ closed]
      dsimp only
      split at read
      · rename_i same
        cases read
        rw [if_pos same]
      · cases read
    · cases read
    · cases read
  rename_i unquoted
  rw [if_neg unquoted]
  split at read
  · rename_i doubling
    rw [if_pos doubling]
    have other : byte ≠ Text.lineFeed := by
      rintro rfl
      exact absurd doubling (by decide)
    exact congrArg Except.ok (readDoubling_line b other (Except.ok.inj read))
  rename_i undoubling
  rw [if_neg undoubling]
  split at read
  · rename_i order
    rw [if_pos order]
    exact congrArg Except.ok (readEquals_line b (Except.ok.inj read))
  rename_i unordered
  rw [if_neg unordered]
  split at read
  · rename_i equals
    rw [if_pos equals]
    exact congrArg Except.ok (readEquals_line b (Except.ok.inj read))
  rename_i unequal
  rw [if_neg unequal]
  split at read
  · rename_i half
    rw [if_pos half]
    cases rest with
    | nil => cases read
    | cons next more =>
      dsimp only [List.cons_append] at read ⊢
      split at read
      · rename_i doubled
        cases read
        rw [if_pos doubled]
      · cases read
  rename_i whole
  rw [if_neg whole]
  split at read
  · rename_i letter
    cases read
    have word := takeWhile_line (p := fun b => Text.isLetter b || Text.isDigit b) (by decide) rest b
    rw [if_pos letter]
    simp only [word]
  rename_i unlettered
  rw [if_neg unlettered]
  split at read
  · rename_i digit
    cases read
    have digits := takeWhile_line (p := Text.isDigit) (by decide) rest b
    rw [if_pos digit]
    simp only [digits]
  · cases read

end Lexeme

section Scanning
variable {keywords : Keywords} {p : Position} {input rest after : Text} {byte : UInt8}
  {lexeme : Lexeme}

theorem scanFrom_of_gap (whole : (Lexeme.splitGap false input).2 = []) :
    scanFrom keywords p input =
      .ok [⟨.endOfInput, [], (p.after (Lexeme.splitGap false input).1).atEnd⟩] := by
  rw [scanFrom]
  split
  · rfl
  · rename_i found
    rw [whole] at found
    cases found

/-- The rest behind a lexeme is scanned at the place where the lexeme ends. -/
theorem scanFrom_of_read (found : (Lexeme.splitGap false input).2 = byte :: rest)
    (read : Lexeme.read byte rest = .ok (lexeme, after)) :
    scanFrom keywords p input =
      (scanFrom keywords
          ((p.after (Lexeme.splitGap false input).1).after lexeme.raw) after).map
        (lexeme.tokens keywords (p.after (Lexeme.splitGap false input).1) ++ ·) := by
  rw [scanFrom]
  split
  · rename_i whole
    rw [found] at whole
    cases whole
  · rename_i other others split_
    obtain ⟨rfl, rfl⟩ : byte = other ∧ rest = others := by simpa [found] using split_
    split
    · rename_i refused
      rw [read] at refused
      cases refused
    · rename_i taken
      rw [read] at taken
      cases taken
      rcases scanFrom keywords _ after with fault | tokens <;> rfl

theorem scanFrom_of_fault {fault : LexicalFault}
    (found : (Lexeme.splitGap false input).2 = byte :: rest)
    (refused : Lexeme.read byte rest = .error fault) :
    scanFrom keywords p input =
      .error (fault.diagnose (p.after (Lexeme.splitGap false input).1)) := by
  rw [scanFrom]
  split
  · rename_i whole
    rw [found] at whole
    cases whole
  · rename_i other others split_
    obtain ⟨rfl, rfl⟩ : byte = other ∧ rest = others := by simpa [found] using split_
    split
    · rename_i same
      rw [refused] at same
      cases same
      rfl
    · rename_i taken
      rw [refused] at taken
      cases taken

/-- Scanning depends on where the first gap ends and on what is behind it. -/
theorem scanFrom_congr {q : Position} {other : Text}
    (rests : (Lexeme.splitGap false input).2 = (Lexeme.splitGap false other).2)
    (starts : p.after (Lexeme.splitGap false input).1 = q.after (Lexeme.splitGap false other).1) :
    scanFrom keywords p input = scanFrom keywords q other := by
  rcases found : (Lexeme.splitGap false other).2 with _ | ⟨byte, rest⟩
  · rw [scanFrom_of_gap (rests.trans found), scanFrom_of_gap found, starts]
  · rcases read : Lexeme.read byte rest with fault | ⟨lexeme, after⟩
    · rw [scanFrom_of_fault (rests.trans found) read, scanFrom_of_fault found read, starts]
    · rw [scanFrom_of_read (rests.trans found) read, scanFrom_of_read found read, starts]

/-- What a source is scanned to, apart from the end of input, comes before the tokens of what stands
behind a line feed. -/
theorem scanFrom_line {a : Text} {as : List Token} (scanned : scanFrom keywords p a = .ok as) :
    ∃ front, as = front ++ [⟨.endOfInput, [], (p.after a).atEnd⟩] ∧
      ∀ b, scanFrom keywords p (a ++ Text.lineFeed :: b) =
        (scanFrom keywords ((p.after a).next Text.lineFeed) b).map (front ++ ·) := by
  fun_induction scanFrom keywords p a generalizing as with
  | case1 p a start =>
    rename_i whole
    have gap := Lexeme.splitGap_append false a
    rw [whole, List.append_nil] at gap
    cases scanned
    refine ⟨[], ?_, ?_⟩
    · simp only [start, gap, List.nil_append]
    · intro b
      have split := Lexeme.splitGap_line b whole
      have same : scanFrom keywords p (a ++ Text.lineFeed :: b) =
          scanFrom keywords ((p.after a).next Text.lineFeed) b := by
        apply scanFrom_congr
        · rw [split]
        · rw [split, Position.after_append, Position.after_cons]
      rw [same]
      rcases scanFrom keywords ((p.after a).next Text.lineFeed) b with fault | tokens <;> rfl
  | case2 => cases scanned
  | case3 => cases scanned
  | case4 p a start byte rest gap lexeme after read tokens later =>
    rename_i ih
    cases scanned
    obtain ⟨front, rfl, behind⟩ := ih later
    have whole : p.after a = (start.after lexeme.raw).after after := by
      obtain ⟨tail, first, others⟩ := Lexeme.raw_of_read read
      rw [← Lexeme.splitGap_append false a, gap, ← others, ← List.cons_append, ← first,
        Position.after_append, Position.after_append]
    refine ⟨lexeme.tokens keywords start ++ front, ?_, ?_⟩
    · rw [whole, List.append_assoc]
    · intro b
      have split := Lexeme.splitGap_append_of_cons (Text.lineFeed :: b) gap
      have found : (Lexeme.splitGap false (a ++ Text.lineFeed :: b)).2 =
          byte :: (rest ++ Text.lineFeed :: b) := by rw [split]
      rw [scanFrom_of_read found (Lexeme.read_line b read), split, whole]
      change (scanFrom keywords (start.after lexeme.raw) (after ++ Text.lineFeed :: b)).map _ = _
      rw [behind b]
      rcases scanFrom keywords _ b with fault | others
      · rfl
      · simp only [Except.map, start, List.append_assoc]

end Scanning

end Scriptlet
