import Mathlib.Data.List.DropRight
import Scriptlet.Proofs.Cutting
import Scriptlet.Repl.Completion
/-!
Completions as whole words. Scanning lets digits stand in a word, completion does not: it goes on from
the letters at the end of a line. So the matches end with a word that is offered exactly if no digit
stands right before these letters, and then they are all ways to go on from the word there.
-/
namespace Scriptlet.Repl

/-- The bytes that scanning takes into a word, behind its first. -/
def isWordByte (byte : UInt8) : Bool := Text.isLetter byte || Text.isDigit byte

/-- The longest run of word bytes at the end of a line. -/
def lastRun (line : Text) : Text := line.rtakeWhile isWordByte

def beforeLastRun (line : Text) : Text := line.rdropWhile isWordByte

/-- The line with the run at its end made into each word that it is the beginning of. -/
def extensions (line : Text) : List Text :=
  if lastRun line = [] then []
  else
    (completionWords.filter fun word => (lastRun line).isPrefixOf word).map
      fun word => beforeLastRun line ++ word

/-- No digit stands right before the letters at the end. -/
def Apart (line : Text) : Prop := ∀ byte ∈ (beforeLastWord line).getLast?, Text.isDigit byte = false

variable {line word m : Text}

theorem read_lastRun {first : UInt8} {rest : Text} (run : lastRun line = first :: rest)
    (letter : Text.isLetter first = true) :
    Lexeme.read first rest = .ok (.word (lastRun line), []) := by
  have inside : ∀ byte ∈ rest, isWordByte byte = true := by
    intro byte member
    have within : byte ∈ lastRun line := run ▸ List.mem_cons_of_mem first member
    exact List.mem_rtakeWhile_imp (p := isWordByte) within
  rw [Lexeme.read_of_letter letter, run]
  change Except.ok (Lexeme.word (first :: rest.takeWhile isWordByte), rest.dropWhile isWordByte) = _
  rw [List.takeWhile_eq_self_iff.mpr inside, List.dropWhile_eq_nil_iff.mpr inside]

theorem split_append {p : UInt8 → Bool} (a : Text) {b : Text} (all : ∀ byte ∈ b, p byte = true) :
    (a ++ b).rtakeWhile p = a.rtakeWhile p ++ b ∧ (a ++ b).rdropWhile p = a.rdropWhile p := by
  have reversed : ∀ byte ∈ b.reverse, p byte = true := fun byte member =>
    all byte (List.mem_reverse.mp member)
  rw [List.rtakeWhile, List.rdropWhile, List.reverse_append, List.takeWhile_append_of_pos reversed,
    List.dropWhile_append_of_pos reversed, List.reverse_append, List.reverse_reverse]
  exact ⟨rfl, rfl⟩

theorem beforeLastWord_append (line : Text) : beforeLastWord line ++ lastWord line = line :=
  List.rdropWhile_append_rtakeWhile

theorem isLetter_of_mem_lastWord (line : Text) :
    ∀ byte ∈ lastWord line, Text.isLetter byte = true :=
  fun _ => List.mem_rtakeWhile_imp (p := Text.isLetter)

theorem isLetter_of_mem_completionWords :
    ∀ word ∈ completionWords, ∀ byte ∈ word, Text.isLetter byte = true := by decide +kernel

theorem isWordByte_of_isLetter {byte : UInt8} (letter : Text.isLetter byte = true) :
    isWordByte byte = true := by rw [isWordByte, letter, Bool.true_or]

/-- Letters lengthen the run at the end of what they are put behind. -/
theorem lastRun_append (before : Text) (letters : ∀ byte ∈ word, Text.isLetter byte = true) :
    lastRun (before ++ word) = lastRun before ++ word ∧
      beforeLastRun (before ++ word) = beforeLastRun before :=
  split_append before fun byte member => isWordByte_of_isLetter (letters byte member)

theorem lastRun_eq (line : Text) :
    lastRun line = lastRun (beforeLastWord line) ++ lastWord line ∧
      beforeLastRun line = beforeLastRun (beforeLastWord line) := by
  have split := lastRun_append (beforeLastWord line) (isLetter_of_mem_lastWord line)
  rwa [beforeLastWord_append] at split

/-- What stands before the letters at the end does not end with a letter. -/
theorem not_isLetter_of_mem_getLast? {byte : UInt8} (last : byte ∈ (beforeLastWord line).getLast?) :
    Text.isLetter byte = false := by
  obtain ⟨some_, rfl⟩ := List.mem_getLast?_eq_getLast last
  exact Bool.eq_false_iff.mpr (List.rdropWhile_last_not Text.isLetter line some_)

theorem apart_iff : Apart line ↔ lastRun (beforeLastWord line) = [] := by
  rw [lastRun, List.rtakeWhile_eq_nil_iff]
  constructor
  · intro apart some_
    have last := List.getLast?_eq_some_getLast some_
    rw [isWordByte, apart _ last, not_isLetter_of_mem_getLast? last]
    decide
  · intro stops byte last
    obtain ⟨some_, rfl⟩ := List.mem_getLast?_eq_getLast last
    have other := stops some_
    rw [isWordByte, not_isLetter_of_mem_getLast? last, Bool.false_or] at other
    exact Bool.eq_false_iff.mpr other

/-- A digit before the letters keeps a run from being letters only. -/
theorem apart_of_letters (rest : Text)
    (letters : ∀ byte ∈ lastRun (beforeLastWord line) ++ rest, Text.isLetter byte = true) :
    Apart line := by
  rw [apart_iff]
  by_contra some_
  have before : beforeLastWord line ≠ [] := by
    intro none
    rw [none] at some_
    exact some_ rfl
  have same : (lastRun (beforeLastWord line)).getLast some_ = (beforeLastWord line).getLast before :=
    (List.rtakeWhile_suffix isWordByte _).getLast some_
  have letter := letters _ (List.mem_append_left _ (List.getLast_mem some_))
  rw [same, not_isLetter_of_mem_getLast? (List.getLast?_eq_some_getLast before)] at letter
  cases letter

theorem mem_completions_iff :
    m ∈ completions line ↔ lastWord line ≠ [] ∧
      ∃ word ∈ completionWords, lastWord line <+: word ∧ m = beforeLastWord line ++ word := by
  rw [completions]
  split
  · rename_i none
    simp [none]
  · rename_i some_
    simp only [List.mem_map, List.mem_filter, List.isPrefixOf_iff_prefix, and_assoc, ne_eq, some_,
      not_false_eq_true, true_and, @eq_comm _ m]

/-- A match ends with a word that is offered, exactly if no digit stands before the letters of the
line. -/
theorem whole_iff (matches_ : m ∈ completions line) : lastRun m ∈ completionWords ↔ Apart line := by
  obtain ⟨-, word, offered, -, rfl⟩ := mem_completions_iff.mp matches_
  have letters := isLetter_of_mem_completionWords word offered
  rw [(lastRun_append _ letters).1]
  constructor
  · intro whole
    exact apart_of_letters word (isLetter_of_mem_completionWords _ whole)
  · intro apart
    rwa [apart_iff.mp apart]

/-- Where no digit stands before the letters, they are the run at the end. -/
theorem extensions_of_apart (apart : Apart line) : extensions line = completions line := by
  obtain ⟨run, before⟩ := lastRun_eq line
  have rest : beforeLastRun (beforeLastWord line) = beforeLastWord line := by
    have whole : beforeLastRun (beforeLastWord line) ++ lastRun (beforeLastWord line) =
        beforeLastWord line := List.rdropWhile_append_rtakeWhile
    rwa [apart_iff.mp apart, List.append_nil] at whole
  rw [extensions, completions, run, before, rest, apart_iff.mp apart, List.nil_append]

theorem extensions_of_not_apart (touching : ¬ Apart line) : extensions line = [] := by
  rw [extensions]
  split
  · rfl
  · apply List.map_eq_nil_iff.mpr
    apply List.filter_eq_nil_iff.mpr
    intro word offered begins
    apply touching
    apply apart_of_letters (lastWord line)
    intro byte member
    rw [← (lastRun_eq line).1] at member
    exact isLetter_of_mem_completionWords word offered byte
      ((List.isPrefixOf_iff_prefix.mp begins).subset member)

/-- Every match goes on from the line, with a word that is offered behind what stands before the letters
at its end. Unless there are no matches, the run of word bytes at the end of a match is a word that is
offered, and the matches are all extensions of the run at the end of the line, in the order of the words,
exactly if no digit stands right before the letters. A run that starts with a letter is what scanning
reads as one word. -/
theorem completions_whole_iff (line : Text) :
    (∀ m ∈ completions line, line <+: m ∧
        ∃ word ∈ completionWords, lastWord line <+: word ∧ m = beforeLastWord line ++ word) ∧
      ((∀ m ∈ completions line, lastRun m ∈ completionWords) ↔
        completions line = [] ∨ Apart line) ∧
      (completions line = extensions line ↔ completions line = [] ∨ Apart line) ∧
      ∀ first rest, lastRun line = first :: rest → Text.isLetter first = true →
        Lexeme.read first rest = .ok (.word (lastRun line), []) := by
  refine ⟨?_, ?_, ?_, fun first rest => read_lastRun⟩
  · intro m matches_
    obtain ⟨-, word, offered, begins, rfl⟩ := mem_completions_iff.mp matches_
    refine ⟨?_, word, offered, begins, rfl⟩
    have onward := (List.prefix_append_right_inj (beforeLastWord line)).mpr begins
    rwa [beforeLastWord_append] at onward
  · constructor
    · intro whole
      rcases found : completions line with _ | ⟨m, others⟩
      · exact .inl rfl
      · have matches_ : m ∈ completions line := found ▸ List.mem_cons_self
        exact .inr ((whole_iff matches_).mp (whole m matches_))
    · rintro (none | apart) m matches_
      · rw [none] at matches_
        cases matches_
      · exact (whole_iff matches_).mpr apart
  · by_cases apart : Apart line
    · simp [extensions_of_apart apart, apart]
    · simp [extensions_of_not_apart apart, apart]

/-- The word at the end of `x1pr` is no beginning of `print`, but the letters at its end are. -/
theorem completion_not_always_whole :
    ¬ ∀ line : Text, (∀ m ∈ completions line, line <+: m ∧ lastRun m ∈ completionWords) ∧
      completions line = extensions line := by
  intro always
  have offered : utf8 "x1print" ∈ completions (utf8 "x1pr") := by decide +kernel
  have word := ((always (utf8 "x1pr")).1 _ offered).2
  revert word
  decide +kernel

end Scriptlet.Repl
