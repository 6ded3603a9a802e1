import Mathlib.Data.List.DropRight
import Scriptlet.Output.Logger
/-!
Buffers and streams. A buffer keeps complete lines apart from what was printed since, a stream takes
bytes as they come. The text of the buffer is what the stream holds: each act of printing puts the
same bytes at the end of both.
-/
namespace Scriptlet

namespace PrintBuffer

theorem text_eq (buffer : PrintBuffer) :
    buffer.text = buffer.lines.flatMap (· ++ utf8 "\n") ++ buffer.pending := by
  have ended (lines : List Text) :
      Text.join (utf8 "\n") lines ++ (if lines = [] then [] else utf8 "\n") =
        lines.flatMap (· ++ utf8 "\n") := by
    induction lines with
    | nil => rfl
    | cons line rest ih =>
      rcases rest with _ | ⟨next, more⟩
      · simp [Text.join]
      · rw [if_neg (List.cons_ne_nil next more)] at ih
        rw [List.flatMap_cons, ← ih]
        simp [Text.join]
  rw [text, ended]

theorem text_add (buffer : PrintBuffer) (printed : Printed) :
    (buffer.add printed).text = buffer.text ++ printed.bytes := by
  cases printed <;> simp [text_eq, add, Printed.bytes]

end PrintBuffer

namespace Logger

variable {α : Type} (shown : α → Text)

theorem formatted_eq_joined : formatted shown = joined shown := by
  funext values
  cases values <;> rfl

theorem writer_concat (calls : List (LogCall α)) (call : LogCall α) :
    writer shown (calls ++ [call]) =
      writer shown calls ++ (call.printed (formatted shown)).bytes := by
  rw [writer, List.foldl_concat]
  rfl

theorem buffered_concat (calls : List (LogCall α)) (call : LogCall α) :
    buffered shown ((calls ++ [call]).map .call) =
      (buffered shown (calls.map .call)).add (call.printed (formatted shown)) := by
  rw [buffered, List.map_append, List.map_singleton, List.foldl_concat]
  rfl

/-- The calls since the last that ended a line. -/
def sinceLine (calls : List (LogCall α)) : List (LogCall α) :=
  calls.rtakeWhile fun call => !call.endsLine

theorem text_buffered (calls : List (LogCall α)) :
    (buffered shown (calls.map .call)).text = writer shown calls := by
  induction calls using List.reverseRecOn with
  | nil => rfl
  | append_singleton calls call ih =>
    rw [buffered_concat, writer_concat, PrintBuffer.text_add, ih]

theorem pending_buffered (calls : List (LogCall α)) :
    (buffered shown (calls.map .call)).pending = writer shown (sinceLine calls) := by
  induction calls using List.reverseRecOn with
  | nil => rfl
  | append_singleton calls call ih =>
    rw [buffered_concat]
    cases call with
    | log values =>
      rw [sinceLine, List.rtakeWhile_concat_pos _ _ _ rfl, writer_concat]
      exact congrArg (· ++ formatted shown values) ih
    | logLine values =>
      rw [sinceLine, List.rtakeWhile_concat_neg _ _ _ (by simp [LogCall.endsLine])]
      rfl

theorem length_lines_buffered (calls : List (LogCall α)) :
    (buffered shown (calls.map .call)).lines.length = calls.countP LogCall.endsLine := by
  induction calls using List.reverseRecOn with
  | nil => rfl
  | append_singleton calls call ih =>
    rw [buffered_concat, List.countP_append, ← ih]
    cases call <;> simp [LogCall.printed, PrintBuffer.add, LogCall.endsLine]

theorem buffered_reset (earlier requests : List (BufferRequest α)) :
    buffered shown (earlier ++ .reset :: requests) = buffered shown requests := by
  rw [buffered, List.foldl_append]
  rfl

/-- All loggers keep the same text, whatever the values and the calls. The lines of a buffer are as
many as the calls that end one, and make up the text with what was logged since the last of these. A
reset at any point leaves nothing of what was there before. -/
theorem loggers_keep_one_text (earlier : List (BufferRequest α)) (calls : List (LogCall α)) :
    let buffer := buffered shown (calls.map .call)
    buffer.text = writer shown calls ∧ buffer.text = stdout shown calls ∧
      buffer.lines.length = calls.countP LogCall.endsLine ∧
      buffer.lines.flatMap (· ++ utf8 "\n") ++ writer shown (sinceLine calls) = buffer.text ∧
      buffered shown (earlier ++ .reset :: calls.map .call) = buffer := by
  intro buffer
  have same : buffer.text = writer shown calls := text_buffered shown calls
  have streams : writer shown calls = stdout shown calls := by
    rw [writer, formatted_eq_joined, stdout]
  refine ⟨same, same.trans streams, length_lines_buffered shown calls, ?_,
    buffered_reset shown earlier _⟩
  rw [← pending_buffered]
  exact buffer.text_eq.symm

end Logger

end Scriptlet
