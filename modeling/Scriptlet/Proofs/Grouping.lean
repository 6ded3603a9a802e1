import Mathlib.Data.List.Infix
import Scriptlet.Repl.Session
/-!
Grouping. A session takes its lines one at a time, and between two of them it only has the text of the
entry that is not finished. What it comes to is told here by groups of lines: each rule takes the next
lines off, as many as an entry has, and says what they lead to. The two agree on all lines.
-/
namespace Scriptlet.Repl

/-- Whether a line outside an entry starts one. -/
def startsEntry (line : Text) : Bool :=
  !isFarewell line.trim && line.trim.head? != some 58 && line.trim != []

/-- The text of an entry of some lines. -/
def joined (group : List Text) : Text := Text.join (utf8 "\n") group

/-- The first lines of an entry, none of which finishes it. -/
structure Unfinished (group : List Text) : Prop where
  starts : ∀ line ∈ group.head?, startsEntry line = true
  goesOn : ∀ shorter, shorter ≠ [] → shorter <+: group → needsMore (joined shorter) = true

/-- The lines of an entry: the last one finishes it, and none before does. -/
structure Finished (group : List Text) : Prop where
  starts : ∀ line ∈ group.head?, startsEntry line = true
  nonempty : group ≠ []
  finished : needsMore (joined group) = false
  shortest : ∀ shorter, shorter ≠ [] → shorter <+: group → shorter ≠ group →
    needsMore (joined shorter) = true

/-- The prompt behind the lines of an entry. -/
def promptBehind (base : Text) (group : List Text) : Effect :=
  .out (if group = [] then base else continuationPrompt)

/-- The prompts before the lines of an entry. -/
def prompts (base : Text) : List Text → List Effect
  | [] => []
  | _ :: more => .out base :: more.map fun _ => .out continuationPrompt

/-- What is said at the end, with more said before it. -/
def Ended.after (shown : List Effect) (ended : Ended) : Ended :=
  { ended with effects := shown ++ ended.effects }

/-- What a session comes to on its lines, from an interpreter and a history. -/
inductive Session (bound : Nat) (base : Text) : Interpreter → List Text → List Text → Ended → Prop where
  | blank {i history line rest ended} :
      line.trim = [] → Session bound base i history rest ended →
        Session bound base i history (line :: rest) (ended.after [.out base])
  | command {i history line rest ended answer} :
      -- a colon
      line.trim.head? = some 58 → (Command.ofText line.trim).perform i = answer →
        Session bound base answer.interpreter history rest ended →
          Session bound base i history (line :: rest) (ended.after (.out base :: answer.effects))
  | entry {i history group rest ended answer} :
      Finished group → evaluate bound i (joined group) = answer → answer.halt = none →
        Session bound base answer.interpreter (history ++ [joined group]) rest ended →
          Session bound base i history (group ++ rest)
            (ended.after (prompts base group ++ answer.effects))
  | halt {i history group unread answer code} :
      Finished group → evaluate bound i (joined group) = answer → answer.halt = some code →
        Session bound base i history (group ++ unread)
          { effects := prompts base group ++ answer.effects, code
            history := history ++ [joined group] }
  | farewell {i history line unread} :
      isFarewell line.trim = true →
        Session bound base i history (line :: unread)
          { effects := [.out base, .outLine (utf8 "Goodbye!")], code := 0, history }
  | endOfInput {i history group} :
      Unfinished group →
        Session bound base i history group
          { effects := prompts base group ++ [promptBehind base group, parting], code := 0, history }

section Groups
variable {group more : List Text} {line : Text} {base : Text}

theorem unfinished_nil : Unfinished [] := by
  refine ⟨by simp, ?_⟩
  intro shorter some_ start
  exact absurd (List.prefix_nil.mp start) some_

theorem Unfinished.front (unfinished : Unfinished (group ++ more)) : Unfinished group := by
  refine ⟨?_, fun shorter some_ start => unfinished.goesOn shorter some_ (start.trans ⟨more, rfl⟩)⟩
  intro line first
  apply unfinished.starts line
  rw [List.head?_append_of_ne_nil]
  · exact first
  · rintro rfl
    cases first

theorem Unfinished.starts_concat (unfinished : Unfinished group)
    (first : group = [] → startsEntry line = true) :
    ∀ other ∈ (group ++ [line]).head?, startsEntry other = true := by
  cases group with
  | nil =>
    rintro _ ⟨⟩
    exact first rfl
  | cons => exact unfinished.starts

theorem Unfinished.concat (unfinished : Unfinished group)
    (first : group = [] → startsEntry line = true)
    (goesOn : needsMore (joined (group ++ [line])) = true) : Unfinished (group ++ [line]) := by
  refine ⟨unfinished.starts_concat first, ?_⟩
  intro shorter some_ start
  rcases List.prefix_concat_iff.mp start with rfl | before
  · exact goesOn
  · exact unfinished.goesOn shorter some_ before

theorem Unfinished.finish (unfinished : Unfinished group)
    (first : group = [] → startsEntry line = true)
    (finished : needsMore (joined (group ++ [line])) = false) : Finished (group ++ [line]) := by
  refine ⟨unfinished.starts_concat first, by simp, finished, ?_⟩
  intro shorter some_ start proper
  rcases List.prefix_concat_iff.mp start with rfl | before
  · exact absurd rfl proper
  · exact unfinished.goesOn shorter some_ before

theorem Finished.exists_concat (finished : Finished group) :
    ∃ front last, group = front ++ [last] ∧ Unfinished front ∧
      (front = [] → startsEntry last = true) := by
  obtain ⟨front, last, rfl⟩ := (List.eq_nil_or_concat' group).resolve_left finished.nonempty
  refine ⟨front, last, rfl, ⟨?_, ?_⟩, ?_⟩
  · intro line first
    apply finished.starts line
    cases front with
    | nil => cases first
    | cons => exact first
  · intro shorter some_ start
    refine finished.shortest shorter some_ (start.trans ⟨[last], rfl⟩) ?_
    rintro rfl
    exact absurd start.length_le (by simp)
  · rintro rfl
    exact finished.starts last rfl

theorem joined_concat (some_ : group ≠ []) (line : Text) :
    joined (group ++ [line]) = joined group ++ utf8 "\n" ++ line := by
  induction group with
  | nil => exact absurd rfl some_
  | cons first rest ih =>
    cases rest with
    | nil => rfl
    | cons second rest =>
      have later := ih (by simp)
      simp only [joined, List.cons_append, Text.join, List.append_assoc] at later ⊢
      rw [later]

theorem joined_ne_nil (unfinished : Unfinished group) (some_ : group ≠ []) : joined group ≠ [] := by
  cases group with
  | nil => exact absurd rfl some_
  | cons first rest =>
    have visible : first ≠ [] := by
      rintro rfl
      have starts := unfinished.starts [] rfl
      simp [startsEntry, Text.trim, Text.pieces] at starts
    cases rest <;> simp [joined, Text.join, visible]

theorem prompts_concat (base : Text) (group : List Text) (line : Text) :
    prompts base (group ++ [line]) = prompts base group ++ [promptBehind base group] := by
  cases group with
  | nil => rfl
  | cons => simp [prompts, promptBehind]

end Groups

section Lines
variable {bound : Nat} {base : Text} {i : Interpreter} {history group : List Text} {line : Text}

/-- The state of a session in an entry of which some lines have been taken. -/
def gathered (i : Interpreter) (history group : List Text) : State :=
  { interpreter := i, history, entry := joined group }

theorem prompt_gathered (unfinished : Unfinished group) :
    .out ((gathered i history group).prompt base) = promptBehind base group := by
  by_cases none_ : group = []
  · subst none_
    rfl
  · have some_ := joined_ne_nil unfinished none_
    simp [gathered, State.prompt, promptBehind, none_, some_]

theorem entry_gathered (unfinished : Unfinished group) (line : Text) :
    (let s := gathered i history group
      if s.entry = [] then line else s.entry ++ utf8 "\n" ++ line) = joined (group ++ [line]) := by
  by_cases none_ : group = []
  · subst none_
    rfl
  · have some_ := joined_ne_nil unfinished none_
    simp [gathered, some_, joined_concat none_]

theorem take_gathered (bound : Nat) (i : Interpreter) (history : List Text)
    (unfinished : Unfinished group)
    (first : group = [] → startsEntry line = true) :
    (gathered i history group).take bound line =
      if needsMore (joined (group ++ [line])) then { state := gathered i history (group ++ [line]) }
      else
        let answer := evaluate bound i (joined (group ++ [line]))
        { effects := answer.effects
          state := gathered answer.interpreter (history ++ [joined (group ++ [line])]) []
          ending := answer.halt } := by
  have added : (gathered i history group).take bound line =
      (gathered i history group).addLine bound line := by
    by_cases none_ : group = []
    · have starts := first none_
      simp only [startsEntry, Bool.and_eq_true, Bool.not_eq_true', bne_iff_ne] at starts
      obtain ⟨⟨noFarewell, noCommand⟩, visible⟩ := starts
      simp [State.take, noFarewell, noCommand, visible]
    · have some_ : (gathered i history group).entry ≠ [] := joined_ne_nil unfinished none_
      rw [State.take, if_neg some_]
  rw [added, State.addLine, entry_gathered unfinished]
  rfl

theorem converse_of_goesOn {s : State} {rest : List Text}
    (goesOn : (s.take bound line).ending = none) :
    converse bound base s (line :: rest) =
      (converse bound base (s.take bound line).state rest).after
        (.out (s.prompt base) :: (s.take bound line).effects) := by
  rw [converse, goesOn]
  rfl

theorem converse_of_ending {s : State} {rest : List Text} {code : Int64}
    (ending : (s.take bound line).ending = some code) :
    converse bound base s (line :: rest) =
      { effects := .out (s.prompt base) :: (s.take bound line).effects, code
        history := (s.take bound line).state.history } := by
  rw [converse, ending]

theorem Ended.after_after (ended : Ended) (first second : List Effect) :
    (ended.after second).after first = ended.after (first ++ second) := by
  simp [Ended.after]

theorem converse_gathered (bound : Nat) (base : Text) (i : Interpreter) (history : List Text)
    {more : List Text} (unfinished : Unfinished (group ++ more)) (rest : List Text) :
    (converse bound base (gathered i history group) (more ++ rest)).after (prompts base group) =
      (converse bound base (gathered i history (group ++ more)) rest).after
        (prompts base (group ++ more)) := by
  induction more generalizing group with
  | nil => simp
  | cons line more ih =>
    have front := unfinished.front
    have first : group = [] → startsEntry line = true := by
      rintro rfl
      exact unfinished.starts line rfl
    rw [List.append_cons] at unfinished ⊢
    have goesOn := unfinished.front.goesOn (group ++ [line]) (by simp) (List.prefix_refl _)
    have taken := take_gathered bound i history front first
    rw [if_pos goesOn] at taken
    rw [← ih unfinished, List.cons_append, converse_of_goesOn (by rw [taken]), taken,
      prompt_gathered front, Ended.after_after, prompts_concat]

theorem converse_unfinished (bound : Nat) (base : Text) (i : Interpreter) (history : List Text)
    (unfinished : Unfinished group) (rest : List Text) :
    converse bound base (gathered i history []) (group ++ rest) =
      (converse bound base (gathered i history group) rest).after (prompts base group) := by
  have whole : Unfinished ([] ++ group) := unfinished
  exact converse_gathered bound base i history whole rest

theorem converse_nil (unfinished : Unfinished group) :
    converse bound base (gathered i history group) [] =
      { effects := [promptBehind base group, parting], code := 0, history } := by
  rw [converse, prompt_gathered unfinished]
  rfl

theorem converse_entry (finished : Finished group) (rest : List Text) :
    let answer := evaluate bound i (joined group)
    converse bound base (gathered i history []) (group ++ rest) =
      match answer.halt with
      | some code =>
        { effects := prompts base group ++ answer.effects, code
          history := history ++ [joined group] }
      | none =>
        (converse bound base
          (gathered answer.interpreter (history ++ [joined group]) []) rest).after
            (prompts base group ++ answer.effects) := by
  obtain ⟨front, last, rfl, unfinished, first⟩ := finished.exists_concat
  have gathering := converse_unfinished bound base i history unfinished ([last] ++ rest)
  have taken := take_gathered bound i history unfinished first
  rw [if_neg (by simp [finished.finished])] at taken
  rw [List.append_assoc, gathering, List.cons_append, List.nil_append, prompts_concat]
  intro answer
  rcases halt : answer.halt with _ | code
  · rw [converse_of_goesOn (by rw [taken]; exact halt), taken, prompt_gathered unfinished,
      Ended.after_after]
    simp only [List.append_assoc, List.cons_append, List.nil_append]
    rfl
  · rw [converse_of_ending (by rw [taken]; exact halt), taken, prompt_gathered unfinished]
    simp only [Ended.after, List.append_assoc, List.cons_append, List.nil_append]
    rfl

/-! Outside an entry a line can also be blank, be a command, or end the session. -/

theorem take_blank (blank : line.trim = []) :
    (gathered i history []).take bound line = { state := gathered i history [] } := by
  have noFarewell : isFarewell [] = false := by decide
  simp [State.take, gathered, joined, Text.join, blank, noFarewell]

theorem take_command (colon : line.trim.head? = some 58) :
    (gathered i history []).take bound line =
      let answer := (Command.ofText line.trim).perform i
      { effects := answer.effects, state := gathered answer.interpreter history [] } := by
  have noFarewell : isFarewell line.trim = false := by
    rw [← Bool.not_eq_true]
    intro farewell
    simp only [isFarewell, Bool.or_eq_true, beq_iff_eq] at farewell
    rcases farewell with leaves | leaves <;> rw [leaves] at colon <;> revert colon <;> decide
  simp [State.take, gathered, joined, Text.join, colon, noFarewell]

theorem take_farewell (farewell : isFarewell line.trim = true) :
    (gathered i history []).take bound line =
      { effects := [.outLine (utf8 "Goodbye!")], state := gathered i history [], ending := some 0 } := by
  simp [State.take, gathered, joined, Text.join, farewell]

theorem Session.converse_eq {given : List Text} {ended : Ended}
    (session : Session bound base i history given ended) :
    converse bound base (gathered i history []) given = ended := by
  induction session with
  | blank blank _ ih =>
    rw [converse_of_goesOn (by rw [take_blank blank]), take_blank blank, ih]
    rfl
  | command colon performed _ ih =>
    rw [converse_of_goesOn (by rw [take_command colon]), take_command colon, performed, ih]
    rfl
  | entry finished evaluated goesOn _ ih => simp only [converse_entry finished, evaluated, goesOn, ih]
  | halt finished evaluated halted => simp only [converse_entry finished, evaluated, halted]
  | farewell farewell =>
    rw [converse_of_ending (by rw [take_farewell farewell]), take_farewell farewell]
    rfl
  | @endOfInput i history group unfinished =>
    have gathering := converse_unfinished bound base i history unfinished []
    rw [List.append_nil, converse_nil unfinished] at gathering
    exact gathering

theorem exists_session (bound : Nat) (base : Text) (i : Interpreter) (history : List Text)
    {group : List Text} (unfinished : Unfinished group) (given : List Text) :
    ∃ ended, Session bound base i history (group ++ given) ended := by
  induction given generalizing i history group with
  | nil =>
    rw [List.append_nil]
    exact ⟨_, .endOfInput unfinished⟩
  | cons line rest ih =>
    by_cases other : group = [] ∧ startsEntry line = false
    · obtain ⟨rfl, special⟩ := other
      by_cases farewell : isFarewell line.trim = true
      · exact ⟨_, .farewell farewell⟩
      by_cases colon : line.trim.head? = some 58
      · obtain ⟨ended, session⟩ :=
          ih ((Command.ofText line.trim).perform i).interpreter history unfinished_nil
        exact ⟨_, .command colon rfl session⟩
      · have blank : line.trim = [] := by simpa [startsEntry, farewell, colon] using special
        obtain ⟨ended, session⟩ := ih i history unfinished_nil
        exact ⟨_, .blank blank session⟩
    · have first : group = [] → startsEntry line = true := by simpa using other
      rw [List.append_cons]
      cases more : needsMore (joined (group ++ [line])) with
      | true => exact ih i history (unfinished.concat first more)
      | false =>
        have finished := unfinished.finish first more
        cases halt : (evaluate bound i (joined (group ++ [line]))).halt with
        | some code => exact ⟨_, .halt finished rfl halt⟩
        | none =>
          obtain ⟨ended, session⟩ := ih (evaluate bound i (joined (group ++ [line]))).interpreter
            (history ++ [joined (group ++ [line])]) unfinished_nil
          exact ⟨_, .entry finished rfl halt session⟩

end Lines

end Scriptlet.Repl
