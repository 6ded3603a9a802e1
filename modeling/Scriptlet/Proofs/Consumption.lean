import Scriptlet.Proofs.Reading
/-!
What parsers read. A parser that starts before the end of input either fails or takes tokens off the
front of those that are left; the tokens taken and the result are as stated. Each way to put parsers
together has its rule.
-/
namespace Scriptlet

namespace Cursor

variable {cursor : Cursor}

/-- The current token and those after it. -/
def upcoming (cursor : Cursor) : List Token := cursor.current :: cursor.later

/-- The last token is the end of input. -/
def Closed (cursor : Cursor) : Prop := ∃ last ∈ cursor.upcoming.getLast?, last.kind = .endOfInput

theorem remaining_eq (cursor : Cursor) : cursor.remaining = cursor.upcoming.length := by
  rw [remaining, cursor.counted, upcoming, List.length_cons]

theorem upcoming_advance {token next : Token} {rest : List Token}
    (ahead : cursor.upcoming = token :: next :: rest) :
    cursor.advance.upcoming = next :: rest := by
  injection ahead with _ later
  unfold advance
  split
  · rename_i none
    rw [none] at later
    cases later
  · rename_i found
    rw [found] at later
    cases later
    rfl

theorem Closed.of_upcoming {after : Cursor} {taken : List Token} (closed : cursor.Closed)
    (whole : cursor.upcoming = taken ++ after.upcoming) : after.Closed := by
  obtain ⟨last, found, kind⟩ := closed
  have some_ : after.upcoming ≠ [] := by simp [upcoming]
  rw [whole, List.getLast?_append, List.getLast?_eq_some_getLast some_, Option.some_or] at found
  exact ⟨last, by rwa [List.getLast?_eq_some_getLast some_], kind⟩

theorem Closed.upcoming_advance (closed : cursor.Closed)
    (kind : cursor.current.kind ≠ .endOfInput) :
    cursor.upcoming = [cursor.current] ++ cursor.advance.upcoming := by
  rcases ahead : cursor.later with _ | ⟨next, rest⟩
  · obtain ⟨last, found, ended⟩ := closed
    obtain rfl : cursor.current = last := by simpa [upcoming, ahead] using found
    exact absurd ended kind
  · have whole : cursor.upcoming = cursor.current :: next :: rest := by rw [upcoming, ahead]
    rw [Cursor.upcoming_advance whole, whole]
    rfl

theorem advance_of_last (ahead : cursor.later = []) : cursor.advance = cursor := by
  unfold advance
  split
  · rfl
  · rename_i found
    rw [ahead] at found
    cases found

end Cursor

namespace Parse

variable {α β σ : Type} {requires : Token → Prop}

/-- Where the current token is as required, whatever the parser returns, the tokens that it takes and
the result are as stated. -/
def Consumes (requires : Token → Prop) (parser : Parse α) (ensures : List Token → α → Prop) : Prop :=
  ∀ cursor, cursor.Closed → requires cursor.current → ∀ value after,
    parser.run cursor = .ok (value, after) →
      ∃ taken, cursor.upcoming = taken ++ after.upcoming ∧ ensures taken value

theorem consumes_pure {ensures : List Token → α → Prop} {value : α} (holds : ensures [] value) :
    Consumes requires (pure value) ensures := by
  rintro cursor _ _ _ _ ⟨⟩
  exact ⟨[], rfl, holds⟩

theorem consumes_throw {ensures : List Token → α → Prop} (fault : Diagnostic) :
    Consumes requires (throw fault : Parse α) ensures := by
  rintro cursor _ _ _ _ ⟨⟩

theorem consumes_failAt {ensures : List Token → α → Prop} (token : Token) (fault : Diagnostic) :
    Consumes requires (failAt token fault : Parse α) ensures :=
  consumes_throw _

theorem Consumes.where_ {parser : Parse α} {ensures : List Token → α → Prop} {needed : Token → Prop}
    (consumes : Consumes needed parser ensures) (met : ∀ token, requires token → needed token) :
    Consumes requires parser ensures :=
  fun cursor closed current => consumes cursor closed (met _ current)

theorem Consumes.on {parser : Parse α} {ensures : List Token → α → Prop}
    (consumes : Consumes requires parser ensures) {token : Token} (met : requires token) :
    Consumes (· = token) parser ensures := by
  apply consumes.where_
  rintro _ rfl
  exact met

theorem Consumes.imp {parser : Parse α} {ensures finally_ : List Token → α → Prop}
    (consumes : Consumes requires parser ensures)
    (more : ∀ taken value, ensures taken value → finally_ taken value) :
    Consumes requires parser finally_ := by
  intro cursor closed met value after ran
  obtain ⟨taken, whole, holds⟩ := consumes cursor closed met value after ran
  exact ⟨taken, whole, more taken value holds⟩

theorem Consumes.headed {parser : Parse α} {ensures : List Token → α → Prop}
    (consumes : Consumes requires parser ensures) :
    Consumes requires parser fun taken value =>
      ensures taken value ∧ (taken ≠ [] → ∃ token ∈ taken.head?, requires token) := by
  intro cursor closed met value after ran
  obtain ⟨taken, whole, holds⟩ := consumes cursor closed met value after ran
  refine ⟨taken, whole, holds, ?_⟩
  intro some_
  cases taken with
  | nil => exact absurd rfl some_
  | cons token more =>
    injection whole with head
    exact ⟨token, rfl, head ▸ met⟩

theorem Consumes.bind {parser : Parse α} {next : α → Parse β} {ensures : List Token → α → Prop}
    {finally_ : List Token → β → Prop} (first : Consumes requires parser ensures)
    (second : ∀ taken value, ensures taken value →
      Consumes (fun _ => True) (next value) fun more => finally_ (taken ++ more)) :
    Consumes requires (parser >>= next) finally_ := by
  intro cursor closed met value last ran
  obtain ⟨middle, between, head, rest⟩ := run_bind_iff.mp ran
  obtain ⟨taken, whole, holds⟩ := first cursor closed met middle between head
  obtain ⟨more, left, finished⟩ :=
    second taken middle holds between (closed.of_upcoming whole) trivial value last rest
  exact ⟨taken ++ more, by rw [whole, left, List.append_assoc], finished⟩

theorem consumes_peek {next : Token → Parse β} {ensures : List Token → β → Prop}
    (rest : ∀ token, requires token → Consumes (· = token) (next token) ensures) :
    Consumes requires (peek >>= next) ensures := by
  intro cursor closed met value last ran
  exact rest cursor.current met cursor closed rfl value last ran

theorem consumes_isAt {kind : Kind} {next : Bool → Parse β} {ensures : List Token → β → Prop}
    (there : Consumes (fun token => requires token ∧ token.kind = kind) (next true) ensures)
    (elsewhere : Consumes (fun token => requires token ∧ token.kind ≠ kind) (next false) ensures) :
    Consumes requires (isAt kind >>= next) ensures := by
  intro cursor closed met value last ran
  change (next (cursor.isAt kind)).run cursor = .ok (value, last) at ran
  by_cases same : cursor.current.kind = kind
  · rw [show cursor.isAt kind = true from decide_eq_true same] at ran
    exact there cursor closed ⟨met, same⟩ value last ran
  · rw [show cursor.isAt kind = false from decide_eq_false same] at ran
    exact elsewhere cursor closed ⟨met, same⟩ value last ran

theorem consumes_get {next : Cursor → Parse β} {ensures : List Token → β → Prop}
    (rest : ∀ cursor, Consumes requires (next cursor) ensures) :
    Consumes requires (get >>= next) ensures := by
  intro cursor closed met value last ran
  exact rest cursor cursor closed met value last ran

theorem consumes_next :
    Consumes requires next fun taken token =>
      requires token ∧ (token.kind ≠ .endOfInput → taken = [token]) := by
  rintro cursor closed met _ _ ⟨⟩
  by_cases kind : cursor.current.kind = .endOfInput
  · rcases ahead : cursor.later with _ | ⟨next, rest⟩
    · exact ⟨[], by rw [Cursor.advance_of_last ahead, List.nil_append], met, absurd kind⟩
    · have whole : cursor.upcoming = cursor.current :: next :: rest := by
        rw [Cursor.upcoming, ahead]
      exact ⟨[cursor.current], by rw [Cursor.upcoming_advance whole, whole]; rfl, met, fun _ => rfl⟩
  · exact ⟨[cursor.current], closed.upcoming_advance kind, met, fun _ => rfl⟩

theorem consumes_next_of (known : ∀ token, requires token → token.kind ≠ .endOfInput) :
    Consumes requires next fun taken token => taken = [token] ∧ requires token := by
  refine consumes_next.imp ?_
  rintro taken token ⟨met, whole⟩
  exact ⟨whole (known token met), met⟩

theorem consumes_expect {kind : Kind} (some_ : kind ≠ .endOfInput) (hint : Text) :
    Consumes requires (expect kind hint) fun taken token =>
      taken = [token] ∧ token.kind = kind ∧ requires token := by
  intro cursor closed met value last ran
  obtain ⟨_, _, ⟨⟩, read⟩ := run_bind_iff.mp ran
  split at read
  · rename_i expected
    cases read
    have same := Cursor.kind_of_expectation expected
    exact ⟨[cursor.current], closed.upcoming_advance (same ▸ some_), rfl, same, met⟩
  · cases read

theorem consumes_collect {starts : Kind → Bool} {item : Parse α} {ensures : List Token → α → Prop}
    (each : Consumes (fun token => starts token.kind = true) item ensures) (bound : Nat) :
    Consumes requires (collect starts item bound) fun taken items =>
      ∃ parts : List (List Token × α), (∀ part ∈ parts, ensures part.1 part.2) ∧
        taken = parts.flatMap Prod.fst ∧ items = parts.map Prod.snd := by
  induction bound generalizing requires with
  | zero => exact consumes_pure ⟨[], by simp, rfl, rfl⟩
  | succ bound ih =>
    apply consumes_peek
    intro token _
    split
    · rename_i start
      refine (each.on start).bind ?_
      intro taken first holds
      apply ih.bind
      rintro more rest ⟨parts, all, rfl, rfl⟩
      refine consumes_pure ⟨(taken, first) :: parts, ?_, by simp, rfl⟩
      intro part member
      rcases List.mem_cons.mp member with rfl | later
      · exact holds
      · exact all part later
    · exact consumes_pure ⟨[], by simp, rfl, rfl⟩

theorem consumes_collect_none {starts : Kind → Bool} {item : Parse α} (bound : Nat)
    (stops : ∀ token, requires token → starts token.kind = false) :
    Consumes requires (collect starts item bound) fun taken items => taken = [] ∧ items = [] := by
  cases bound with
  | zero => exact consumes_pure ⟨rfl, rfl⟩
  | succ bound =>
    apply consumes_peek
    intro token met
    rw [stops token met]
    exact consumes_pure ⟨rfl, rfl⟩

theorem consumes_many {starts : Kind → Bool} {item : Parse α} {ensures : List Token → α → Prop}
    (each : Consumes (fun token => starts token.kind = true) item ensures) :
    Consumes requires (many starts item) fun taken items =>
      ∃ parts : List (List Token × α), (∀ part ∈ parts, ensures part.1 part.2) ∧
        taken = parts.flatMap Prod.fst ∧ items = parts.map Prod.snd :=
  consumes_get fun cursor => consumes_collect each cursor.remaining

/-- Each step takes further tokens, behind those that the state was read from. -/
theorem consumes_extend {starts : Token → Bool} {step : σ → Parse σ}
    {ensures : List Token → σ → Prop}
    (each : ∀ before state, ensures before state →
      Consumes (fun token => starts token = true) (step state) fun taken => ensures (before ++ taken))
    (bound : Nat) {before : List Token} {state : σ} (holds : ensures before state) :
    Consumes requires (extend starts step bound state) fun taken => ensures (before ++ taken) := by
  induction bound generalizing requires before state with
  | zero => exact consumes_pure (by simpa using holds)
  | succ bound ih =>
    apply consumes_peek
    intro token _
    split
    · rename_i start
      refine ((each before state holds).on start).bind ?_
      intro taken further kept
      simp only [← List.append_assoc]
      exact ih kept
    · exact consumes_pure (by simpa using holds)

theorem consumes_chain {starts : Token → Bool} {step : σ → Parse σ} (ensures : List Token → σ → Prop)
    (each : ∀ before state, ensures before state →
      Consumes (fun token => starts token = true) (step state) fun taken => ensures (before ++ taken))
    {before : List Token} {state : σ} (holds : ensures before state) :
    Consumes requires (chain starts step state) fun taken => ensures (before ++ taken) :=
  consumes_get fun cursor => consumes_extend each cursor.remaining holds

end Parse

end Scriptlet
