import Scriptlet.Proofs.Spelling
/-!
What parsers yield. A parser that starts on tokens spelled as their kinds demand, the first of them
as the parser requires, either fails or yields a result that is as stated and leaves such tokens
behind. Each way to put parsers together has its rule. At the end stands what it means for a whole source
to be parsed or refused.
-/
namespace Scriptlet.Parse

variable {α β σ : Type} {requires : Token → Prop}

/-- Whatever the parser yields where the current token is as required is as stated. -/
def Yields (requires : Token → Prop) (parser : Parse α) (ensures : α → Prop) : Prop :=
  ∀ cursor, cursor.Spelled → requires cursor.current →
    ∀ value after, parser.run cursor = .ok (value, after) → ensures value ∧ after.Spelled

theorem run_bind_iff {parser : Parse α} {next : α → Parse β} {cursor last : Cursor} {value : β} :
    (parser >>= next).run cursor = .ok (value, last) ↔
      ∃ first between, parser.run cursor = .ok (first, between) ∧
        (next first).run between = .ok (value, last) := by
  rw [StateT.run_bind]
  rcases parser.run cursor with fault | ⟨first, between⟩
  · constructor
    · rintro ⟨⟩
    · rintro ⟨_, _, ⟨⟩, _⟩
  · constructor
    · intro rest
      exact ⟨first, between, rfl, rest⟩
    · rintro ⟨_, _, ⟨⟩, rest⟩
      exact rest

theorem yields_pure {ensures : α → Prop} {value : α} (holds : ensures value) :
    Yields requires (pure value) ensures := by
  rintro cursor spelled _ _ _ ⟨⟩
  exact ⟨holds, spelled⟩

theorem yields_throw {ensures : α → Prop} (fault : Diagnostic) :
    Yields requires (throw fault : Parse α) ensures := by
  rintro cursor spelled _ _ _ ⟨⟩

theorem yields_failAt {ensures : α → Prop} (token : Token) (fault : Diagnostic) :
    Yields requires (failAt token fault : Parse α) ensures :=
  yields_throw _

theorem Yields.where_ {parser : Parse α} {ensures : α → Prop} {needed : Token → Prop}
    (yields : Yields needed parser ensures) (met : ∀ token, requires token → needed token) :
    Yields requires parser ensures :=
  fun cursor spelled current => yields cursor spelled (met _ current)

theorem Yields.on {parser : Parse α} {ensures : α → Prop} (yields : Yields requires parser ensures)
    {token : Token} (met : requires token) : Yields (· = token) parser ensures := by
  apply yields.where_
  rintro _ rfl
  exact met

theorem Yields.bind {parser : Parse α} {next : α → Parse β} {ensures : α → Prop}
    {finally_ : β → Prop} (first : Yields requires parser ensures)
    (second : ∀ value, ensures value → Yields (fun _ => True) (next value) finally_) :
    Yields requires (parser >>= next) finally_ := by
  intro cursor spelled met value last ran
  obtain ⟨middle, between, head, rest⟩ := run_bind_iff.mp ran
  obtain ⟨holds, left⟩ := first cursor spelled met middle between head
  exact second middle holds between left trivial value last rest

theorem yields_peek {next : Token → Parse β} {ensures : β → Prop}
    (rest : ∀ token, token.Spelled → requires token → Yields (· = token) (next token) ensures) :
    Yields requires (peek >>= next) ensures := by
  intro cursor spelled met value last ran
  exact rest cursor.current spelled.current met cursor spelled rfl value last ran

theorem yields_isAt {kind : Kind} {next : Bool → Parse β} {ensures : β → Prop}
    (there : Yields (fun token => requires token ∧ token.kind = kind) (next true) ensures)
    (elsewhere : Yields (fun token => requires token ∧ token.kind ≠ kind) (next false) ensures) :
    Yields requires (isAt kind >>= next) ensures := by
  intro cursor spelled met value last ran
  change (next (cursor.isAt kind)).run cursor = .ok (value, last) at ran
  by_cases same : cursor.current.kind = kind
  · rw [show cursor.isAt kind = true from decide_eq_true same] at ran
    exact there cursor spelled ⟨met, same⟩ value last ran
  · rw [show cursor.isAt kind = false from decide_eq_false same] at ran
    exact elsewhere cursor spelled ⟨met, same⟩ value last ran

theorem yields_get {next : Cursor → Parse β} {ensures : β → Prop}
    (rest : ∀ cursor, Yields requires (next cursor) ensures) :
    Yields requires (get >>= next) ensures := by
  intro cursor spelled met value last ran
  exact rest cursor cursor spelled met value last ran

/-- The token that is read is spelled as its kind demands, and as required. -/
theorem yields_next : Yields requires next fun token => token.Spelled ∧ requires token := by
  rintro cursor spelled met _ _ ⟨⟩
  exact ⟨⟨spelled.current, met⟩, spelled.advance⟩

theorem yields_expect (kind : Kind) (hint : Text) :
    Yields requires (expect kind hint) fun token => token.Spelled ∧ token.kind = kind := by
  intro cursor spelled _ value last ran
  obtain ⟨_, _, ⟨⟩, read⟩ := run_bind_iff.mp ran
  split at read
  · rename_i expected
    cases read
    exact ⟨⟨spelled.current, Cursor.kind_of_expectation expected⟩, spelled.advance⟩
  · cases read

theorem yields_collect {starts : Kind → Bool} {item : Parse α} {ensures : α → Prop}
    (each : Yields (fun token => starts token.kind = true) item ensures) (bound : Nat) :
    Yields requires (collect starts item bound) fun items => ∀ value ∈ items, ensures value := by
  -- nothing is known of the current token behind an item, so what is required of it stays open
  induction bound generalizing requires with
  | zero => exact yields_pure (by simp)
  | succ bound ih =>
    apply yields_peek
    intro token _ _
    split
    · rename_i start
      refine (each.on start).bind ?_
      intro first holds
      apply ih.bind
      intro rest all
      apply yields_pure
      intro value member
      rcases List.mem_cons.mp member with rfl | later
      · exact holds
      · exact all value later
    · exact yields_pure (by simp)

theorem yields_many {starts : Kind → Bool} {item : Parse α} {ensures : α → Prop}
    (each : Yields (fun token => starts token.kind = true) item ensures) :
    Yields requires (many starts item) fun items => ∀ value ∈ items, ensures value :=
  yields_get fun cursor => yields_collect each cursor.remaining

theorem yields_extend {starts : Token → Bool} {step : σ → Parse σ} {ensures : σ → Prop}
    (each : ∀ state, ensures state → Yields (fun token => starts token = true) (step state) ensures)
    (bound : Nat) {state : σ} (holds : ensures state) :
    Yields requires (extend starts step bound state) ensures := by
  induction bound generalizing requires state with
  | zero => exact yields_pure holds
  | succ bound ih =>
    apply yields_peek
    intro token _ _
    split
    · rename_i start
      refine ((each state holds).on start).bind ?_
      intro further kept
      exact ih kept
    · exact yields_pure holds

theorem yields_chain {starts : Token → Bool} {step : σ → Parse σ} {ensures : σ → Prop}
    (each : ∀ state, ensures state → Yields (fun token => starts token = true) (step state) ensures)
    {state : σ} (holds : ensures state) : Yields requires (chain starts step state) ensures :=
  yields_get fun cursor => yields_extend each cursor.remaining holds

end Scriptlet.Parse

namespace Scriptlet.Parser

variable {keywords : Keywords} {source : Text} {program : Program} {fault : Diagnostic}

/-- A source is parsed if it has tokens and the grammar runs over them. -/
theorem parseFresh_eq_ok_iff :
    parseFresh keywords source = .ok program ↔
      ∃ tokens after, scan keywords source = .ok tokens ∧
        Grammar.program.run (Cursor.ofTokens tokens) = .ok (program, after) := by
  rw [parseFresh]
  rcases scan keywords source with other | tokens
  · constructor
    · rintro ⟨⟩
    · rintro ⟨_, _, ⟨⟩, _⟩
  · change Grammar.parseAt (Cursor.ofTokens tokens) = .ok program ↔ _
    rw [Grammar.parseAt]
    constructor
    · intro parsed
      rcases ran : Grammar.program.run (Cursor.ofTokens tokens) with other | ⟨read, after⟩
      · rw [ran] at parsed
        cases parsed
      · rw [ran] at parsed
        cases parsed
        exact ⟨tokens, after, rfl, ran⟩
    · rintro ⟨_, after, ⟨⟩, ran⟩
      rw [ran]
      rfl

/-- A source is refused if it cannot be scanned or if the grammar refuses its tokens. -/
theorem parseFresh_eq_error_iff :
    parseFresh keywords source = .error fault ↔
      scan keywords source = .error fault ∨
        ∃ tokens, scan keywords source = .ok tokens ∧
          Grammar.program.run (Cursor.ofTokens tokens) = .error fault := by
  rw [parseFresh]
  rcases scan keywords source with other | tokens
  · constructor
    · rintro ⟨⟩
      exact .inl rfl
    · rintro (⟨⟨⟩⟩ | ⟨_, ⟨⟩, _⟩)
      rfl
  · change Grammar.parseAt (Cursor.ofTokens tokens) = .error fault ↔ _
    rw [Grammar.parseAt]
    constructor
    · intro refused
      rcases ran : Grammar.program.run (Cursor.ofTokens tokens) with other | read
      · rw [ran] at refused
        cases refused
        exact .inr ⟨tokens, rfl, ran⟩
      · rw [ran] at refused
        cases refused
    · rintro (⟨⟨⟩⟩ | ⟨_, ⟨⟩, ran⟩)
      rw [ran]
      rfl

end Scriptlet.Parser
