import Mathlib.Logic.Function.Iterate
import Scriptlet.Proofs.Coverage
/-!
How parsers move. Whatever a parser does, it does it in finitely many steps: it looks at the cursor or
moves it one token on. So the cursor never goes back and never leaves its sequence. Parsers built from
others keep pace with parsers built the same way from other parts, as long as the parts are used on
fewer tokens, and they leave tokens behind them.
-/
namespace Scriptlet

namespace Cursor

variable {c : Cursor}

/-- How many tokens are before the current one. -/
def position (c : Cursor) : Nat := c.passed.length

/-- The index of a sequence that is nearest to any number. -/
def clamp (size : Nat) (index : Int) : Nat := (min (max index 0) (size - 1)).toNat

/-- The cursor stands inside a sequence. What it shows, at any offset, is what the sequence holds at the
nearest index. -/
structure Within (tokens : List Token) (c : Cursor) : Prop where
  inside : c.position < tokens.length
  current : tokens[c.position]? = some c.current
  offset : ∀ offset : Int,
    tokens[clamp tokens.length (c.position + offset)]? = some (c.peekAt offset)

theorem position_add_remaining (c : Cursor) : c.position + c.remaining = c.tokens.length := by
  simp [position, tokens, remaining, c.counted]

theorem getElem?_min {tokens : List Token} (some_ : tokens ≠ []) (fallback : Token) (index : Nat) :
    tokens[min index (tokens.length - 1)]? =
      some (tokens.getD index (tokens.getLastD fallback)) := by
  have size := List.length_pos_iff.mpr some_
  rw [List.getD_eq_getElem?_getD]
  by_cases inside : index < tokens.length
  · rw [Nat.min_eq_left (by omega), List.getElem?_eq_getElem inside, Option.getD_some]
  · rw [Nat.min_eq_right (by omega), ← List.getLast?_eq_getElem?,
      List.getElem?_eq_none (Nat.le_of_not_lt inside), Option.getD_none, List.getLastD_eq_getLast?,
      List.getLast?_eq_some_getLast some_, Option.getD_some]

theorem offset_ahead (c : Cursor) (ahead : Nat) :
    c.tokens[clamp c.tokens.length (c.position + (ahead : Int))]? = some (c.peekAt ahead) := by
  have index : clamp c.tokens.length (c.position + (ahead : Int)) =
      c.passed.length + min ahead c.later.length := by
    simp only [clamp, tokens, position, List.length_append, List.length_reverse, List.length_cons]
    omega
  rw [index, tokens, List.getElem?_append_right (by simp), List.length_reverse,
    Nat.add_sub_cancel_left]
  exact getElem?_min (List.cons_ne_nil _ _) c.current ahead

theorem offset_back (c : Cursor) (back : Nat) :
    c.tokens[clamp c.tokens.length (c.position + Int.negSucc back)]? =
      some (c.peekAt (.negSucc back)) := by
  have index : clamp c.tokens.length (c.position + Int.negSucc back) =
      c.passed.length - 1 - back := by
    simp only [clamp, tokens, position, List.length_append, List.length_reverse, List.length_cons]
    omega
  rw [index, tokens]
  rcases before : c.passed with _ | ⟨nearest, others⟩
  · -- no token is before the first, which is shown instead
    simp [peekAt, before]
  · have some_ : c.passed ≠ [] := by simp [before]
    have size := List.length_pos_iff.mpr some_
    rw [← before, List.getElem?_append_left (by rw [List.length_reverse]; omega),
      List.getElem?_reverse (by omega)]
    have same : c.passed.length - 1 - (c.passed.length - 1 - back) =
        min back (c.passed.length - 1) := by omega
    rw [same]
    exact getElem?_min some_ c.current back

theorem within_tokens (c : Cursor) : c.Within c.tokens := by
  constructor
  · simp [position, tokens]
  · simp [position, tokens]
  · rintro (ahead | back)
    · exact c.offset_ahead ahead
    · exact c.offset_back back

theorem tokens_advance (c : Cursor) : c.advance.tokens = c.tokens := by
  unfold advance
  split
  · rfl
  · rename_i next rest ahead
    simp [tokens, ahead]

theorem position_advance (c : Cursor) :
    c.advance.position = if c.position + 1 < c.tokens.length then c.position + 1 else c.position := by
  unfold advance
  split
  · rename_i none
    simp [position, tokens, none]
  · rename_i next rest ahead
    simp [position, tokens, ahead]

theorem tokens_advances (c : Cursor) (moves : Nat) : (advance^[moves] c).tokens = c.tokens := by
  induction moves generalizing c with
  | zero => rfl
  | succ moves ih => rw [Function.iterate_succ_apply, ih, tokens_advance]

theorem position_advances (c : Cursor) (moves : Nat) :
    (advance^[moves] c).position = min (c.position + moves) (c.tokens.length - 1) := by
  have inside := c.within_tokens.inside
  induction moves with
  | zero =>
    change c.position = _
    omega
  | succ moves ih =>
    rw [Function.iterate_succ_apply', position_advance, tokens_advances, ih]
    split <;> omega

theorem position_le_advances (c : Cursor) (moves : Nat) :
    c.position ≤ (advance^[moves] c).position := by
  have inside := c.within_tokens.inside
  rw [position_advances]
  omega

theorem closed_iff : c.Closed ↔ ∃ last ∈ c.tokens.getLast?, last.kind = .endOfInput := by
  have whole : c.tokens = c.passed.reverse ++ c.upcoming := rfl
  have some_ : c.upcoming ≠ [] := List.cons_ne_nil _ _
  rw [Closed, whole, List.getLast?_append, List.getLast?_eq_some_getLast some_, Option.some_or]

theorem Closed.of_tokens {d : Cursor} (closed : c.Closed) (same : d.tokens = c.tokens) : d.Closed := by
  rw [closed_iff, same]
  exact closed_iff.mp closed

theorem tokens_startOf {tokens : List Token} (some_ : tokens ≠ []) :
    (startOf tokens).tokens = tokens := by
  cases tokens with
  | nil => exact absurd rfl some_
  | cons first rest => rfl

theorem closed_startOf {tokens : List Token} {last : Token} (found : tokens.getLast? = some last)
    (ended : last.kind = .endOfInput) : (startOf tokens).Closed := by
  have some_ : tokens ≠ [] := by
    rintro rfl
    cases found
  rw [closed_iff, tokens_startOf some_]
  exact ⟨last, found, ended⟩

theorem tokens_ofTokens (front : List Token) {last : Token} (ended : last.kind = .endOfInput) :
    (ofTokens (front ++ [last])).tokens = front ++ [last] := by
  have complete : ofTokens (front ++ [last]) = startOf (front ++ [last]) := by
    simp [ofTokens, ended]
  rw [complete, tokens_startOf (by simp)]

/-- Every sequence is read as one that ends with the end of input. -/
theorem closed_ofTokens (tokens : List Token) : (ofTokens tokens).Closed := by
  unfold ofTokens
  split
  · rename_i last found
    by_cases ended : last.kind = .endOfInput
    · rw [if_pos ended]
      exact closed_startOf found ended
    · rw [if_neg ended]
      exact closed_startOf List.getLast?_concat rfl
  · exact closed_startOf rfl rfl

end Cursor

namespace Parse

variable {α β σ : Type} {requires : Token → Prop} {limit taken further : Nat}

/-- What a parser does from a cursor on, step by step: it has a result, refuses, looks at the cursor or
moves it. Counted are the moves. -/
inductive Walk : Parse α → Cursor → Nat → Except Diagnostic α → Prop where
  | done (value : α) (c : Cursor) : Walk (pure value) c 0 (.ok value)
  | refuse (fault : Diagnostic) (c : Cursor) : Walk (throw fault) c 0 (.error fault)
  | look {rest : Cursor → Parse α} {c moves ended} :
      Walk (rest c) c moves ended → Walk (get >>= rest) c moves ended
  | move {rest : Token → Parse α} {c moves ended} :
      Walk (rest c.current) c.advance moves ended → Walk (next >>= rest) c (moves + 1) ended

/-- Wherever the parser starts, it comes to an end in steps. -/
def Stepwise (p : Parse α) : Prop := ∀ c, ∃ moves ended, Walk p c moves ended

theorem Walk.run {p : Parse α} {c : Cursor} {moves : Nat} {ended : Except Diagnostic α}
    (walk : Walk p c moves ended) :
    p.run c = ended.map fun value => (value, Cursor.advance^[moves] c) := by
  induction walk with
  | done | refuse => rfl
  | look _ ih => exact ih
  | @move rest c moves ended _ ih =>
    rw [Function.iterate_succ_apply]
    exact ih

theorem Stepwise.moves {p : Parse α} {c after : Cursor} {value : α} (steps : Stepwise p)
    (ran : p.run c = .ok (value, after)) : ∃ moves, after = Cursor.advance^[moves] c := by
  obtain ⟨moves, ended, walk⟩ := steps c
  rw [walk.run] at ran
  cases ended with
  | error fault => cases ran
  | ok value =>
    cases ran
    exact ⟨moves, rfl⟩

theorem Stepwise.closed {p : Parse α} {c after : Cursor} {value : α} (steps : Stepwise p)
    (closed : c.Closed) (ran : p.run c = .ok (value, after)) : after.Closed := by
  obtain ⟨moves, rfl⟩ := steps.moves ran
  exact closed.of_tokens (c.tokens_advances moves)

/-- The run of a parser consists of steps. The cursor is moved one token at a time and no further than to
the last one, and wherever it stands in between is inside its sequence. -/
def Proceeds (p : Parse α) (c : Cursor) : Prop :=
  ∃ moves ended, Walk p c moves ended ∧
    (p.run c = ended.map fun value => (value, Cursor.advance^[moves] c)) ∧
      ∀ i ≤ moves, (Cursor.advance^[i] c).Within c.tokens ∧
        (Cursor.advance^[i] c).position = min (c.position + i) (c.tokens.length - 1)

theorem Stepwise.proceeds {p : Parse α} (steps : Stepwise p) (c : Cursor) : p.Proceeds c := by
  obtain ⟨moves, ended, walk⟩ := steps c
  refine ⟨moves, ended, walk, walk.run, ?_⟩
  intro i _
  have within := (Cursor.advance^[i] c).within_tokens
  rw [c.tokens_advances] at within
  exact ⟨within, c.position_advances i⟩

theorem stepwise_pure (value : α) : Stepwise (pure value) :=
  fun c => ⟨0, .ok value, .done value c⟩

theorem stepwise_throw (fault : Diagnostic) : Stepwise (throw fault : Parse α) :=
  fun c => ⟨0, .error fault, .refuse fault c⟩

theorem stepwise_get {f : Cursor → Parse β} (rest : ∀ c, Stepwise (f c)) :
    Stepwise (get >>= f) := by
  intro c
  obtain ⟨moves, ended, walk⟩ := rest c c
  exact ⟨moves, ended, .look walk⟩

theorem stepwise_peek {f : Token → Parse β} (rest : ∀ token, Stepwise (f token)) :
    Stepwise (peek >>= f) := by
  rw [peek, bind_assoc]
  exact stepwise_get fun c => rest c.current

theorem stepwise_next : Stepwise next := by
  intro c
  have last : Walk (pure c.current) c.advance 0 (.ok c.current) := .done _ _
  rw [← bind_pure next]
  exact ⟨1, .ok c.current, .move last⟩

theorem Stepwise.bind {p : Parse α} {f : α → Parse β} (first : Stepwise p)
    (rest : ∀ value, Stepwise (f value)) : Stepwise (p >>= f) := by
  intro c
  obtain ⟨moves, ended, walk⟩ := first c
  clear first
  induction walk with
  | done value c =>
    rw [pure_bind]
    exact rest value c
  | refuse fault c => exact ⟨0, .error fault, .refuse fault c⟩
  | look _ ih =>
    obtain ⟨moves, ended, walk⟩ := ih
    rw [bind_assoc]
    exact ⟨moves, ended, .look walk⟩
  | move _ ih =>
    obtain ⟨moves, ended, walk⟩ := ih
    rw [bind_assoc]
    exact ⟨moves + 1, ended, .move walk⟩

/-- On so many tokens, the first as required, two parsers do the same, and the first of them leaves so
many behind it if it has a result. -/
structure Paced (requires : Token → Prop) (limit taken : Nat) (p q : Parse α) : Prop where
  steps : Stepwise p
  agree : ∀ c, c.Closed → requires c.current → c.remaining ≤ limit → p.run c = q.run c
  ahead : ∀ c value after, c.Closed → requires c.current → c.remaining ≤ limit →
    p.run c = .ok (value, after) → after.remaining + taken ≤ c.remaining

theorem Paced.self {p q : Parse α} (paced : Paced requires limit taken p q) :
    Paced requires limit taken p p :=
  ⟨paced.steps, fun _ _ _ _ => rfl, paced.ahead⟩

theorem Paced.where_ {p q : Parse α} {needed : Token → Prop} (paced : Paced needed limit taken p q)
    (met : ∀ token, requires token → needed token) : Paced requires limit taken p q :=
  ⟨paced.steps, fun c closed current => paced.agree c closed (met _ current),
    fun c value after closed current => paced.ahead c value after closed (met _ current)⟩

theorem Paced.on {p q : Parse α} (paced : Paced requires limit taken p q) {token : Token}
    (met : requires token) : Paced (· = token) limit taken p q := by
  apply paced.where_
  rintro _ rfl
  exact met

theorem Paced.weaken {p q : Parse α} {fewer less : Nat} (paced : Paced requires limit taken p q)
    (upTo : fewer ≤ limit) (atLeast : less ≤ taken) : Paced requires fewer less p q := by
  refine ⟨paced.steps, ?_, ?_⟩
  · intro c closed met few
    exact paced.agree c closed met (Nat.le_trans few upTo)
  · intro c value after closed met few ran
    have left := paced.ahead c value after closed met (Nat.le_trans few upTo) ran
    omega

theorem Paced.untaken {p q : Parse α} (paced : Paced requires limit taken p q) :
    Paced requires limit 0 p q :=
  paced.weaken (Nat.le_refl _) (Nat.zero_le _)

theorem paced_pure (value : α) : Paced requires limit 0 (pure value) (pure value) := by
  refine ⟨stepwise_pure value, fun _ _ _ _ => rfl, ?_⟩
  rintro c _ _ _ _ _ ⟨⟩
  exact Nat.le_refl _

theorem paced_throw (fault : Diagnostic) :
    Paced requires limit taken (throw fault : Parse α) (throw fault) := by
  refine ⟨stepwise_throw fault, fun _ _ _ _ => rfl, ?_⟩
  rintro c _ _ _ _ _ ⟨⟩

theorem paced_failAt (token : Token) (fault : Diagnostic) :
    Paced requires limit taken (failAt token fault : Parse α) (failAt token fault) :=
  paced_throw _

/-- What the first parser leaves has to be few enough for the second. -/
theorem Paced.bind_of_le {p q : Parse α} {f g : α → Parse β} {left total : Nat}
    (first : Paced requires limit taken p q)
    (second : ∀ value, Paced (fun _ => True) left further (f value) (g value))
    (enough : limit ≤ left + taken) (sum : total ≤ taken + further) :
    Paced requires limit total (p >>= f) (q >>= g) := by
  refine ⟨first.steps.bind fun value => (second value).steps, ?_, ?_⟩
  · intro c closed met few
    rw [StateT.run_bind, StateT.run_bind, ← first.agree c closed met few]
    rcases ran : p.run c with fault | ⟨value, between⟩
    · rfl
    · have fewer := first.ahead c value between closed met few ran
      exact (second value).agree between (first.steps.closed closed ran) trivial (by omega)
  · intro c value after closed met few ran
    obtain ⟨middle, between, head, rest⟩ := run_bind_iff.mp ran
    have fewer := first.ahead c middle between closed met few head
    have fewest := (second middle).ahead between value after (first.steps.closed closed head) trivial
      (by omega) rest
    omega

theorem Paced.bind {p q : Parse α} {f g : α → Parse β} (first : Paced requires limit taken p q)
    (second : ∀ value, Paced (fun _ => True) limit further (f value) (g value)) :
    Paced requires limit taken (p >>= f) (q >>= g) :=
  first.bind_of_le second (Nat.le_add_right _ _) (Nat.le_add_right _ _)

theorem Paced.bind_second {p q : Parse α} {f g : α → Parse β}
    (first : Paced requires limit taken p q)
    (second : ∀ value, Paced (fun _ => True) limit further (f value) (g value)) :
    Paced requires limit further (p >>= f) (q >>= g) :=
  first.bind_of_le second (Nat.le_add_right _ _) (Nat.le_add_left _ _)

theorem Paced.bind_below {p q : Parse α} {f g : α → Parse β}
    (first : Paced requires (limit + 1) 1 p q)
    (second : ∀ value, Paced (fun _ => True) limit further (f value) (g value)) :
    Paced requires (limit + 1) 1 (p >>= f) (q >>= g) :=
  first.bind_of_le second (Nat.le_refl _) (Nat.le_add_right _ _)

theorem paced_get {f g : Cursor → Parse β}
    (rest : ∀ cursor, Paced requires limit taken (f cursor) (g cursor)) :
    Paced requires limit taken (get >>= f) (get >>= g) :=
  ⟨stepwise_get fun c => (rest c).steps, fun c => (rest c).agree c, fun c => (rest c).ahead c⟩

theorem paced_peek {f g : Token → Parse β}
    (rest : ∀ token, Paced (· = token) limit taken (f token) (g token)) :
    Paced requires limit taken (peek >>= f) (peek >>= g) :=
  ⟨stepwise_peek fun token => (rest token).steps,
    fun c closed _ => (rest c.current).agree c closed rfl,
    fun c value after closed _ => (rest c.current).ahead c value after closed rfl⟩

theorem paced_isAt {kind : Kind} {f g : Bool → Parse β}
    (there : Paced (·.kind = kind) limit taken (f true) (g true))
    (elsewhere : Paced (fun _ => True) limit taken (f false) (g false)) :
    Paced requires limit taken (isAt kind >>= f) (isAt kind >>= g) := by
  have steps : Stepwise (isAt kind >>= f) := by
    rw [isAt, bind_assoc]
    refine stepwise_get fun c => ?_
    rw [pure_bind]
    cases c.isAt kind with
    | true => exact there.steps
    | false => exact elsewhere.steps
  have run_eq (h : Bool → Parse β) (c : Cursor) :
      (isAt kind >>= h).run c = (h (decide (c.current.kind = kind))).run c := rfl
  refine ⟨steps, ?_, ?_⟩
  · intro c closed _ few
    rw [run_eq, run_eq]
    by_cases same : c.current.kind = kind
    · rw [decide_eq_true same]
      exact there.agree c closed same few
    · rw [decide_eq_false same]
      exact elsewhere.agree c closed trivial few
  · intro c value after closed _ few ran
    rw [run_eq] at ran
    by_cases same : c.current.kind = kind
    · rw [decide_eq_true same] at ran
      exact there.ahead c value after closed same few ran
    · rw [decide_eq_false same] at ran
      exact elsewhere.ahead c value after closed trivial few ran

theorem remaining_advance_le (c : Cursor) : c.advance.remaining ≤ c.remaining := by
  have here := c.position_add_remaining
  have there := c.advance.position_add_remaining
  have forward : c.position ≤ c.advance.position := c.position_le_advances 1
  rw [c.tokens_advance] at there
  omega

theorem paced_next : Paced requires limit 0 next next := by
  refine ⟨stepwise_next, fun _ _ _ _ => rfl, ?_⟩
  rintro c _ _ _ _ _ ⟨⟩
  exact remaining_advance_le c

theorem paced_next_of (known : ∀ token, requires token → token.kind ≠ .endOfInput) :
    Paced requires limit 1 next next := by
  refine ⟨stepwise_next, fun _ _ _ _ => rfl, ?_⟩
  rintro c _ _ closed met _ ⟨⟩
  rw [c.remaining_eq, closed.upcoming_advance (known _ met), Cursor.remaining_eq,
    List.length_append, List.length_singleton]
  omega

theorem paced_expect {kind : Kind} (kindly : kind ≠ .endOfInput) (hint : Text) :
    Paced requires limit 1 (expect kind hint) (expect kind hint) := by
  have steps : Stepwise (expect kind hint) := by
    refine stepwise_get fun c => ?_
    split
    · exact stepwise_next
    · exact stepwise_throw _
  refine ⟨steps, fun _ _ _ _ => rfl, ?_⟩
  intro c value after closed _ _ ran
  rw [run_expect] at ran
  split at ran
  · rename_i same
    have known : ∀ token, token = c.current → token.kind ≠ .endOfInput := by
      rintro _ rfl
      rwa [same]
    exact (paced_next_of known).ahead c value after closed rfl (Nat.le_refl _) ran
  · cases ran

theorem paced_collect {starts : Kind → Bool} {p q : Parse α}
    (each : Paced (fun token => starts token.kind = true) limit taken p q) (bound : Nat) :
    Paced requires limit 0 (collect starts p bound) (collect starts q bound) := by
  induction bound generalizing requires with
  | zero => exact paced_pure []
  | succ bound ih =>
    apply paced_peek
    intro token
    split
    · rename_i start
      apply (each.on start).bind_second
      intro first
      apply ih.bind
      intro rest
      exact paced_pure (first :: rest)
    · exact paced_pure []

theorem paced_many {starts : Kind → Bool} {p q : Parse α}
    (each : Paced (fun token => starts token.kind = true) limit taken p q) :
    Paced requires limit 0 (many starts p) (many starts q) :=
  paced_get fun cursor => paced_collect each cursor.remaining

theorem paced_extend {starts : Token → Bool} {p q : σ → Parse σ}
    (each : ∀ state, Paced (fun token => starts token = true) limit taken (p state) (q state))
    (bound : Nat) (state : σ) :
    Paced requires limit 0 (extend starts p bound state) (extend starts q bound state) := by
  induction bound generalizing requires state with
  | zero => exact paced_pure state
  | succ bound ih =>
    apply paced_peek
    intro token
    split
    · rename_i start
      exact ((each state).on start).bind_second fun further => ih further
    · exact paced_pure state

theorem paced_chain {starts : Token → Bool} {p q : σ → Parse σ}
    (each : ∀ state, Paced (fun token => starts token = true) limit taken (p state) (q state))
    (state : σ) : Paced requires limit 0 (chain starts p state) (chain starts q state) :=
  paced_get fun cursor => paced_extend each cursor.remaining state

/-- Where each level of nesting takes a token, as many levels as there are tokens are enough: what
stands below them is not run. -/
theorem paced_bounded {level : Parse α → Parse α} {bounded : Nat → Parse α}
    (lowest : Stepwise (bounded 0)) (next_ : ∀ depth, bounded (depth + 1) = level (bounded depth))
    (each : ∀ limit inner other, Paced (fun _ => True) limit 1 inner other →
      Paced (fun _ => True) (limit + 1) 1 (level inner) (level other))
    (bottom : Parse α) (depth : Nat) :
    Paced (fun _ => True) depth 1 (bounded depth) (level^[depth] bottom) := by
  induction depth with
  | zero =>
    -- a cursor stands on a token, so there is one left
    refine ⟨lowest, ?_, ?_⟩
    · intro c _ _ none
      exact absurd none (Nat.not_le_of_gt (Nat.succ_pos _))
    · intro c _ _ _ _ none
      exact absurd none (Nat.not_le_of_gt (Nat.succ_pos _))
  | succ depth ih =>
    rw [next_, Function.iterate_succ_apply']
    exact each depth _ _ ih

/-- A parser that takes its bound from the tokens that remain never meets it. -/
theorem paced_remaining {level : Parse α → Parse α} {bounded : Nat → Parse α}
    (each : ∀ bottom depth, Paced (fun _ => True) depth 1 (bounded depth) (level^[depth] bottom))
    (bottom : Parse α) {depth : Nat} (upTo : limit ≤ depth) :
    Paced requires limit 1 (do bounded (← get).remaining) (level^[depth] bottom) := by
  refine ⟨stepwise_get fun c => (each bottom c.remaining).steps, ?_, ?_⟩
  · intro c closed _ few
    rw [run_remaining]
    -- the levels that are not needed are part of what stands at the bottom
    obtain ⟨more, rfl⟩ := Nat.exists_eq_add_of_le (Nat.le_trans few upTo)
    rw [Function.iterate_add_apply]
    exact (each _ c.remaining).agree c closed trivial (Nat.le_refl _)
  · intro c value after closed _ _ ran
    rw [run_remaining] at ran
    exact (each bottom c.remaining).ahead c value after closed trivial (Nat.le_refl _) ran

/-- A parser that runs itself one level further down, without any bound, comes to an end: if it is cut off
below as many levels as there are tokens, it does the same, whatever stands there. -/
structure Grounded (level : Parse α → Parse α) (p : Parse α) (c : Cursor) : Prop where
  unfolds : (level p).run c = p.run c
  ends : ∀ bottom depth, c.remaining ≤ depth → (level^[depth] bottom).run c = p.run c

theorem grounded_of_bounded {level : Parse α → Parse α} {bounded : Nat → Parse α}
    (lowest : Stepwise (bounded 0)) (next_ : ∀ depth, bounded (depth + 1) = level (bounded depth))
    (each : ∀ limit inner other, Paced (fun _ => True) limit 1 inner other →
      Paced (fun _ => True) (limit + 1) 1 (level inner) (level other))
    {c : Cursor} (closed : c.Closed) : Grounded level (do bounded (← get).remaining) c := by
  have paced (bottom : Parse α) (depth : Nat) :
      Paced (fun _ => True) depth 1 (do bounded (← get).remaining) (level^[depth] bottom) :=
    paced_remaining (paced_bounded lowest next_ each) bottom (Nat.le_refl depth)
  have ends (bottom : Parse α) (depth : Nat) (enough : c.remaining ≤ depth) :
      (level^[depth] bottom).run c = StateT.run (do bounded (← get).remaining : Parse α) c :=
    ((paced bottom depth).agree c closed trivial enough).symm
  refine ⟨?_, ends⟩
  -- one level more than there are tokens
  have further := each _ _ _ (paced (bounded 0) c.remaining)
  rw [further.agree c closed trivial (Nat.le_succ _), ← Function.iterate_succ_apply' level]
  exact ends _ _ (Nat.le_succ _)

/-! Loops, round by round. -/

/-- The rounds of a loop without a bound: it ends where the current token lets none start, or where one
fails. -/
inductive Repeats (starts : Token → Bool) (step : σ → Parse σ) :
    σ → Cursor → Except Diagnostic (σ × Cursor) → Prop where
  | stopped {state c} : starts c.current = false → Repeats starts step state c (.ok (state, c))
  | fails {state c fault} : starts c.current = true → (step state).run c = .error fault →
      Repeats starts step state c (.error fault)
  | again {state c further between ended} : starts c.current = true →
      (step state).run c = .ok (further, between) → Repeats starts step further between ended →
        Repeats starts step state c ended

/-- An item put behind those found so far. -/
def gather (item : Parse α) (found : List α) : Parse (List α) := do
  return found ++ [← item]

theorem run_extend_succ (starts : Token → Bool) (step : σ → Parse σ) (bound : Nat) (state : σ)
    (c : Cursor) :
    (extend starts step (bound + 1) state).run c =
      if starts c.current then (step state >>= extend starts step bound).run c
      else .ok (state, c) := by
  change (if starts c.current then _ else pure state : Parse σ).run c = _
  split <;> rfl

theorem extend_gather (starts : Kind → Bool) (item : Parse α) (bound : Nat) (found : List α) :
    extend (fun token => starts token.kind) (gather item) bound found = (do
      let more ← collect starts item bound
      return found ++ more) := by
  induction bound generalizing found with
  | zero => simp [extend, collect]
  | succ bound ih =>
    simp only [extend, collect, bind_assoc]
    congr 1
    funext token
    split
    · simp only [gather, ih, bind_assoc, pure_bind, List.append_assoc, List.singleton_append]
    · simp

/-- A list of items is read by a loop that puts each behind those before it. -/
theorem chain_gather (starts : Kind → Bool) (item : Parse α) :
    chain (fun token => starts token.kind) (gather item) [] = many starts item := by
  rw [chain, many]
  congr 1
  funext c
  rw [extend_gather]
  simp

/-- Where each round leaves tokens behind, the loop ends, and not because its bound is reached. -/
theorem repeats_extend {starts : Token → Bool} {step : σ → Parse σ}
    (each : ∀ state limit, Paced (fun token => starts token = true) limit 1 (step state) (step state))
    (bound : Nat) (state : σ) {c : Cursor} (closed : c.Closed) (enough : c.remaining ≤ bound) :
    Repeats starts step state c ((extend starts step bound state).run c) := by
  induction bound generalizing state c with
  | zero => exact absurd enough (Nat.not_le_of_gt (Nat.succ_pos _))
  | succ bound ih =>
    rw [run_extend_succ]
    split
    · rename_i start
      rw [StateT.run_bind]
      have paced := each state c.remaining
      rcases ran : (step state).run c with fault | ⟨further, between⟩
      · exact .fails start ran
      · -- the tokens that remain fall with the bound, so they are still within it
        have fewer := paced.ahead c further between closed start (Nat.le_refl _) ran
        exact .again start ran (ih further (paced.steps.closed closed ran) (by omega))
    · rename_i stop
      exact .stopped (Bool.eq_false_iff.mpr stop)

theorem repeats_chain {starts : Token → Bool} {step : σ → Parse σ}
    (each : ∀ state limit, Paced (fun token => starts token = true) limit 1 (step state) (step state))
    (state : σ) {c : Cursor} (closed : c.Closed) :
    Repeats starts step state c ((chain starts step state).run c) :=
  repeats_extend each c.remaining state closed (Nat.le_refl _)

theorem repeats_many {starts : Kind → Bool} {item : Parse α}
    (each : ∀ limit, Paced (fun token => starts token.kind = true) limit 1 item item) {c : Cursor}
    (closed : c.Closed) :
    Repeats (fun token => starts token.kind) (gather item) [] c ((many starts item).run c) := by
  rw [← chain_gather]
  apply repeats_chain _ _ closed
  intro found limit
  apply (each limit).bind
  intro value
  exact paced_pure _

end Parse

end Scriptlet
