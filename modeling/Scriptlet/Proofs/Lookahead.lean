import Scriptlet.Proofs.Completeness
/-!
What parsers make of tokens that follow. Two sequences share their first tokens; then one ends and the
other goes on. A parser does the same on both as long as it has no look at what follows the shared
tokens. Where it does, it found the end of the first sequence there: it stays at the end, or refuses it
with a fault that shows the end of input. The bound on nesting grows with the sequence, so the parser
on the longer one may be another, with a larger bound.
-/
namespace Scriptlet

namespace Diagnostic

/-- The fault is one of a source alone. -/
structure OfSource (fault : Diagnostic) : Prop where
  isStatic : fault.isStatic = true
  file : fault.file = []

/-- What was found, as the fault tells, is the end of input. -/
def ShowsEnd (fault : Diagnostic) : Prop :=
  ∃ details, fault.details = some details ∧
    details.lookup (utf8 "Got") = some (.text (utf8 "end of input"))

end Diagnostic

/-- Where one sequence ends and the other goes on. -/
structure Turn where
  last : Token
  more : List Token
  ended : last.kind = .endOfInput
  going : more ≠ []

namespace Turn

variable {turn : Turn} {xs ys : List Token} {token : Token} {c d : Cursor}

/-- How many tokens the second sequence has more than the first. -/
def extra (turn : Turn) : Nat := turn.more.length - 1

/-- Two cursors with the same tokens before the turn. -/
structure Beside (turn : Turn) (xs : List Token) (c d : Cursor) : Prop where
  ends : c.upcoming = xs ++ [turn.last]
  goes : d.upcoming = xs ++ turn.more

theorem Beside.remaining (beside : turn.Beside xs c d) :
    c.remaining = xs.length + 1 ∧ d.remaining = xs.length + 1 + turn.extra := by
  have going := List.length_pos_iff.mpr turn.going
  rw [Cursor.remaining_eq, Cursor.remaining_eq, beside.ends, beside.goes, List.length_append,
    List.length_append, List.length_singleton, extra]
  omega

theorem Beside.current (beside : turn.Beside (token :: xs) c d) :
    c.current = token ∧ d.current = token :=
  ⟨Parse.current_of_upcoming beside.ends, Parse.current_of_upcoming beside.goes⟩

theorem Beside.advance (beside : turn.Beside (token :: xs) c d) :
    turn.Beside xs c.advance d.advance := by
  have moved {cursor : Cursor} {rest : List Token} (some_ : rest ≠ [])
      (ahead : cursor.upcoming = token :: (xs ++ rest)) : cursor.advance.upcoming = xs ++ rest := by
    obtain ⟨next, others, split⟩ :=
      List.exists_cons_of_ne_nil (List.append_ne_nil_of_right_ne_nil xs some_)
    rw [split] at ahead ⊢
    exact Cursor.upcoming_advance ahead
  exact ⟨moved (List.cons_ne_nil _ _) beside.ends, moved turn.going beside.goes⟩

theorem current_of_end (turn : Turn) (atEnd : c.upcoming = [turn.last]) : c.current = turn.last :=
  Parse.current_of_upcoming atEnd

end Turn

namespace Parse

variable {α β σ : Type} {turn : Turn} {loose ragged : Prop} {least limit taken further : Nat}

/-- How a parser deals with the end of input: it stays there, which only a loose one does, or it
refuses to. -/
inductive Ends (turn : Turn) (loose : Prop) : Except Diagnostic (α × Cursor) → Prop where
  | stays {value c} : loose → c.upcoming = [turn.last] → Ends turn loose (.ok (value, c))
  | refused {fault : Diagnostic} : fault.OfSource → fault.ShowsEnd → Ends turn loose (.error fault)

/-- How parsers come out of shared tokens: with the same value, further along them; with the same
fault; or the first has come to the end. -/
inductive Meets (turn : Turn) (loose : Prop) (taken : Nat) (xs : List Token) :
    Except Diagnostic (α × Cursor) → Except Diagnostic (α × Cursor) → Prop where
  | same {value c d} (ts ys : List Token) :
      xs = ts ++ ys → taken ≤ ts.length → turn.Beside ys c d →
        Meets turn loose taken xs (.ok (value, c)) (.ok (value, d))
  | refused {fault : Diagnostic} :
      fault.OfSource → Meets turn loose taken xs (.error fault) (.error fault)
  | ended {left right} : Ends turn loose left → Meets turn loose taken xs left right

/-- At the end of input the parser stays there or refuses it. -/
def Heeds (turn : Turn) (loose : Prop) (p : Parse α) : Prop :=
  ∀ c, c.upcoming = [turn.last] → Ends turn loose (p.run c)

/-- The parsers agree on shared tokens, at least so many and fewer than a limit, and take some. -/
def Agree (turn : Turn) (least limit taken : Nat) (loose : Prop) (p q : Parse α) : Prop :=
  ∀ xs c d, least ≤ xs.length → xs.length < limit → turn.Beside xs c d →
    Meets turn loose taken xs (p.run c) (q.run d)

theorem heeds_pure (value : α) : Heeds turn True (pure value) :=
  fun _ atEnd => .stays trivial atEnd

theorem heeds_failAt {token : Token} {fault : Diagnostic} (source : fault.OfSource)
    (shows : fault.ShowsEnd) : Heeds turn loose (failAt token fault : Parse α) :=
  fun _ _ => .refused ⟨source.isStatic, source.file⟩ shows

theorem Heeds.bind {p : Parse α} {f : α → Parse β} (first : Heeds turn True p)
    (second : ∀ value, Heeds turn loose (f value)) : Heeds turn loose (p >>= f) := by
  intro c atEnd
  rw [StateT.run_bind]
  have ended := first c atEnd
  generalize p.run c = result at ended
  cases ended with
  | @stays value after _ stayed => exact second value after stayed
  | refused source shows => exact .refused source shows

theorem Heeds.refuses {p : Parse α} (first : Heeds turn False p) (f : α → Parse β) :
    Heeds turn loose (p >>= f) := by
  intro c atEnd
  rw [StateT.run_bind]
  have ended := first c atEnd
  generalize p.run c = result at ended
  cases ended with
  | stays never _ => exact never.elim
  | refused source shows => exact .refused source shows

theorem heeds_peek {f : Token → Parse β} (rest : Heeds turn loose (f turn.last)) :
    Heeds turn loose (peek >>= f) := by
  intro c atEnd
  have ended := rest c atEnd
  rw [← turn.current_of_end atEnd] at ended
  exact ended

theorem heeds_isAt {kind : Kind} {f : Bool → Parse β} (kindly : kind ≠ .endOfInput)
    (rest : Heeds turn loose (f false)) : Heeds turn loose (isAt kind >>= f) := by
  intro c atEnd
  have elsewhere : c.isAt kind = false := by
    rw [Cursor.isAt, turn.current_of_end atEnd, turn.ended]
    exact decide_eq_false fun same => kindly same.symm
  have ended := rest c atEnd
  rw [← elsewhere] at ended
  exact ended

theorem ofSource_unexpected (kind : Kind) (hint : Text) (found : Token) :
    (Cursor.unexpected kind hint found).OfSource := by
  by_cases none : hint = [] <;> constructor <;>
    simp [Cursor.unexpected, Diagnostic.withHint, none] <;> rfl

theorem showsEnd_unexpected (kind : Kind) (hint : Text) {found : Token}
    (ended : found.kind = .endOfInput) : (Cursor.unexpected kind hint found).ShowsEnd := by
  have shown : found.display = utf8 "end of input" := by rw [Token.display, ended]
  refine ⟨[(utf8 "Expected", .text kind.label), (utf8 "Got", .text found.display)], ?_, ?_⟩
  · by_cases none : hint = [] <;> simp [Cursor.unexpected, Diagnostic.withHint, none] <;> rfl
  · rw [shown]
    rfl

theorem heeds_expect {kind : Kind} {hint : Text} (kindly : kind ≠ .endOfInput) :
    Heeds turn loose (expect kind hint) := by
  intro c atEnd
  have current := turn.current_of_end atEnd
  have kinds : c.current.kind ≠ kind := by
    rw [current, turn.ended]
    exact kindly.symm
  rw [run_expect, if_neg kinds, current]
  exact .refused (ofSource_unexpected _ _ _) (showsEnd_unexpected _ _ turn.ended)

theorem heeds_collect {starts : Kind → Bool} {item : Parse α} (stops : starts .endOfInput = false)
    (bound : Nat) : Heeds turn True (collect starts item bound) := by
  cases bound with
  | zero => exact heeds_pure []
  | succ bound =>
    apply heeds_peek
    rw [turn.ended, stops]
    exact heeds_pure []

theorem heeds_many {starts : Kind → Bool} {item : Parse α} (stops : starts .endOfInput = false) :
    Heeds turn True (many starts item) :=
  fun c atEnd => heeds_collect stops c.remaining c atEnd

theorem heeds_extend {starts : Token → Bool} {step : σ → Parse σ}
    (stops : ∀ token : Token, token.kind = .endOfInput → starts token = false) (bound : Nat)
    (state : σ) : Heeds turn True (extend starts step bound state) := by
  cases bound with
  | zero => exact heeds_pure state
  | succ bound =>
    apply heeds_peek
    rw [stops _ turn.ended]
    exact heeds_pure state

theorem heeds_chain {starts : Token → Bool} {step : σ → Parse σ}
    (stops : ∀ token : Token, token.kind = .endOfInput → starts token = false) (state : σ) :
    Heeds turn True (chain starts step state) :=
  fun c atEnd => heeds_extend stops c.remaining state c atEnd

theorem Agree.weaken {p q : Parse α} {more fewer : Nat}
    (agree : Agree turn least limit taken loose p q) (from_ : least ≤ more) (upTo : fewer ≤ limit) :
    Agree turn more fewer taken loose p q :=
  fun xs c d enough few beside =>
    agree xs c d (Nat.le_trans from_ enough) (Nat.lt_of_lt_of_le few upTo) beside

theorem Agree.inside {p q : Parse α} (agree : Agree turn 0 limit taken loose p q) :
    Agree turn least limit taken loose p q :=
  agree.weaken (Nat.zero_le _) (Nat.le_refl _)

theorem Agree.untaken {p q : Parse α} (agree : Agree turn least limit taken loose p q) :
    Agree turn least limit 0 loose p q := by
  intro xs c d enough few beside
  have met := agree xs c d enough few beside
  generalize p.run c = left at met
  generalize q.run d = right at met
  cases met with
  | same ts ys whole _ beside => exact .same ts ys whole (Nat.zero_le _) beside
  | refused source => exact .refused source
  | ended stop => exact .ended stop

theorem agree_pure (value : α) : Agree turn least limit 0 loose (pure value) (pure value) :=
  fun xs _ _ _ _ beside => .same [] xs rfl (Nat.zero_le _) beside

theorem agree_throw {fault : Diagnostic} (source : fault.OfSource) :
    Agree turn least limit taken loose (throw fault : Parse α) (throw fault) :=
  fun _ _ _ _ _ _ => .refused source

theorem agree_failAt {token : Token} {fault : Diagnostic} (source : fault.OfSource) :
    Agree turn least limit taken loose (failAt token fault : Parse α) (failAt token fault) :=
  agree_throw ⟨source.isStatic, source.file⟩

/-- A loose parser that did not come to the end might as well not be loose. -/
theorem Meets.tighten {xs : List Token} {left right : Except Diagnostic (α × Cursor)}
    (met : Meets turn True taken xs left right)
    (before : ∀ value after, left = .ok (value, after) → after.upcoming ≠ [turn.last]) :
    Meets turn loose taken xs left right := by
  cases met with
  | same ts ys whole took beside => exact .same ts ys whole took beside
  | refused source => exact .refused source
  | ended stop =>
    cases stop with
    | stays _ atEnd => exact absurd atEnd (before _ _ rfl)
    | refused source shows => exact .ended (.refused source shows)

theorem Meets.bind {p q : Parse α} {f g : α → Parse β} {xs : List Token} {c d : Cursor}
    (met : Meets turn ragged taken xs (p.run c) (q.run d))
    (stays : ∀ value after, ragged → p.run c = .ok (value, after) → after.upcoming = [turn.last] →
      Ends turn loose ((f value).run after))
    (goes : ∀ value after behind ts ys, p.run c = .ok (value, after) → xs = ts ++ ys →
      taken ≤ ts.length → turn.Beside ys after behind →
        Meets turn loose further ys ((f value).run after) ((g value).run behind)) :
    Meets turn loose taken xs ((p >>= f).run c) ((q >>= g).run d) := by
  rw [StateT.run_bind, StateT.run_bind]
  generalize p.run c = one at met stays goes
  generalize q.run d = other at met
  cases met with
  | @same value after behind ts ys whole took beside =>
    have met := goes value after behind ts ys rfl whole took beside
    change Meets turn loose taken xs ((f value).run after) ((g value).run behind)
    generalize (f value).run after = one at met
    generalize (g value).run behind = other at met
    cases met with
    | @same _ _ _ us zs split _ beside =>
      refine .same (ts ++ us) zs ?_ ?_ beside
      · rw [whole, split, List.append_assoc]
      · rw [List.length_append]
        omega
    | refused source => exact .refused source
    | ended stop => exact .ended stop
  | refused source => exact .refused source
  | ended stop =>
    cases stop with
    | @stays value after able atEnd => exact .ended (stays value after able rfl atEnd)
    | refused source shows => exact .ended (.refused source shows)

/-- Behind parsers that agree, other parsers have to agree on fewer tokens. -/
theorem Agree.bind_of_le {p q : Parse α} {f g : α → Parse β} {left : Nat}
    (enough : limit ≤ left + taken) (first : Agree turn least limit taken ragged p q)
    (heeds : ragged → ∀ value, Heeds turn loose (f value))
    (second : ∀ value, Agree turn 0 left further loose (f value) (g value)) :
    Agree turn least limit taken loose (p >>= f) (q >>= g) := by
  intro xs c d some_ few beside
  apply (first xs c d some_ few beside).bind
  · intro value after able _ atEnd
    exact heeds able value after atEnd
  · intro value after behind ts ys _ whole took beside
    have fewer : ys.length < left := by
      rw [whole, List.length_append] at few
      omega
    exact second value ys after behind (Nat.zero_le _) fewer beside

theorem Agree.bind {p q : Parse α} {f g : α → Parse β}
    (first : Agree turn least limit taken False p q)
    (second : ∀ value, Agree turn 0 limit further loose (f value) (g value)) :
    Agree turn least limit taken loose (p >>= f) (q >>= g) :=
  first.bind_of_le (Nat.le_add_right _ _) False.elim second

theorem Agree.bind_below {p q : Parse α} {f g : α → Parse β}
    (first : Agree turn least (limit + 1) 1 False p q)
    (second : ∀ value, Agree turn 0 limit further loose (f value) (g value)) :
    Agree turn least (limit + 1) 1 loose (p >>= f) (q >>= g) :=
  first.bind_of_le (Nat.le_refl _) False.elim second

theorem Agree.bind_loose {p q : Parse α} {f g : α → Parse β}
    (first : Agree turn least limit taken True p q) (heeds : ∀ value, Heeds turn loose (f value))
    (second : ∀ value, Agree turn 0 limit further loose (f value) (g value)) :
    Agree turn least limit taken loose (p >>= f) (q >>= g) :=
  first.bind_of_le (Nat.le_add_right _ _) (fun _ => heeds) second

theorem agree_next : Agree turn 1 limit 1 loose next next := by
  intro xs c d some_ _ beside
  cases xs with
  | nil => cases some_
  | cons token ys =>
    change Meets turn loose 1 _ (.ok (c.current, c.advance)) (.ok (d.current, d.advance))
    rw [beside.current.1, beside.current.2]
    exact .same [token] ys rfl (Nat.le_refl _) beside.advance

theorem meets_peek {f g : Token → Parse β} {token : Token} {xs : List Token} {c d : Cursor}
    (beside : turn.Beside (token :: xs) c d)
    (met : Meets turn loose taken (token :: xs) ((f token).run c) ((g token).run d)) :
    Meets turn loose taken (token :: xs) ((peek >>= f).run c) ((peek >>= g).run d) := by
  change Meets turn loose taken _ ((f c.current).run c) ((g d.current).run d)
  rw [beside.current.1, beside.current.2]
  exact met

theorem agree_peek_inside {f g : Token → Parse β}
    (rest : ∀ token, Agree turn 1 limit taken loose (f token) (g token)) :
    Agree turn 1 limit taken loose (peek >>= f) (peek >>= g) := by
  intro xs c d some_ few beside
  cases xs with
  | nil => cases some_
  | cons token ys => exact meets_peek beside (rest token (token :: ys) c d some_ few beside)

theorem Agree.anywhere {p q : Parse α} (inside : Agree turn 1 limit taken loose p q)
    (heeds : Heeds turn loose p) : Agree turn 0 limit taken loose p q := by
  intro xs c d _ few beside
  cases xs with
  | nil => exact .ended (heeds c beside.ends)
  | cons token ys => exact inside _ c d (Nat.le_add_left _ _) few beside

theorem agree_isAt_inside {kind : Kind} {f g : Bool → Parse β}
    (there : Agree turn 1 limit taken loose (f true) (g true))
    (elsewhere : Agree turn 1 limit taken loose (f false) (g false)) :
    Agree turn 1 limit taken loose (isAt kind >>= f) (isAt kind >>= g) := by
  intro xs c d some_ few beside
  cases xs with
  | nil => cases some_
  | cons token ys =>
    change Meets turn loose taken _ ((f (c.isAt kind)).run c) ((g (d.isAt kind)).run d)
    rw [Cursor.isAt, Cursor.isAt, beside.current.1, beside.current.2]
    by_cases same : token.kind = kind
    · rw [decide_eq_true same]
      exact there _ c d some_ few beside
    · rw [decide_eq_false same]
      exact elsewhere _ c d some_ few beside

theorem agree_isAt {kind : Kind} {f g : Bool → Parse β} (kindly : kind ≠ .endOfInput)
    (there : Agree turn 1 limit taken loose (f true) (g true))
    (elsewhere : Agree turn 1 limit taken loose (f false) (g false))
    (heeds : Heeds turn loose (f false)) :
    Agree turn 0 limit taken loose (isAt kind >>= f) (isAt kind >>= g) :=
  (agree_isAt_inside there elsewhere).anywhere (heeds_isAt kindly heeds)

theorem agree_expect {kind : Kind} {hint : Text} (kindly : kind ≠ .endOfInput) :
    Agree turn least limit 1 loose (expect kind hint) (expect kind hint) := by
  have inside : Agree turn 1 limit 1 loose (expect kind hint) (expect kind hint) := by
    intro xs c d some_ few beside
    cases xs with
    | nil => cases some_
    | cons token ys =>
      rw [run_expect, run_expect, beside.current.1, beside.current.2]
      by_cases same : token.kind = kind
      · rw [if_pos same, if_pos same]
        exact .same [token] ys rfl (Nat.le_refl _) beside.advance
      · rw [if_neg same, if_neg same]
        exact .refused (ofSource_unexpected _ _ _)
  exact (inside.anywhere (heeds_expect kindly)).inside

theorem run_remaining (f : Nat → Parse β) (c : Cursor) :
    StateT.run (do f (← get).remaining : Parse β) c = (f c.remaining).run c := rfl

theorem agree_remaining {f g : Nat → Parse β}
    (each : ∀ bound, bound ≤ limit → Agree turn least bound taken loose (f bound)
      (g (bound + turn.extra))) :
    Agree turn least limit taken loose (do f (← get).remaining) (do g (← get).remaining) := by
  intro xs c d some_ few beside
  have met := each (xs.length + 1) few xs c d some_ (Nat.lt_succ_self _) beside
  rw [run_remaining, run_remaining, beside.remaining.1, beside.remaining.2]
  exact met

-- Each round takes a token, so the bounds suffice for the tokens that are left.
theorem agree_collect {starts : Kind → Bool} {p q : Parse α} (stops : starts .endOfInput = false)
    (each : Agree turn 1 limit 1 ragged p q) (bound : Nat) (small : bound ≤ limit) :
    Agree turn 0 bound 0 True (collect starts p bound) (collect starts q (bound + turn.extra)) := by
  induction bound with
  | zero =>
    intro xs _ _ _ few
    exact absurd few (Nat.not_lt_zero _)
  | succ bound ih =>
    rw [Nat.add_right_comm]
    have again := ih (Nat.le_of_succ_le small)
    apply Agree.anywhere _ (heeds_collect stops _)
    apply agree_peek_inside
    intro token
    split
    · have first : Agree turn 1 (bound + 1) 1 ragged p q := each.weaken (Nat.le_refl _) small
      apply Agree.untaken
      apply first.bind_of_le (Nat.le_refl _)
      · intro _ value
        exact (heeds_collect stops bound).bind fun rest => heeds_pure _
      · intro value
        exact again.bind_loose (fun rest => heeds_pure _) fun rest => agree_pure _
    · exact agree_pure []

theorem agree_many {starts : Kind → Bool} {p q : Parse α} (stops : starts .endOfInput = false)
    (each : Agree turn 1 limit 1 ragged p q) :
    Agree turn 0 limit 0 True (many starts p) (many starts q) :=
  agree_remaining (agree_collect stops each)

theorem agree_extend {starts : Token → Bool} {p q : σ → Parse σ}
    (stops : ∀ token : Token, token.kind = .endOfInput → starts token = false)
    (each : ∀ state, Agree turn 1 limit 1 ragged (p state) (q state)) (bound : Nat)
    (small : bound ≤ limit) (state : σ) :
    Agree turn 0 bound 0 True (extend starts p bound state)
      (extend starts q (bound + turn.extra) state) := by
  induction bound generalizing state with
  | zero =>
    intro xs _ _ _ few
    exact absurd few (Nat.not_lt_zero _)
  | succ bound ih =>
    rw [Nat.add_right_comm]
    apply Agree.anywhere _ (heeds_extend stops _ _)
    apply agree_peek_inside
    intro token
    split
    · have first : Agree turn 1 (bound + 1) 1 ragged (p state) (q state) :=
        (each state).weaken (Nat.le_refl _) small
      apply Agree.untaken
      apply first.bind_of_le (Nat.le_refl _)
      · intro _ value
        exact heeds_extend stops bound value
      · intro value
        exact ih (Nat.le_of_succ_le small) value
    · exact agree_pure state

theorem agree_chain {starts : Token → Bool} {p q : σ → Parse σ}
    (stops : ∀ token : Token, token.kind = .endOfInput → starts token = false)
    (each : ∀ state, Agree turn 1 limit 1 ragged (p state) (q state)) (state : σ) :
    Agree turn 0 limit 0 True (chain starts p state) (chain starts q state) :=
  agree_remaining (f := fun bound => extend starts p bound state)
    (g := fun bound => extend starts q bound state)
    fun bound small => agree_extend stops each bound small state

end Parse

end Scriptlet
