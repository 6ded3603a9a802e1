import Scriptlet.Proofs.Soundness
/-!
Parsing is complete for the expressions of the grammar: a phrase is read to its end, and to its tree,
if what stands behind it cannot carry it on. A parser of one tier reads a phrase of a tighter one and
then goes on; so what is shown of each phrase is where that leaves the parser.
-/
namespace Scriptlet

namespace Parse

variable {α β σ : Type} {stops : Token → Prop}

/-- Before a token as stated, the parser takes the tokens and returns the value. -/
def Reads (stops : Token → Prop) (parser : Parse α) (ts : List Token) (value : α) : Prop :=
  ∀ cursor next rest, cursor.upcoming = ts ++ next :: rest → stops next →
    ∃ after, parser.run cursor = .ok (value, after) ∧ after.upcoming = next :: rest

theorem reads_pure (value : α) : Reads stops (pure value) [] value :=
  fun cursor _ _ ahead _ => ⟨cursor, rfl, ahead⟩

theorem current_of_upcoming {cursor : Cursor} {token : Token} {rest : List Token}
    (ahead : cursor.upcoming = token :: rest) : cursor.current = token :=
  (List.cons.inj ahead).1

theorem reads_next (token : Token) : Reads stops next [token] token := by
  intro cursor after rest ahead _
  refine ⟨cursor.advance, ?_, Cursor.upcoming_advance ahead⟩
  rw [← current_of_upcoming ahead]
  rfl

theorem run_expect (kind : Kind) (hint : Text) (cursor : Cursor) :
    (expect kind hint).run cursor =
      if cursor.current.kind = kind then .ok (cursor.current, cursor.advance)
      else .error (Cursor.unexpected kind hint cursor.current) := by
  rw [expect, StateT.run_bind, StateT.run_get]
  by_cases same : cursor.current.kind = kind
  · have met : cursor.expectation kind hint = none := by
      simp [Cursor.expectation, Cursor.isAt, same]
    simp only [pure_bind, met, same, if_true]
    rfl
  · have refused : cursor.expectation kind hint = some (Cursor.unexpected kind hint cursor.current) := by
      simp [Cursor.expectation, Cursor.isAt, same]
    simp only [pure_bind, refused, same, if_false]
    rfl

theorem reads_expect {kind : Kind} {token : Token} (same : token.kind = kind) (hint : Text) :
    Reads stops (expect kind hint) [token] token := by
  intro cursor after rest ahead _
  have here := current_of_upcoming ahead
  refine ⟨cursor.advance, ?_, Cursor.upcoming_advance ahead⟩
  rw [run_expect, here, if_pos same]

theorem Reads.before {parser : Parse α} {ts : List Token} {value : α} {fewer : Token → Prop}
    (reads : Reads stops parser ts value) (met : ∀ token, fewer token → stops token) :
    Reads fewer parser ts value :=
  fun cursor next rest ahead stop => reads cursor next rest ahead (met next stop)

theorem Reads.anywhere {parser : Parse α} {ts : List Token} {value : α}
    (reads : Reads (fun _ => True) parser ts value) : Reads stops parser ts value :=
  reads.before fun _ _ => trivial

/-- A first parser stops at the first token of a second, or where the second stops. -/
theorem first_behind {between : Token → Prop} {us rest : List Token} {behind : Token}
    (stop : stops behind) (met : ∀ token rest, us = token :: rest → between token)
    (through_ : us = [] → ∀ token, stops token → between token) :
    ∃ token more, us ++ behind :: rest = token :: more ∧ between token := by
  cases us with
  | nil => exact ⟨behind, rest, rfl, through_ rfl behind stop⟩
  | cons token more => exact ⟨token, _, rfl, met token more rfl⟩

theorem Reads.bind {parser : Parse α} {next : α → Parse β} {ts us : List Token} {value : α}
    {result : β} {between : Token → Prop} (first : Reads between parser ts value)
    (met : ∀ token rest, us = token :: rest → between token)
    (through_ : us = [] → ∀ token, stops token → between token)
    (second : Reads stops (next value) us result) :
    Reads stops (parser >>= next) (ts ++ us) result := by
  intro cursor behind rest ahead stop
  obtain ⟨token, more, same, stopped⟩ := first_behind stop met through_
  rw [List.append_assoc, same] at ahead
  obtain ⟨middle, ran, left⟩ := first cursor token more ahead stopped
  obtain ⟨after, finished, last⟩ := second middle behind rest (left.trans same.symm) stop
  exact ⟨after, run_bind_iff.mpr ⟨value, middle, ran, finished⟩, last⟩

theorem Reads.then_ {parser : Parse α} {next : α → Parse β} {ts us : List Token} {value : α}
    {result : β} (first : Reads (fun _ => True) parser ts value)
    (second : Reads stops (next value) us result) :
    Reads stops (parser >>= next) (ts ++ us) result :=
  first.bind (fun _ _ _ => trivial) (fun _ _ _ => trivial) second

theorem Reads.cons {parser : Parse α} {next : α → Parse β} {token : Token} {us : List Token}
    {value : α} {result : β} (first : Reads (fun _ => True) parser [token] value)
    (second : Reads stops (next value) us result) :
    Reads stops (parser >>= next) (token :: us) result :=
  first.then_ second

theorem Reads.finish {parser : Parse α} {next : α → Parse β} {ts : List Token} {value : α}
    {result : β} (first : Reads stops parser ts value) (second : Reads stops (next value) [] result) :
    Reads stops (parser >>= next) ts result := by
  rw [← List.append_nil ts]
  exact first.bind (by simp) (fun _ _ stop => stop) second

theorem reads_peek {next : Token → Parse β} {token : Token} {ts : List Token} {result : β}
    (rest : Reads stops (next token) (token :: ts) result) :
    Reads stops (peek >>= next) (token :: ts) result := by
  intro cursor behind more ahead stop
  obtain ⟨after, ran, left⟩ := rest cursor behind more ahead stop
  rw [← current_of_upcoming ahead] at ran
  exact ⟨after, ran, left⟩

theorem reads_isAt {kind : Kind} {next : Bool → Parse β} {token : Token} {ts : List Token}
    {result : β} (rest : Reads stops (next (decide (token.kind = kind))) (token :: ts) result) :
    Reads stops (isAt kind >>= next) (token :: ts) result := by
  intro cursor behind more ahead stop
  obtain ⟨after, ran, left⟩ := rest cursor behind more ahead stop
  rw [← current_of_upcoming ahead] at ran
  exact ⟨after, ran, left⟩

theorem reads_isAt_end {kind : Kind} {next : Bool → Parse β} {result : β} (found : Bool)
    (known : ∀ token, stops token → decide (token.kind = kind) = found)
    (rest : Reads stops (next found) [] result) : Reads stops (isAt kind >>= next) [] result := by
  intro cursor behind more ahead stop
  obtain ⟨after, ran, left⟩ := rest cursor behind more ahead stop
  rw [← known behind stop, ← current_of_upcoming ahead] at ran
  exact ⟨after, ran, left⟩

theorem reads_peek_end {next : Token → Parse β} {result : β}
    (rest : ∀ token, stops token → Reads (· = token) (next token) [] result) :
    Reads stops (peek >>= next) [] result := by
  intro cursor behind more ahead stop
  obtain ⟨after, ran, left⟩ := rest behind stop cursor behind more ahead rfl
  rw [← current_of_upcoming ahead] at ran
  exact ⟨after, ran, left⟩

/-- Repetition is bounded by the tokens that are left, which are more than those that are read. -/
theorem reads_many {starts : Kind → Bool} {item : Parse α} {ts : List Token} {items : List α}
    (bounded : ∀ bound, ts.length < bound → Reads stops (collect starts item bound) ts items) :
    Reads stops (many starts item) ts items := by
  intro cursor next rest ahead stop
  apply bounded cursor.remaining _ cursor next rest ahead stop
  rw [cursor.remaining_eq, ahead]
  simp

theorem reads_collect_none {starts : Kind → Bool} {item : Parse α} {bound : Nat}
    (ended : ∀ token, stops token → starts token.kind = false) :
    Reads stops (collect starts item bound) [] [] := by
  cases bound with
  | zero => exact reads_pure []
  | succ bound =>
    apply reads_peek_end
    intro token stop
    rw [ended token stop]
    exact reads_pure []

end Parse

namespace Tier

/-- The tiers that a parser of a tier has tried on the token behind an expression before it goes on at
its own. -/
def inside : Tier → List Tier
  | .primary | .access => []
  | .comparison => [.access]
  | .product => [.access, .comparison]
  | .terms => [.access, .comparison, .product]
  | .sum => [.access, .comparison, .product, .terms]
  | .object => [.access, .comparison, .product, .terms, .sum]
  | .assignment => [.access, .comparison, .product, .terms, .sum, .assignment]

def Free (tier : Tier) (token : Token) : Prop := ∀ other ∈ tier.inside, other.continues token = false

/-- The tiers whose expressions grow to the right, step by step. -/
def isChain (tier : Tier) : Bool :=
  tier = .access || tier.isBinary || tier = .sum

theorem Free.tighter {tier : Tier} {token : Token} (free : tier.Free token) :
    tier.tighter.Free token := by
  intro other member
  apply free
  cases tier <;> cases other <;> simp_all [inside, Tier.tighter]

theorem Free.stopped {tier : Tier} {token : Token} (free : tier.Free token) :
    tier.tighter.continues token = false := by
  cases tier
  case primary | access | assignment => rfl
  all_goals exact free _ (by simp [inside, Tier.tighter])

theorem free_of_continues {tier : Tier} {token : Token} (chain : tier.isChain = true)
    (continued : tier.continues token = true) : tier.Free token := by
  intro other member
  -- the kind decides, except between the operators of terms and of products
  cases tier
  case terms =>
    simp only [continues, Grammar.isOperator, Bool.and_eq_true, decide_eq_true_eq] at continued
    obtain ⟨kind, spelled⟩ := continued
    have plain : [utf8 "*", utf8 "/", utf8 "%"].contains token.literal = false := by
      simp only [List.contains_cons, List.contains_nil, Bool.or_false, Bool.or_eq_true, beq_iff_eq]
        at spelled
      rcases spelled with same | same <;> rw [same] <;> decide
    simp only [inside, List.mem_cons, List.not_mem_nil, or_false] at member
    rcases member with rfl | rfl | rfl
    · simp [continues, Grammar.startsSuffix, kind]
    · simp [continues, kind]
    · rw [continues, Grammar.isOperator, plain, Bool.and_false]
  all_goals
    cases other <;>
      simp_all [continues, inside, isChain, isBinary, Grammar.startsSuffix, Grammar.isOperator]

/-- The parser of a tier. -/
def parser (inner : Parse Expr) : Tier → Parse Expr
  | .primary => Grammar.primary inner
  | .access => Grammar.access inner
  | .comparison => Grammar.comparison inner
  | .product => Grammar.product inner
  | .terms => do
    Parse.chain (Grammar.isOperator [utf8 "+", utf8 "-"]) (Grammar.operation (Grammar.product inner))
      (← Grammar.product inner)
  | .sum => Grammar.sum inner
  | .object => Grammar.object inner
  | .assignment => Grammar.assignment inner

/-- How a tier carries on an expression. -/
def step (inner : Parse Expr) (tier : Tier) (e : Expr) : Parse Expr :=
  match tier with
  | .access => Grammar.suffix inner e
  | .comparison | .product | .terms => Grammar.operation (tier.tighter.parser inner) e
  | .sum => Grammar.increment e
  | _ => pure e

theorem parser_of_chain (inner : Parse Expr) {tier : Tier} (chain : tier.isChain = true) :
    tier.parser inner = tier.tighter.parser inner >>= Parse.chain tier.continues (tier.step inner) := by
  cases tier
  case access | comparison | product | terms => rfl
  case sum =>
    simp only [parser, Grammar.sum, Tier.tighter, bind_assoc]
    rfl
  all_goals cases chain

/-- What a parser of a tier does behind an expression of that tier. -/
def resume (inner : Parse Expr) (tier : Tier) (bound : Nat) (e : Expr) : Parse Expr :=
  if tier.isChain then Parse.extend tier.continues (tier.step inner) bound e else pure e

end Tier

namespace Grammar

open Parse

variable {inner : Parse Expr} {tier : Tier} {ts us : List Token} {e result : Expr}

/-- The parser of a tier takes the tokens and goes on behind them as it does behind the expression. -/
def Resumes (inner : Parse Expr) (tier : Tier) (ts : List Token) (e : Expr) : Prop :=
  ∀ cursor next rest, cursor.upcoming = ts ++ next :: rest → tier.Free next →
    ∃ bound after, rest.length < bound ∧ after.upcoming = next :: rest ∧
      (tier.parser inner).run cursor = (tier.resume inner bound e).run after

theorem Resumes.of_reads (single : tier.isChain = false)
    (reads : Reads tier.Free (tier.parser inner) ts e) : Resumes inner tier ts e := by
  intro cursor next rest ahead free
  obtain ⟨after, ran, left⟩ := reads cursor next rest ahead free
  refine ⟨rest.length + 1, after, Nat.lt_succ_self _, left, ?_⟩
  rw [ran, Tier.resume, single]
  rfl

/-- Where the token behind does not carry the expression on, it is what the parser returns. -/
theorem Resumes.reads (resumes : Resumes inner tier ts e) :
    Reads (fun token => tier.Free token ∧ tier.continues token = false) (tier.parser inner) ts e := by
  rintro cursor next rest ahead ⟨free, stopped⟩
  obtain ⟨bound, after, more, left, ran⟩ := resumes cursor next rest ahead free
  refine ⟨after, ?_, left⟩
  rw [ran, Tier.resume]
  split
  · obtain ⟨bound, rfl⟩ : ∃ fewer, bound = fewer + 1 := ⟨bound - 1, by omega⟩
    change (if tier.continues after.current then _ else pure e : Parse Expr).run after = _
    rw [current_of_upcoming left, stopped]
    rfl
  · rfl

/-- An expression of a tighter tier is one of a tier that grows, with no step yet. -/
theorem Resumes.through (chain : tier.isChain = true) (tighter : Resumes inner tier.tighter ts e) :
    Resumes inner tier ts e := by
  intro cursor next rest ahead free
  obtain ⟨after, ran, left⟩ :=
    tighter.reads cursor next rest ahead ⟨free.tighter, free.stopped⟩
  refine ⟨after.remaining, after, by simp [after.remaining_eq, left], left, ?_⟩
  rw [Tier.parser_of_chain inner chain, StateT.run_bind, ran, Tier.resume, chain]
  rfl

theorem Resumes.step {operator : Token} (chain : tier.isChain = true)
    (left : Resumes inner tier ts e) (continued : tier.continues operator = true)
    (reads : Reads tier.Free (tier.step inner e) (operator :: us) result) :
    Resumes inner tier (ts ++ operator :: us) result := by
  intro cursor next rest ahead free
  rw [List.append_assoc] at ahead
  obtain ⟨bound, middle, more, here, ran⟩ :=
    left cursor operator (us ++ next :: rest) ahead (Tier.free_of_continues chain continued)
  obtain ⟨after, stepped, behind⟩ := reads middle next rest here free
  -- the bound is spent on this step, and the tokens of the step make up for it
  obtain ⟨fewer, rfl⟩ : ∃ fewer, bound = fewer + 1 := ⟨bound - 1, by omega⟩
  refine ⟨fewer, after, by simp at more; omega, behind, ?_⟩
  rw [ran, Tier.resume, Tier.resume, chain]
  change (if tier.continues middle.current then _ else pure e : Parse Expr).run middle = _
  rw [current_of_upcoming here, continued]
  change (tier.step inner e >>= fun found => extend tier.continues (tier.step inner) fewer found).run
    middle = _
  rw [StateT.run_bind, stepped]
  rfl

/-- The kinds of the tokens that an expression may start with; an object starts with a brace. -/
def starters : List Kind := [.name, .number, .openParen, .quote, .apostrophe, .unaryOperator]

theorem head_of_derives (derived : e.Derives tier ts) :
    ∃ first rest, ts = first :: rest ∧ (first.kind ∈ starters ∨
      first.kind = .openBrace ∧ (tier = .object ∨ tier = .assignment)) := by
  induction derived with
  | @through tier _ _ _ ih =>
    obtain ⟨first, rest, same, starts⟩ := ih
    refine ⟨first, rest, same, starts.imp_right (And.imp_right ?_)⟩
    cases tier <;> simp [Tier.tighter]
  | name kind => exact ⟨_, _, rfl, by simp [kind, starters]⟩
  | number kind => exact ⟨_, _, rfl, by simp [kind, starters]⟩
  | group kind => exact ⟨_, _, rfl, by simp [kind, starters]⟩
  | quoted kind => exact ⟨_, _, rfl, by rcases kind with kind | kind <;> simp [kind, starters]⟩
  | bare kind => exact ⟨_, _, rfl, by simp [kind, starters]⟩
  | object kind => exact ⟨_, _, rfl, .inr ⟨kind, .inl rfl⟩⟩
  | call _ _ _ _ _ ih | computed _ _ _ _ ih | named _ _ _ ih | decimal _ _ _ _ _ ih
  | increment _ _ ih | operation _ _ _ _ ih | assign _ _ _ ih =>
    obtain ⟨first, rest, rfl, starts⟩ := ih
    exact ⟨first, _, rfl, by simpa using starts⟩

/-- The parser of nested expressions reads the phrases of fewer than `n` tokens. -/
def ReadsBelow (inner : Parse Expr) (n : Nat) : Prop :=
  ∀ us e, e.Derives .assignment us → us.length < n → Reads (Tier.Free .assignment) inner us e

/-- A token behind a phrase that no tier carries on: one that closes something or separates. -/
theorem free_assignment {token : Token}
    (kind : token.kind ∈ [.closeParen, .closeBracket, .closeBrace, .comma, .semicolon]) :
    Tier.Free .assignment token := by
  intro other _
  simp only [List.mem_cons, List.not_mem_nil, or_false] at kind
  rcases kind with kind | kind | kind | kind | kind <;> cases other <;>
    simp [Tier.continues, startsSuffix, isOperator, kind]

theorem Resumes.reads_primary (resumes : Resumes inner .primary ts e) :
    Reads (fun _ => True) (primary inner) ts e :=
  resumes.reads.before fun _ _ => ⟨by simp [Tier.Free, Tier.inside], rfl⟩

section Forms
variable {opening closing : Token}

theorem reads_group (opens : opening.kind = .openParen)
    (reads : Reads (Tier.Free .assignment) inner ts e) (closes : closing.kind = .closeParen) :
    Reads (fun _ => True) (primary inner) (opening :: (ts ++ [closing])) e := by
  apply reads_peek
  rw [opens]
  apply (reads_next opening).cons
  refine reads.bind ?_ (by simp) ((reads_expect closes _).finish (reads_pure e))
  rintro _ _ ⟨⟩
  exact free_assignment (by simp [closes])

theorem reads_quoted {value : Token} (quote : opening.kind = .quote ∨ opening.kind = .apostrophe)
    (string : value.kind = .string) (same : closing.kind = opening.kind) :
    Reads (fun _ => True) (primary inner) [opening, value, closing] (.string value value.literal) := by
  have text : Reads (fun _ => True) (quotedText opening) [opening, value, closing]
      (.string value value.literal) := by
    apply (reads_next opening).cons
    apply (reads_expect string _).cons
    exact (reads_expect same _).finish (reads_pure _)
  apply reads_peek
  rcases quote with kind | kind <;> rw [kind] <;> exact text

theorem reads_number {token : Token} {value : Float} (kind : token.kind = .number)
    (read : Number.read? token.literal = some value) :
    Reads (fun _ => True) (primary inner) [token] (.number token value token.literal) := by
  apply reads_peek
  rw [kind]
  apply (reads_next token).finish
  rw [read]
  exact reads_pure _

theorem reads_others {item : Phrase Expr} {rest : List (Phrase Expr)}
    (listed : Listed (item :: rest) ts)
    (each : ∀ other ∈ rest, Reads (Tier.Free .assignment) inner other.tokens other.tree) :
    ∃ us, ts = item.tokens ++ us ∧ (∀ token more, us = token :: more → token.kind = .comma) ∧
      ∀ bound, us.length < bound →
        Reads (·.kind = .closeParen) (collect (· = .comma) (do let _ ← next; inner) bound) us
          (rest.map Phrase.tree) := by
  -- on the items behind the first: each brings its comma, and the next comma ends it
  induction rest generalizing item ts with
  | nil =>
    cases listed
    refine ⟨[], by simp, by simp, fun bound _ => reads_collect_none ?_⟩
    intro token kind
    simp [kind]
  | cons second rest ih =>
    cases listed with
    | @more _ _ _ comma tokens kind listed =>
      obtain ⟨us, rfl, commas, reads⟩ := ih listed fun other member => each other (by simp [member])
      refine ⟨comma :: (second.tokens ++ us), rfl, ?_, ?_⟩
      · rintro _ _ ⟨⟩
        exact kind
      intro bound more
      obtain ⟨fewer, rfl⟩ : ∃ fewer, bound = fewer + 1 := ⟨bound - 1, by omega⟩
      apply reads_peek
      rw [kind]
      have first : Reads (Tier.Free .assignment) (do let _ ← next; inner) (comma :: second.tokens)
          second.tree := (reads_next comma).cons (each second (by simp))
      refine first.bind ?_ ?_ ((reads fewer ?_).finish (reads_pure _))
      · intro token more same
        exact free_assignment (by simp [commas token more same])
      · intro _ token closes
        exact free_assignment (by simp [closes])
      · simp at more
        omega

theorem reads_arguments {items : List (Phrase Expr)} (opens : opening.kind = .openParen)
    (listed : Listed items us) (derived : ∀ item ∈ items, item.tree.Derives .assignment item.tokens)
    (each : ∀ item ∈ items, Reads (Tier.Free .assignment) inner item.tokens item.tree)
    (closes : closing.kind = .closeParen) :
    Reads (fun _ => True) (arguments inner) (opening :: (us ++ [closing])) (items.map Phrase.tree) := by
  apply (reads_expect opens _).cons
  cases items with
  | nil =>
    cases listed
    apply reads_isAt
    rw [closes]
    exact (reads_next closing).finish (reads_pure _)
  | cons item rest =>
    obtain ⟨others, rfl, commas, reads⟩ := reads_others listed fun other member =>
      each other (by simp [member])
    obtain ⟨first, more, same, starts⟩ := head_of_derives (derived item (by simp))
    -- no argument starts with the parenthesis that would close an empty list
    have inside : first.kind ≠ .closeParen := by
      rintro kind
      simp [kind, starters] at starts
    rw [List.append_assoc, same, List.cons_append]
    apply reads_isAt
    rw [decide_eq_false inside, ← List.cons_append, ← same]
    refine (each item (by simp)).bind ?_ (by simp) ?_
    · intro token more whole
      cases others with
      | nil =>
        cases whole
        exact free_assignment (by simp [closes])
      | cons comma _ =>
        cases whole
        exact free_assignment (by simp [commas token _ rfl])
    · refine (reads_many reads).bind ?_ (by simp) ((reads_expect closes _).finish (reads_pure _))
      rintro _ _ ⟨⟩
      exact closes

theorem reads_property {entry : Entry} (formed : entry.Formed)
    (each : ∀ value ∈ entry.value, Reads (Tier.Free .assignment) inner value.tokens value.tree) :
    Reads (·.kind = .closeBrace) (property inner) entry.tokens entry.tree := by
  obtain ⟨key, colon, value⟩ := entry
  have name : key.kind = .name := formed.key
  cases value with
  | none =>
    apply (reads_next key).cons
    simp only [name, ne_eq, not_true_eq_false, if_false]
    apply reads_peek_end
    intro token closes
    rw [closes]
    exact reads_pure _
  | some value =>
    have separates : colon.kind = .colon := formed.colon (by simp)
    apply (reads_next key).cons
    simp only [name, ne_eq, not_true_eq_false, if_false]
    apply reads_peek
    rw [separates]
    apply (reads_expect separates _).cons
    refine Reads.finish ((each value rfl).before ?_) ?_
    · intro token closes
      exact free_assignment (by simp [closes])
    · refine reads_isAt_end true ?_ (reads_pure _)
      intro token closes
      exact decide_eq_true closes

theorem reads_property_comma {entry : Entry} {comma : Token} (formed : entry.Formed)
    (each : ∀ value ∈ entry.value, Reads (Tier.Free .assignment) inner value.tokens value.tree)
    (separates : comma.kind = .comma) :
    Reads (fun _ => True) (property inner) (entry.tokens ++ [comma]) entry.tree := by
  obtain ⟨key, colon, value⟩ := entry
  have name : key.kind = .name := formed.key
  cases value with
  | none =>
    apply (reads_next key).cons
    simp only [name, ne_eq, not_true_eq_false, if_false]
    apply reads_peek
    rw [separates]
    exact (reads_next comma).finish (reads_pure _)
  | some value =>
    have divides : colon.kind = .colon := formed.colon (by simp)
    apply (reads_next key).cons
    simp only [name, ne_eq, not_true_eq_false, if_false]
    apply reads_peek
    rw [divides]
    apply (reads_expect divides _).cons
    refine (each value rfl).bind ?_ (by simp) ?_
    · rintro _ _ ⟨⟩
      exact free_assignment (by simp [separates])
    · apply reads_isAt
      simp only [separates, reduceCtorEq, decide_false, Bool.false_eq_true, if_false]
      exact (reads_expect separates _).finish (reads_pure _)

theorem reads_properties {entries : List Entry} (enumerated : Enumerated entries us)
    (each : ∀ entry ∈ entries, ∀ value ∈ entry.value,
      Reads (Tier.Free .assignment) inner value.tokens value.tree) :
    ∀ bound, us.length < bound →
      Reads (·.kind = .closeBrace) (collect insideBraces (property inner) bound) us
        (entries.map Entry.tree) := by
  have started {entry : Entry} (formed : entry.Formed) : ∃ key more, entry.tokens = key :: more ∧
      insideBraces key.kind = true := by
    obtain ⟨key, colon, value⟩ := entry
    have name : key.kind = .name := formed.key
    cases value <;> exact ⟨key, _, rfl, by simp [name, insideBraces]⟩
  have ended : ∀ token : Token, token.kind = .closeBrace → insideBraces token.kind = false := by
    intro token closes
    simp [closes, insideBraces]
  induction enumerated with
  | none => exact fun bound _ => reads_collect_none ended
  | @one entry formed =>
    intro bound more
    obtain ⟨fewer, rfl⟩ : ∃ fewer, bound = fewer + 1 := ⟨bound - 1, by omega⟩
    have first := reads_property formed (each entry (by simp))
    obtain ⟨key, rest, same, starts⟩ := started formed
    rw [same] at first ⊢
    apply reads_peek
    rw [starts]
    exact first.finish ((reads_collect_none ended).finish (reads_pure _))
  | @more entry rest comma tokens formed separates _ ih =>
    intro bound more
    obtain ⟨fewer, rfl⟩ : ∃ fewer, bound = fewer + 1 := ⟨bound - 1, by omega⟩
    have first := reads_property_comma formed (each entry (by simp)) separates
    have others := ih (fun other member => each other (by simp [member])) fewer (by simp at more; omega)
    obtain ⟨key, behind, same, starts⟩ := started formed
    rw [List.append_cons]
    rw [same] at first ⊢
    apply reads_peek
    rw [starts]
    exact first.then_ (others.finish (reads_pure _))

theorem reads_object {entries : List Entry} (opens : opening.kind = .openBrace)
    (enumerated : Enumerated entries us)
    (each : ∀ entry ∈ entries, ∀ value ∈ entry.value,
      Reads (Tier.Free .assignment) inner value.tokens value.tree)
    (closes : closing.kind = .closeBrace) :
    Reads (fun _ => True) (object inner) (opening :: (us ++ [closing]))
      (.object opening (entries.map Entry.tree)) := by
  apply reads_isAt
  rw [opens]
  apply (reads_next opening).cons
  refine (reads_many (reads_properties enumerated each)).bind ?_ (by simp)
    ((reads_expect closes _).finish (reads_pure _))
  rintro _ _ ⟨⟩
  exact closes

theorem reads_computedMember (opens : opening.kind = .openBracket)
    (reads : Reads (Tier.Free .assignment) inner ts e) (closes : closing.kind = .closeBracket)
    (holder : Expr) :
    Reads (fun _ => True) (suffix inner holder) (opening :: (ts ++ [closing]))
      (.member opening holder e true) := by
  apply reads_peek
  rw [opens]
  apply (reads_next opening).cons
  refine reads.bind ?_ (by simp) ((reads_expect closes _).finish (reads_pure _))
  rintro _ _ ⟨⟩
  exact free_assignment (by simp [closes])

theorem reads_namedMember {point : Token} {holder key : Expr} (dot : point.kind = .dot)
    (derived : key.Derives .primary ts) (reads : Reads (fun _ => True) (primary inner) ts key)
    (joined : ∀ token, Reads (fun _ => True) (match holder, key with
      | .number whole _ wholeText, .number _ _ fractionText => joinDecimal whole wholeText fractionText
      | _, .ident _ => return .member point holder key false
      | _, _ => failAt token (Fault.memberNotName.about "Got" key.text)) [] result) :
    Reads (fun _ => True) (suffix inner holder) (point :: ts) result := by
  apply reads_peek
  rw [dot]
  apply (reads_next point).cons
  obtain ⟨first, more, rfl, -⟩ := head_of_derives derived
  apply reads_peek
  exact reads.finish (joined first)

theorem reads_operation {operand : Parse Expr} {stops : Token → Prop} (operator : Token)
    (reads : Reads stops operand ts e) (left : Expr) :
    Reads stops (operation operand left) (operator :: ts)
      (.binary operator operator.literal left e) :=
  (reads_next operator).cons (reads.finish (reads_pure _))

end Forms

/-- A phrase of a tier is read to its end by the parser of the tier, if the parser of nested expressions
reads what is shorter. -/
theorem resumes_of_derives {n : Nat} (below : ReadsBelow inner n) (derived : e.Derives tier ts)
    (short : ts.length ≤ n) : Resumes inner tier ts e := by
  -- what stands in brackets is shorter, so `below` reads it; parts of the same phrase are read by the
  -- induction
  induction derived with
  | @through tier ts e derived ih =>
    have resumes := ih short
    cases tier
    case primary => exact resumes
    case object =>
      obtain ⟨first, rest, rfl, starts⟩ := head_of_derives derived
      have noBrace : first.kind ≠ .openBrace := by
        intro kind
        simp [kind, starters, Tier.tighter] at starts
      apply Resumes.of_reads rfl
      apply reads_isAt
      rw [decide_eq_false noBrace]
      exact resumes.reads.before fun token free => ⟨free.tighter, free.stopped⟩
    case assignment =>
      apply Resumes.of_reads rfl
      refine Reads.finish (resumes.reads.before fun token free => ⟨free.tighter, free.stopped⟩) ?_
      refine reads_isAt_end false ?_ (reads_pure e)
      intro token free
      exact free .assignment (by simp [Tier.inside])
    all_goals exact resumes.through rfl
  | name kind =>
    apply Resumes.of_reads rfl
    apply reads_peek
    rw [kind]
    exact (reads_next _).finish (reads_pure _)
  | number kind read => exact Resumes.of_reads rfl (reads_number kind read).anywhere
  | @group _ ts _ _ opens derived closes =>
    have reads := below ts _ derived (by simp at short; omega)
    exact Resumes.of_reads rfl (reads_group opens reads closes).anywhere
  | quoted quote string same =>
    exact Resumes.of_reads rfl (reads_quoted quote string same).anywhere
  | bare kind =>
    apply Resumes.of_reads rfl
    apply reads_peek
    rw [kind]
    exact (reads_next _).finish (reads_pure _)
  | @call ts callee opening items inside closing _ opens listed derived closes ih _ =>
    have each : ∀ item ∈ items, Reads (Tier.Free .assignment) inner item.tokens item.tree := by
      intro item member
      have := (listed.sublist item member).length_le
      exact below item.tokens item.tree (derived item member) (by simp at short; omega)
    refine (ih (by simp at short; omega)).step rfl (by simp [Tier.continues, startsSuffix, opens]) ?_
    apply reads_peek
    rw [opens]
    have reads := reads_arguments opens listed derived each closes
    exact reads.anywhere.finish (reads_pure _)
  | @computed ts holder opening inside key closing _ opens derived closes ih _ =>
    have reads := below inside key derived (by simp at short; omega)
    refine (ih (by simp at short; omega)).step rfl (by simp [Tier.continues, startsSuffix, opens]) ?_
    exact (reads_computedMember opens reads closes holder).anywhere
  | @named ts holder point inside name _ dot derived ih key =>
    have reads := (key (by simp at short; omega)).reads_primary
    refine (ih (by simp at short; omega)).step rfl (by simp [Tier.continues, startsSuffix, dot]) ?_
    apply Reads.anywhere
    apply reads_namedMember dot derived reads
    intro token
    cases holder <;> exact reads_pure _
  | @decimal ts token v whole point inside other w fraction value _ dot derived plain read ih key =>
    have reads := (key (by simp at short; omega)).reads_primary
    refine (ih (by simp at short; omega)).step rfl (by simp [Tier.continues, startsSuffix, dot]) ?_
    apply Reads.anywhere
    apply reads_namedMember dot derived reads
    intro _
    simp only [joinDecimal, plain, Bool.false_eq_true, if_false, read]
    exact reads_pure _
  | @operation tier ts left operator inside right binary continued _ _ ih operand =>
    have chain : tier.isChain = true := by simp [Tier.isChain, binary]
    have reads := (operand (by simp at short; omega)).reads
    refine (ih (by simp at short; omega)).step chain continued ?_
    have stepped := reads_operation operator reads left
    have same : tier.step inner left = Grammar.operation (tier.tighter.parser inner) left := by
      cases tier <;> first | rfl | cases binary
    rw [same]
    exact stepped.before fun token free => ⟨free.tighter, free.stopped⟩
  | increment _ kind ih =>
    refine (ih (by simp at short; omega)).step rfl (by simp [Tier.continues, kind]) ?_
    exact (reads_next _).cons (reads_pure _)
  | @object opening entries inside closing opens enumerated derived closes _ =>
    have each : ∀ entry ∈ entries, ∀ value ∈ entry.value,
        Reads (Tier.Free .assignment) inner value.tokens value.tree := by
      intro entry member value some_
      have := ((Entry.sublist some_).trans (enumerated.sublist entry member)).length_le
      exact below _ _ (derived entry member value some_) (by simp at short; omega)
    exact Resumes.of_reads rfl (reads_object opens enumerated each closes).anywhere
  | @assign ts target equals inside value _ kind derived ih _ =>
    have reads := below inside value derived (by simp at short; omega)
    apply Resumes.of_reads rfl
    refine (ih (by simp at short; omega)).reads.bind ?_ (by simp) ?_
    · rintro _ _ ⟨⟩
      exact ⟨by simp [Tier.Free, Tier.inside, Tier.continues, startsSuffix, isOperator, kind], rfl⟩
    apply reads_isAt
    rw [kind]
    exact (reads_next equals).cons (reads.finish (reads_pure _))

theorem readsBelow_nested (depth : Nat) : ReadsBelow (nested depth) (depth + 1) := by
  -- a phrase has a token, and one nested in it has two fewer
  induction depth with
  | zero =>
    intro us e derived short
    obtain ⟨first, rest, rfl, -⟩ := head_of_derives derived
    simp at short
  | succ depth ih =>
    intro us e derived short
    have resumes := resumes_of_derives ih derived (by omega)
    exact resumes.reads.before fun token free => ⟨free, free .assignment (by simp [Tier.inside])⟩

/-- A phrase of an expression is read to its end before a token that does not carry it on. -/
theorem reads_expression (derived : e.Derives .assignment ts) :
    Reads (Tier.Free .assignment) expression ts e := by
  intro cursor next rest ahead free
  have short : ts.length < cursor.remaining + 1 := by
    rw [cursor.remaining_eq, ahead, List.length_append, List.length_cons]
    omega
  exact readsBelow_nested cursor.remaining ts e derived short cursor next rest ahead free

theorem reads_comparison (derived : e.Derives .comparison ts) :
    Reads (fun token => Tier.Free .comparison token ∧ Tier.continues .comparison token = false)
      (comparison expression) ts e :=
  (resumes_of_derives (fun _ _ read _ => reads_expression read) derived (Nat.le_refl _)).reads

end Grammar

end Scriptlet
