import Mathlib.Data.List.Basic
import Scriptlet.Proofs.Memory
/-!
Calls of one parser. Between two calls its cursor may stand on any token of what it scanned last.
Neither that place nor anything else it remembers shows in an answer, apart from the count of scans.
-/
namespace Scriptlet

theorem Cursor.restart_restart (c : Cursor) : c.restart.restart = c.restart :=
  restart_startOf _

namespace Parser

/-- What a call shows: its result, and how many scans and which faults there are behind it. -/
structure Answer where
  result : Except Diagnostic Program
  scans : Nat
  faults : List Diagnostic

def answer (parser : Parser) (source : Text) : Answer :=
  let (result, after) := parser.parse source
  ⟨result, after.scans, after.faults⟩

/-- The parser as it may be found later, its cursor on any token of the sequence that it holds. -/
inductive Strays : Parser → Parser → Prop where
  | empty {parser} : parser.held = none → Strays parser parser
  | holding {parser source cursor} (other : Cursor) :
      parser.held = some (source, cursor) → other.tokens = cursor.tokens →
        Strays parser { parser with held := some (source, other) }

/-- Calls on sources one after another, with their answers. -/
inductive Calls : Parser → List Text → List Answer → Prop where
  | done {parser} : Calls parser [] []
  | call {parser left source rest answers} :
      Strays (parser.parse source).2 left → Calls left rest answers →
        Calls parser (source :: rest) (parser.answer source :: answers)

/-- The text of the scan that is held after calls on sources, if the last scan did not fail. A call on
the text that is held does not scan. -/
def heldScan (keywords : Keywords) (sources : List Text) : Option Text :=
  sources.foldl (fun held source =>
    if held = some source then held
    else if (scan keywords source).isOk then some source else none) none

/-- How many of the calls on sources find no scan of their source held. -/
def scansMade (keywords : Keywords) (sources : List Text) : Nat :=
  (List.range sources.length).countP fun i => heldScan keywords (sources.take i) ≠ sources[i]?

/-- The faults that go with a result. -/
def faultsOf : Except Diagnostic Program → List Diagnostic
  | .ok _ => []
  | .error fault => [fault]

theorem heldScan_concat (keywords : Keywords) (history : List Text) (source : Text) :
    heldScan keywords (history ++ [source]) =
      if heldScan keywords history = some source then some source
      else if (scan keywords source).isOk then some source else none := by
  rw [heldScan, List.foldl_append, ← heldScan]
  by_cases same : heldScan keywords history = some source <;> simp [same]

theorem scansMade_concat (keywords : Keywords) (history : List Text) (source : Text) :
    scansMade keywords (history ++ [source]) =
      scansMade keywords history + if heldScan keywords history = some source then 0 else 1 := by
  have earlier : (List.range history.length).countP
      (fun i => heldScan keywords ((history ++ [source]).take i) ≠ (history ++ [source])[i]?) =
        scansMade keywords history := by
    apply List.countP_congr
    intro i member
    have inside : i < history.length := List.mem_range.mp member
    rw [List.take_append_of_le_length (Nat.le_of_lt inside), List.getElem?_append_left inside]
  rw [scansMade, List.length_append, List.length_singleton, List.range_succ, List.countP_append,
    earlier]
  by_cases same : heldScan keywords history = some source <;> simp [same]

/-- The parser with its cursor back on the first token. -/
def rewound (parser : Parser) : Parser :=
  { parser with held := parser.held.map fun held => (held.1, held.2.restart) }

theorem Strays.rewound {parser left : Parser} (strays : Strays parser left) : left.rewound = parser.rewound := by
  cases strays with
  | empty => rfl
  | holding other held same => simp [Parser.rewound, held, Cursor.restart, same]

theorem finish_rewound (parser : Parser) (cursor : Cursor) :
    parser.rewound.finish cursor =
      ((parser.finish cursor).1, (parser.finish cursor).2.rewound) := by
  unfold finish
  split <;> rfl

theorem parseNew_rewound (parser : Parser) (source : Text) :
    parser.rewound.parseNew source =
      ((parser.parseNew source).1, (parser.parseNew source).2.rewound) := by
  have words : parser.rewound.keywords = parser.keywords := rfl
  unfold parseNew
  rw [words]
  rcases scan parser.keywords source with fault | tokens
  · rfl
  · -- the new cursor stands on the first token already
    let scanned : Parser :=
      { parser with held := some (source, Cursor.ofTokens tokens), scans := parser.scans + 1 }
    have same : scanned.rewound = scanned := by
      simp [scanned, rewound, Cursor.restart_ofTokens]
    have finished := finish_rewound scanned (Cursor.ofTokens tokens)
    rw [same] at finished
    exact finished

theorem parse_rewound (parser : Parser) (source : Text) :
    parser.rewound.parse source = ((parser.parse source).1, (parser.parse source).2.rewound) := by
  rcases held : parser.held with _ | ⟨text, cursor⟩
  · have empty : parser.rewound.held = none := by simp [rewound, held]
    simp only [Parser.parse, held, empty]
    exact parseNew_rewound parser source
  · have back : parser.rewound.held = some (text, cursor.restart) := by simp [rewound, held]
    simp only [Parser.parse, held, back]
    split
    · rw [Cursor.restart_restart]
      exact finish_rewound parser cursor.restart
    · exact parseNew_rewound parser source

theorem faults_finish (parser : Parser) (cursor : Cursor) :
    (parser.finish cursor).2.faults = faultsOf (parser.finish cursor).1 := by
  unfold finish
  split <;> rfl

theorem faults_parseNew (parser : Parser) (source : Text) :
    (parser.parseNew source).2.faults = faultsOf (parser.parseNew source).1 := by
  unfold parseNew
  split
  · exact faults_finish _ _
  · rfl

theorem faults_parse (parser : Parser) (source : Text) :
    (parser.parse source).2.faults = faultsOf (parser.parse source).1 := by
  unfold Parser.parse
  split
  · split
    · exact faults_finish _ _
    · exact faults_parseNew _ _
  · exact faults_parseNew _ _

theorem scans_finish (parser : Parser) (cursor : Cursor) :
    (parser.finish cursor).2.scans = parser.scans := by
  unfold finish
  split <;> rfl

theorem scans_parseNew (parser : Parser) (source : Text) :
    (parser.parseNew source).2.scans = parser.scans + 1 := by
  unfold parseNew
  split
  · exact scans_finish _ _
  · rfl

theorem held_parseNew (parser : Parser) (source : Text) :
    (parser.parseNew source).2.held.map Prod.fst =
      if (scan parser.keywords source).isOk then some source else none := by
  unfold parseNew
  split
  · rename_i scanned
    rw [held_finish, scanned]
    rfl
  · rename_i scanned
    rw [scanned]
    rfl

/-- A call scans unless its source is the text that is held, and holds what could be scanned. -/
theorem scans_held_parse (parser : Parser) (source : Text) :
    (parser.parse source).2.scans =
        parser.scans + (if parser.held.map Prod.fst = some source then 0 else 1) ∧
      (parser.parse source).2.held.map Prod.fst =
        if parser.held.map Prod.fst = some source then some source
        else if (scan parser.keywords source).isOk then some source else none := by
  rcases held : parser.held with _ | ⟨text, cursor⟩
  · simp only [Parser.parse, held, scans_parseNew, held_parseNew]
    simp
  · by_cases same : text = source
    · simp [Parser.parse, held, same, scans_finish, held_finish]
    · simp [Parser.parse, held, same, scans_parseNew, held_parseNew]

/-- The parser is as calls on a history leave it, wherever its cursor stands. -/
structure Remembers (keywords : Keywords) (history : List Text) (parser : Parser) : Prop where
  words : parser.keywords = keywords
  scans : parser.scans = scansMade keywords history
  held : parser.held.map Prod.fst = heldScan keywords history
  faithful : parser.rewound.Faithful

section Memory
variable {parser left : Parser} {keywords : Keywords} {history : List Text}

theorem remembers_new (keywords : Keywords) : Remembers keywords [] { keywords } := by
  refine ⟨rfl, rfl, rfl, ?_⟩
  rintro _ _ ⟨⟩

theorem Remembers.result (remembers : Remembers keywords history parser) (source : Text) :
    (parser.parse source).1 = parseFresh keywords source := by
  have back := (remembers.faithful.parse source).1
  rw [parse_rewound] at back
  rw [← remembers.words]
  exact back

theorem Remembers.parse (remembers : Remembers keywords history parser) (source : Text) :
    Remembers keywords (history ++ [source]) (parser.parse source).2 := by
  obtain ⟨scans, held⟩ := scans_held_parse parser source
  refine ⟨(keywords_parse parser source).trans remembers.words, ?_, ?_, ?_⟩
  · rw [scans, scansMade_concat, remembers.scans, remembers.held]
  · rw [held, heldScan_concat, remembers.held, remembers.words]
  · have back := (remembers.faithful.parse source).2
    rwa [parse_rewound] at back

theorem Remembers.strays (remembers : Remembers keywords history parser)
    (strays : Strays parser left) : Remembers keywords history left := by
  have faithful : left.rewound.Faithful := strays.rewound ▸ remembers.faithful
  cases strays with
  | empty => exact remembers
  | holding other held _ =>
    refine ⟨remembers.words, remembers.scans, ?_, faithful⟩
    rw [← remembers.held, held]
    rfl

theorem Remembers.answers (remembers : Remembers keywords history parser) {sources : List Text}
    {answers : List Answer} (calls : Calls parser sources answers) :
    answers.length = sources.length ∧
      ∀ (i : Nat) (source : Text) (answer : Answer), sources[i]? = some source →
        answers[i]? = some answer →
          answer.result = parseFresh keywords source ∧
            answer.scans = scansMade keywords (history ++ sources.take (i + 1)) ∧
              answer.faults = faultsOf answer.result := by
  induction calls generalizing history with
  | done => simp
  | @call parser left source rest answers strays _ ih =>
    obtain ⟨length, later⟩ := ih ((remembers.parse source).strays strays)
    refine ⟨by simp [length], ?_⟩
    rintro (_ | i) other found asked given
    · obtain rfl : source = other := by simpa using asked
      obtain rfl : parser.answer source = found := by simpa using given
      exact ⟨remembers.result source, (remembers.parse source).scans, faults_parse parser source⟩
    · have split := later i other found (by simpa using asked) (by simpa using given)
      rw [List.append_assoc] at split
      exact split

end Memory

theorem exists_calls (parser : Parser) (sources : List Text) : ∃ answers, Calls parser sources answers := by
  have stays (parser : Parser) : Strays parser parser := by
    rcases held : parser.held with _ | ⟨text, cursor⟩
    · exact .empty held
    · have strays := Strays.holding cursor held rfl
      rwa [← held] at strays
  induction sources generalizing parser with
  | nil => exact ⟨[], .done⟩
  | cons source rest ih =>
    obtain ⟨answers, calls⟩ := ih (parser.parse source).2
    exact ⟨parser.answer source :: answers, .call (stays _) calls⟩

/-- A parser answers calls on any sources, and whatever it remembers and wherever a call left its
cursor, each is answered as a new parser would answer it. A call scans unless its own text is held from
the last scan; its faults are those of its result. -/
theorem memory_invisible (keywords : Keywords) (sources : List Text) :
    (∃ answers, Calls { keywords } sources answers) ∧
      ∀ answers, Calls { keywords } sources answers →
        answers.length = sources.length ∧
          ∀ (i : Nat) (source : Text) (answer : Answer), sources[i]? = some source →
            answers[i]? = some answer →
              answer.result = (Parser.parse { keywords } source).1 ∧
                answer.scans = scansMade keywords (sources.take (i + 1)) ∧
                  answer.faults = faultsOf answer.result := by
  refine ⟨exists_calls _ sources, ?_⟩
  intro answers calls
  obtain ⟨length, each⟩ := (remembers_new keywords).answers calls
  refine ⟨length, ?_⟩
  intro i source answer asked given
  obtain ⟨result, scans, faults⟩ := each i source answer asked given
  refine ⟨?_, scans, faults⟩
  rw [result]
  exact (result_parseNew { keywords } source).symm

/-- A program twice, a source that cannot be scanned twice, one that cannot be parsed twice, and the
program again. -/
def troubled : List Text :=
  [utf8 "1;", utf8 "1;", utf8 "&", utf8 "&", utf8 "let a = ;", utf8 "let a = ;", utf8 "1;"]

theorem troubled_scans :
    ∃ answers, Calls { keywords := Keywords.default } troubled answers ∧
      answers.map Answer.scans = [1, 1, 2, 3, 4, 4, 5] := by
  obtain ⟨⟨answers, calls⟩, all⟩ := memory_invisible Keywords.default troubled
  obtain ⟨length, each⟩ := all answers calls
  have counted : answers.map Answer.scans =
      (List.range 7).map fun i => scansMade Keywords.default (troubled.take (i + 1)) := by
    apply List.ext_getElem
    · simpa [troubled] using length
    · intro i inside _
      have short : i < answers.length := by simpa using inside
      have within : i < troubled.length := length ▸ short
      have shown := each i troubled[i] answers[i] (by simp) (by simp)
      simpa using shown.2.1
  refine ⟨answers, calls, ?_⟩
  rw [counted]
  decide +kernel

end Parser

end Scriptlet
