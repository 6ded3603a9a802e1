import Mathlib.Logic.Basic
import Scriptlet.Eval.Operator
import Scriptlet.Grammar.Parser
/-!
How tokens are spelled. Scanning makes number tokens of digits only and operator tokens of the
operators of the language only, and moving a cursor shows no other tokens than those scanned.
-/
namespace Scriptlet

/-- One digit or more. -/
def Text.IsDigits (text : Text) : Prop := text ≠ [] ∧ ∀ byte ∈ text, isDigit byte = true

/-- The spellings of the operators that compare and those that join truth values. -/
def Comparison.spellings : List Text :=
  [utf8 "==", utf8 "<", utf8 ">", utf8 "<=", utf8 ">=", utf8 "&&", utf8 "||"]

/-- The spellings of the operators that calculate. -/
def Arithmetic.spellings : List Text := [utf8 "+", utf8 "-", utf8 "*", utf8 "/", utf8 "%"]

/-- The spellings of the operators that stand behind their operand. -/
def doubledOperators : List Text := [utf8 "++", utf8 "--", utf8 "**", utf8 "//"]

theorem Arithmetic.ofText?_isSome {text : Text} (spelled : text ∈ spellings) :
    (ofText? text).isSome = true := by
  simp only [spellings, List.mem_cons, List.not_mem_nil, or_false] at spelled
  rcases spelled with rfl | rfl | rfl | rfl | rfl <;> decide

/-- The texts that tokens of a kind have. Kinds that no rule of evaluation looks at the text of have
any. -/
def Kind.Spells : Kind → Text → Prop
  | .number, text => text.IsDigits
  | .booleanOperator, text => text ∈ Comparison.spellings
  | .binaryOperator, text => text ∈ Arithmetic.spellings
  | .unaryOperator, text => text ∈ doubledOperators
  | _, _ => True

def Token.Spelled (token : Token) : Prop := token.kind.Spells token.literal

namespace Lexeme

/-- All tokens of a lexeme are spelled as their kinds demand. -/
def Spelled (lexeme : Lexeme) : Prop :=
  ∀ p, ∀ token ∈ lexeme.tokens Keywords.default p, token.Spelled

theorem spelled_symbol {kind : Kind} {text : Text} (spells : kind.Spells text) :
    (Lexeme.symbol kind text).Spelled := by
  intro p token member
  obtain rfl := List.mem_singleton.mp member
  exact spells

theorem spelled_digits {text : Text} (digits : text.IsDigits) : (Lexeme.digits text).Spelled := by
  intro p token member
  obtain rfl := List.mem_singleton.mp member
  exact digits

theorem spelled_word (text : Text) : (Lexeme.word text).Spelled := by
  intro p token member
  obtain rfl := List.mem_singleton.mp member
  change (Keywords.default.kindOf text).Spells text
  rw [Keywords.kindOf]
  rcases found : Keywords.default.lookup text with _ | kind
  · exact trivial
  · obtain ⟨before, after, whole, -⟩ := List.lookup_eq_some_iff.mp found
    have reserved : (text, kind) ∈ Keywords.default := by simp [whole]
    simp only [Keywords.default, List.mem_cons, Prod.mk.injEq, List.not_mem_nil, or_false] at reserved
    rcases reserved with ⟨-, rfl⟩ | ⟨-, rfl⟩ | ⟨-, rfl⟩ | ⟨-, rfl⟩ | ⟨-, rfl⟩ | ⟨-, rfl⟩ | ⟨-, rfl⟩ |
      ⟨-, rfl⟩ <;> exact trivial

theorem spelled_quoted (mark : UInt8) (body value : Text) :
    (Lexeme.quoted mark body value).Spelled := by
  intro p token member
  simp only [tokens, List.mem_cons, List.not_mem_nil, or_false] at member
  rcases member with rfl | rfl | rfl
  · by_cases mark = Text.apostrophe <;> simp [*, Token.Spelled, Kind.Spells]
  · exact trivial
  · by_cases mark = Text.apostrophe <;> simp [*, Token.Spelled, Kind.Spells]

theorem spells_of_delimiter? {byte : UInt8} {kind : Kind} (found : delimiter? byte = some kind) :
    kind.Spells [byte] := by
  have percent : [37] ∈ Arithmetic.spellings := by decide
  simp only [delimiter?, ite_eq_iff, beq_iff_eq, Option.some.injEq] at found
  repeat
    rcases found with ⟨rfl, rfl⟩ | ⟨-, found⟩
    · first | exact trivial | exact percent
  cases found

theorem spelled_of_readDoubling {byte : UInt8} {rest after : Text} {lexeme : Lexeme}
    (operator : byte = 43 ∨ byte = 45 ∨ byte = 42 ∨ byte = 47)
    (read : readDoubling byte rest = (lexeme, after)) : lexeme.Spelled := by
  have alone : [byte] ∈ Arithmetic.spellings := by
    rcases operator with rfl | rfl | rfl | rfl <;> decide
  have doubled : [byte, byte] ∈ doubledOperators := by
    rcases operator with rfl | rfl | rfl | rfl <;> decide
  unfold readDoubling at read
  repeat' split at read
  all_goals cases read
  · exact spelled_symbol doubled
  · exact spelled_symbol alone
  · exact spelled_symbol alone

theorem spelled_of_readEquals {alone : Kind} {byte : UInt8} {rest after : Text} {lexeme : Lexeme}
    (spells : alone.Spells [byte]) (equals : [byte, 61] ∈ Comparison.spellings)
    (read : readEquals alone byte rest = (lexeme, after)) : lexeme.Spelled := by
  unfold readEquals at read
  repeat' split at read
  all_goals cases read
  · exact spelled_symbol equals
  · exact spelled_symbol spells
  · exact spelled_symbol spells

theorem isDigits_takeWhile {byte : UInt8} (digit : Text.isDigit byte = true) (rest : Text) :
    Text.IsDigits (byte :: rest.takeWhile Text.isDigit) := by
  constructor
  · simp
  · intro other member
    rcases List.mem_cons.mp member with rfl | later
    · exact digit
    · exact List.all_eq_true.mp List.all_takeWhile other later

/-- Whatever lexeme is read, its tokens are spelled as their kinds demand. -/
theorem spelled_of_read {byte : UInt8} {rest after : Text} {lexeme : Lexeme}
    (read : Lexeme.read byte rest = .ok (lexeme, after)) : lexeme.Spelled := by
  unfold Lexeme.read at read
  repeat' split at read
  all_goals first | contradiction | simp only [Except.ok.injEq] at read
  case h_1 kind found =>
    cases read
    exact spelled_symbol (spells_of_delimiter? found)
  case h_1.isTrue =>
    cases read
    exact spelled_quoted _ _ _
  case h_2.isFalse.isTrue operator =>
    exact spelled_of_readDoubling (by simpa [or_assoc] using operator) read
  case h_2.isFalse.isFalse.isTrue order =>
    have which : byte = 62 ∨ byte = 60 := by simpa using order
    have alone : Kind.booleanOperator.Spells [byte] :=
      show [byte] ∈ Comparison.spellings by rcases which with rfl | rfl <;> decide
    have equals : [byte, 61] ∈ Comparison.spellings := by rcases which with rfl | rfl <;> decide
    exact spelled_of_readEquals alone equals read
  case h_2.isFalse.isFalse.isFalse.isTrue equals =>
    obtain rfl : byte = 61 := by simpa using equals
    have alone : Kind.assign.Spells [61] := trivial
    exact spelled_of_readEquals alone (by decide) read
  case h_1.isTrue half _ _ _ same =>
    have which : byte = 38 ∨ byte = 124 := by simpa using half
    have doubled : [byte, byte] ∈ Comparison.spellings := by rcases which with rfl | rfl <;> decide
    cases read
    exact spelled_symbol doubled
  case h_2.isFalse.isFalse.isFalse.isFalse.isFalse.isTrue =>
    cases read
    exact spelled_word _
  case h_2.isFalse.isFalse.isFalse.isFalse.isFalse.isFalse.isTrue digit =>
    cases read
    exact spelled_digits (isDigits_takeWhile digit rest)

end Lexeme

theorem spelled_of_scanFrom {p : Position} {input : Text} {tokens : List Token}
    (scanned : scanFrom Keywords.default p input = .ok tokens) :
    ∀ token ∈ tokens, token.Spelled := by
  fun_induction scanFrom Keywords.default p input generalizing tokens with
  | case1 =>
    cases scanned
    intro token member
    obtain rfl := List.mem_singleton.mp member
    exact trivial
  | case2 => cases scanned
  | case3 => cases scanned
  | case4 _ _ start byte rest gap lexeme after read later found =>
    rename_i ih
    cases scanned
    intro token member
    rcases List.mem_append.mp member with first | others
    · exact Lexeme.spelled_of_read read _ token first
    · exact ih found token others

theorem spelled_of_scan {source : Text} {tokens : List Token}
    (scanned : scan Keywords.default source = .ok tokens) : ∀ token ∈ tokens, token.Spelled :=
  spelled_of_scanFrom scanned

namespace Cursor

/-- The current token and all later ones are spelled as their kinds demand. -/
def Spelled (cursor : Cursor) : Prop := ∀ token ∈ cursor.current :: cursor.later, token.Spelled

theorem Spelled.current {cursor : Cursor} (spelled : cursor.Spelled) : cursor.current.Spelled :=
  spelled _ List.mem_cons_self

theorem Spelled.advance {cursor : Cursor} (spelled : cursor.Spelled) : cursor.advance.Spelled := by
  unfold Cursor.advance
  split
  · exact spelled
  · rename_i next rest after
    intro token member
    exact spelled token (List.mem_cons_of_mem _ (after ▸ member))

theorem kind_of_expectation {cursor : Cursor} {kind : Kind} {hint : Text}
    (met : cursor.expectation kind hint = none) : cursor.current.kind = kind := by
  simpa [expectation, isAt] using met

theorem spelled_startOf {tokens : List Token} (all : ∀ token ∈ tokens, token.Spelled) :
    (startOf tokens).Spelled := by
  cases tokens with
  | nil =>
    intro token member
    obtain rfl := List.mem_singleton.mp member
    exact trivial
  | cons first rest => exact all

theorem spelled_ofTokens {tokens : List Token} (all : ∀ token ∈ tokens, token.Spelled) :
    (ofTokens tokens).Spelled := by
  have closed : ∀ token ∈ tokens ++ [closing], token.Spelled := by
    intro token member
    rcases List.mem_append.mp member with scanned | last
    · exact all token scanned
    · obtain rfl := List.mem_singleton.mp last
      exact trivial
  unfold ofTokens
  apply spelled_startOf
  split
  · split
    · exact all
    · exact closed
  · exact fun token member => closed token (List.mem_append_right _ member)

end Cursor

end Scriptlet
