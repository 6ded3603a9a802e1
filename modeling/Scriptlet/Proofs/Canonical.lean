import Scriptlet.Proofs.Completeness
import Scriptlet.Proofs.Writing
/-!
The canonical text of expressions. It puts parentheses around operations but none around assignments
and objects, and it writes strings without escapes; so it stands for its tree only where assignments and
objects are in roles that any expression may have, and where strings hold no quotes and no backslashes.
There it is cut into the tokens of a phrase of the tree.
-/
namespace Scriptlet

/-- Where an expression stands in the node around it. -/
inductive Role where
  | statement
  /-- To the right of an assignment. -/
  | assigned
  /-- The initial value of a declaration. -/
  | initial
  | property
  | argument
  /-- The name of a computed member. -/
  | key
  /-- The condition of a link of a conditional chain. -/
  | condition
  /-- The step of a `for` loop. -/
  | step
  /-- To the left of an assignment. -/
  | target
  | operand
  | callee
  /-- What a member is taken of. -/
  | holder
  /-- The name of a member that is not computed. -/
  | name
  /-- The condition of a loop. -/
  | test
  deriving DecidableEq

/-- The roles in which assignments stand without parentheses. -/
def Role.isLoose : Role → Bool
  | .statement | .assigned | .initial | .property | .argument | .key | .condition | .step => true
  | .target | .operand | .callee | .holder | .name | .test => false

mutual

/-- The nodes inside an expression, with their roles. -/
def Expr.parts : Expr → List (Role × Expr)
  | .absent | .ident _ | .number _ _ _ | .string _ _ | .boolean _ _ => []
  | .object _ properties => propertyParts properties
  | .assign _ target value => (.target, target) :: target.parts ++ (.assigned, value) :: value.parts
  | .binary _ _ left right => (.operand, left) :: left.parts ++ (.operand, right) :: right.parts
  | .unary _ _ operand => (.operand, operand) :: operand.parts
  | .call _ callee arguments => (.callee, callee) :: callee.parts ++ argumentParts arguments
  | .member _ object property computed =>
    (.holder, object) :: object.parts
      ++ (if computed then .key else .name, property) :: property.parts

def argumentParts : List Expr → List (Role × Expr)
  | [] => []
  | e :: rest => (.argument, e) :: e.parts ++ argumentParts rest

def propertyParts : List (Ident × Expr) → List (Role × Expr)
  | [] => []
  | (_, value) :: rest => (.property, value) :: value.parts ++ propertyParts rest

end

/-- An expression in its role, and the nodes inside it. -/
def Expr.nodes (role : Role) (e : Expr) : List (Role × Expr) := (role, e) :: e.parts

/-- A text that is written between quotes as it is. -/
def Text.isPlain (text : Text) : Bool :=
  text.all fun byte => byte != quoteMark && byte != apostrophe && byte != backslash

/-- Whether the canonical text of a node can stand for it in its role. -/
def Expr.printsAs (role : Role) : Expr → Bool
  | .string _ value => value.isPlain
  | .assign _ _ _ => role.isLoose
  | .object _ _ => role.isLoose || role = .target
  | _ => true

/-- Whether the leaf that an expression starts with is a name. It is looked for in the targets of
assignments, in what is called and in what members are taken of. -/
def Expr.startsWithName : Expr → Bool
  | .ident _ => true
  | .assign _ target _ => target.startsWithName
  | .call _ callee _ => callee.startsWithName
  | .member _ holder _ _ => holder.startsWithName
  | _ => false

/-- The tightest tier of the canonical text of an expression. -/
def Expr.tier : Expr → Tier
  | .number _ _ text => if text.contains 46 then .access else .primary
  | .call _ _ _ | .member _ _ _ _ => .access
  | .object _ _ => .object
  | .assign _ _ _ => .assignment
  | _ => .primary

namespace Expr

variable {e : Expr} {role : Role} {ts us : List Token}

/-- All nodes can be written in their roles. -/
def Fits (role : Role) (e : Expr) : Prop := ∀ node ∈ e.nodes role, node.2.printsAs node.1 = true

/-- The tokens that the canonical text is cut into are a phrase of the tree. -/
structure Canonical (e : Expr) (us : List Token) : Prop where
  derives : e.Derives e.tier us
  written : Written Loose us e.text
  starts : ∀ first ∈ us.head?, first.kind = .name ↔ e.startsWithName = true

def Prints (e : Expr) : Prop := ∃ us, e.Canonical us

theorem Derives.loosen {tier : Tier} (derived : e.Derives .access ts) (some_ : tier ≠ .primary) :
    e.Derives tier ts := by
  cases tier with
  | primary => exact absurd rfl some_
  | access => exact derived
  | comparison => exact .through derived
  | product => exact .through (.through derived)
  | terms => exact .through (.through (.through derived))
  | sum => exact .through (.through (.through (.through derived)))
  | object => exact .through (.through (.through (.through (.through derived))))
  | assignment => exact .through (.through (.through (.through (.through (.through derived)))))

theorem Derives.widen {tier : Tier} (derived : e.Derives tier ts) : e.Derives .assignment ts := by
  cases tier with
  | primary => exact Derives.loosen (.through derived) (by decide)
  | access => exact derived.loosen (by decide)
  | comparison => exact .through (.through (.through (.through (.through derived))))
  | product => exact .through (.through (.through (.through derived)))
  | terms => exact .through (.through (.through derived))
  | sum => exact .through (.through derived)
  | object => exact .through derived
  | assignment => exact derived

theorem tier_cases (e : Expr) :
    e.tier = .primary ∨ e.tier = .access ∨ e.tier = .object ∨ e.tier = .assignment := by
  cases e with
  | number token value text =>
    rw [tier]
    split
    · exact .inr (.inl rfl)
    · exact .inl rfl
  | _ => simp [tier]

theorem Canonical.access (canonical : e.Canonical us) (fits : e.Fits role)
    (tight : role.isLoose = false) (noTarget : role ≠ .target) : e.Derives .access us := by
  have derives := canonical.derives
  have prints := fits _ List.mem_cons_self
  rcases e.tier_cases with same | same | same | same <;> rw [same] at derives
  · exact .through derives
  · exact derives
  all_goals
    cases e <;> simp_all [tier, printsAs]
  all_goals
    split at same <;> cases same

theorem Canonical.object (canonical : e.Canonical us) (fits : e.Fits .target) :
    e.Derives .object us := by
  have derives := canonical.derives
  have prints := fits _ List.mem_cons_self
  rcases e.tier_cases with same | same | same | same <;> rw [same] at derives
  · exact Derives.loosen (.through derives) (by decide)
  · exact derives.loosen (by decide)
  · exact derives
  · cases e <;> simp_all [tier, printsAs, Role.isLoose]
    split at same <;> cases same

theorem Canonical.assignment (canonical : e.Canonical us) : e.Derives .assignment us :=
  canonical.derives.widen

/-- The condition of a loop is read as a comparison, and any operation in parentheses passes for one. -/
theorem Canonical.test (canonical : e.Canonical us) (fits : e.Fits .test) : e.Derives .comparison us :=
  (canonical.access fits rfl (by decide)).loosen (by decide)

theorem Canonical.starts_append (canonical : e.Canonical us) (more : List Token) :
    ∀ first ∈ (us ++ more).head?, first.kind = .name ↔ e.startsWithName = true := by
  rw [List.head?_append_of_ne_nil us canonical.derives.ne_nil]
  exact canonical.starts

theorem text_unary {token : Token} {operator : Text} {operand : Expr} (some_ : operand ≠ .absent) :
    (unary token operator operand).text = utf8 "(" ++ operand.text ++ operator ++ utf8 ")" := by
  cases operand <;> first | exact absurd rfl some_ | rfl

theorem Derives.ne_absent {tier : Tier} (derived : e.Derives tier ts) : e ≠ .absent := by
  induction derived with
  | through _ ih => exact ih
  | group _ _ _ ih => exact ih
  | _ => simp

section Forms
variable {token : Token} (proper : token.Proper)
include proper

theorem prints_name (kind : token.kind = .name) : (ident ⟨token, token.literal⟩).Prints := by
  refine ⟨[token], .name kind, proper.name kind, ?_⟩
  rintro _ ⟨⟩
  simp [kind, startsWithName]

theorem prints_number {value : Float} (kind : token.kind = .number)
    (read : Number.read? token.literal = some value) :
    (number token value token.literal).Prints := by
  have digits := proper.digits kind
  -- digits hold no point, so this is a number of the tightest tier
  have plain : token.literal.contains 46 = false := by
    rw [← Bool.not_eq_true, List.contains_iff_mem]
    intro point
    have := digits.2 46 point
    revert this
    decide
  refine ⟨[token], ?_, written_number kind digits, ?_⟩
  · rw [tier, plain]
    exact .number kind read
  · rintro _ ⟨⟩
    simp [kind, startsWithName]

theorem prints_bare (kind : token.kind = .unaryOperator) :
    (unary token token.literal .absent).Prints := by
  refine ⟨[token], .bare kind, (proper.doubled kind).anywhere, ?_⟩
  rintro _ ⟨⟩
  simp [kind, startsWithName]

omit proper in
theorem prints_string (kind : token.kind = .string) (plain : token.literal.isPlain = true) :
    (string token token.literal).Prints := by
  have safe : ∀ byte ∈ token.literal,
      byte ≠ Text.quoteMark ∧ byte ≠ Text.apostrophe ∧ byte ≠ Text.backslash := by
    intro byte member
    simpa [and_assoc] using List.all_eq_true.mp plain byte member
  have mark : (Token.plain .quote "\"").content = (.quote, [Text.quoteMark]) := by decide
  refine ⟨[.plain .quote "\"", token, .plain .quote "\""], ?_, ?_, ?_⟩
  · exact .quoted (.inl rfl) kind rfl
  · exact (written_quoted mark mark kind safe).anywhere
  · rintro _ ⟨⟩
    simp [startsWithName, Token.plain]

/-- An operation is written in parentheses, whichever rule made it. -/
theorem prints_binary {left right : Expr} {tier : Tier} (binary_ : tier.isBinary = true)
    (continued : tier.continues token = true) (fitsLeft : left.Fits .operand)
    (fitsRight : right.Fits .operand) (first : left.Prints) (second : right.Prints) :
    (binary token token.literal left right).Prints := by
  obtain ⟨ls, canonicalLeft⟩ := first
  obtain ⟨rs, canonicalRight⟩ := second
  have listed : (token.literal, token.kind) ∈ Lexeme.symbols := by
    have kind : token.kind = .booleanOperator ∨ token.kind = .binaryOperator := by
      cases tier <;> simp_all [Tier.isBinary, Tier.continues, Grammar.isOperator]
    rcases kind with kind | kind <;> rw [kind] <;> exact proper.symbol kind (by decide)
  -- in their parentheses the operands are of the tightest tier that an operation takes
  have some_ : tier ≠ .primary ∧ tier.tighter ≠ .primary := by
    cases tier <;> simp_all [Tier.isBinary, Tier.tighter]
  refine ⟨.plain .openParen "(" :: (ls ++ token :: rs ++ [.plain .closeParen ")"]), ?_, ?_, ?_⟩
  · have operation : (binary token token.literal left right).Derives tier (ls ++ token :: rs) :=
      .operation binary_ continued
        ((canonicalLeft.access fitsLeft rfl (by decide)).loosen some_.1)
        ((canonicalRight.access fitsRight rfl (by decide)).loosen some_.2)
    exact .group rfl operation.widen rfl
  · have opened := (written_plain .openParen "(" (by decide)).then_
      canonicalLeft.written
    have operator := (opened.apart written_space (by decide)).then_ (written_operator listed)
    have closed := (operator.spaced.then_ canonicalRight.written).apart
      (written_plain .closeParen ")" (by decide)) (by decide)
    apply Written.anywhere
    simpa only [text, List.append_assoc, List.cons_append, List.nil_append, List.append_nil] using closed
  · rintro _ ⟨⟩
    simp [startsWithName, Token.plain]

theorem prints_increment {operand : Expr} (kind : token.kind = .unaryOperator)
    (some_ : operand ≠ .absent) (fits : operand.Fits .operand) (prints : operand.Prints) :
    (unary token token.literal operand).Prints := by
  obtain ⟨us, canonical⟩ := prints
  refine ⟨.plain .openParen "(" :: (us ++ [token] ++ [.plain .closeParen ")"]), ?_, ?_, ?_⟩
  · have sum := (canonical.access fits rfl (by decide)).loosen (show Tier.sum ≠ .primary by decide)
    exact .group rfl (Derives.widen (.increment sum kind)) rfl
  · rw [text_unary some_]
    have opened := (written_plain .openParen "(" (by decide)).then_
      canonical.written
    have visible := visible_of_symbol _ (proper.symbol kind (by decide))
    have closed := (opened.apart (proper.doubled kind) visible).then_
      (written_plain .closeParen ")" (by decide))
    apply Written.anywhere
    simpa only [List.append_assoc, List.cons_append, List.nil_append, List.append_nil] using closed
  · rintro _ ⟨⟩
    simp [startsWithName, Token.plain]

theorem prints_assign {target value : Expr} (kind : token.kind = .assign)
    (fits : target.Fits .target) (left : target.Prints) (right : value.Prints) :
    (assign token target value).Prints := by
  obtain ⟨ls, canonicalLeft⟩ := left
  obtain ⟨rs, canonicalRight⟩ := right
  refine ⟨ls ++ token :: rs, .assign (canonicalLeft.object fits) kind canonicalRight.assignment, ?_, ?_⟩
  · have listed : (token.literal, token.kind) ∈ Lexeme.symbols := by
      rw [kind]
      exact proper.symbol kind (by decide)
    have literal := proper.literal_eq (utf8 "=") kind (by decide)
    have operator := (canonicalLeft.written.apart written_space (by decide)).then_
      (written_operator listed)
    have whole := operator.spaced.then_ canonicalRight.written
    have split : utf8 " = " = utf8 " " ++ utf8 "=" ++ utf8 " " := by decide
    simpa only [text, split, literal, List.append_assoc, List.cons_append, List.nil_append,
      List.append_nil] using whole
  · exact canonicalLeft.starts_append _

theorem prints_computed {holder key : Expr} (kind : token.kind = .openBracket)
    (fits : holder.Fits .holder) (left : holder.Prints) (right : key.Prints) :
    (member token holder key true).Prints := by
  obtain ⟨ls, canonicalLeft⟩ := left
  obtain ⟨rs, canonicalRight⟩ := right
  refine ⟨ls ++ token :: (rs ++ [.plain .closeBracket "]"]), ?_, ?_, ?_⟩
  · exact .computed (canonicalLeft.access fits rfl (by decide)) kind canonicalRight.assignment rfl
  · have opened := canonicalLeft.written.apart
      (proper.written (utf8 "[") kind (by decide) (by decide)) (by decide)
    have closed := (opened.then_ canonicalRight.written).apart
      (written_plain .closeBracket "]" (by decide)) (by decide)
    apply Written.anywhere
    simpa only [text, if_true, List.append_assoc, List.cons_append, List.nil_append,
      List.append_nil] using closed
  · exact canonicalLeft.starts_append _

theorem prints_named {holder : Expr} {name : Ident} (kind : token.kind = .dot)
    (fits : holder.Fits .holder) (left : holder.Prints) (right : (ident name).Prints) :
    (member token holder (.ident name) false).Prints := by
  obtain ⟨ls, canonicalLeft⟩ := left
  obtain ⟨rs, canonicalRight⟩ := right
  refine ⟨ls ++ token :: rs, ?_, ?_, canonicalLeft.starts_append _⟩
  · exact .named (canonicalLeft.access fits rfl (by decide)) kind canonicalRight.derives
  · have whole := (canonicalLeft.written.apart (proper.written (utf8 ".") kind (by decide) (by decide))
      (by decide)).then_ canonicalRight.written
    simpa only [text, Bool.false_eq_true, if_false, List.append_assoc, List.cons_append,
      List.nil_append, List.append_nil] using whole

omit proper in
theorem prints_decimal {other : Token} {v w value : Float} {whole fraction : Text}
    (plain : (whole.contains 46 || fraction.contains 46) = false)
    (read : Number.read? (whole ++ utf8 "." ++ fraction) = some value)
    (left : (number token v whole).Prints) (right : (number other w fraction).Prints) :
    (number token value (whole ++ utf8 "." ++ fraction)).Prints := by
  obtain ⟨ls, canonicalLeft⟩ := left
  obtain ⟨rs, canonicalRight⟩ := right
  obtain ⟨plainLeft, plainRight⟩ := Bool.or_eq_false_iff.mp plain
  have derivesLeft := canonicalLeft.derives
  have derivesRight := canonicalRight.derives
  rw [tier, plainLeft] at derivesLeft
  rw [tier, plainRight] at derivesRight
  refine ⟨ls ++ .plain .dot "." :: rs, ?_, ?_, ?_⟩
  · have point : (whole ++ utf8 "." ++ fraction).contains 46 = true := by
      have dot : utf8 "." = [46] := by decide
      simp [dot]
    rw [tier, point]
    exact .decimal (.through derivesLeft) rfl derivesRight plain read
  · have joined := (canonicalLeft.written.apart (written_plain .dot "." (by decide)) (by decide)).then_
      canonicalRight.written
    simpa only [text, List.append_assoc, List.cons_append, List.nil_append] using joined
  · exact canonicalLeft.starts_append _

end Forms

theorem written_comma : Written (fun _ => True) [.plain .comma ","] (utf8 ", ") :=
  (written_plain .comma "," (by decide)).then_ written_space

theorem listed_arguments {arguments : List Expr} (all : ∀ e ∈ arguments, e.Prints) :
    ∃ items us, Listed items us ∧ items.map Phrase.tree = arguments ∧
      (∀ item ∈ items, item.tree.Derives .assignment item.tokens) ∧
        Written Loose us (Text.join (utf8 ", ") (expressionTexts arguments)) := by
  induction arguments with
  | nil => exact ⟨[], [], .none, rfl, by simp, written_nil⟩
  | cons e rest ih =>
    obtain ⟨ts, canonical⟩ := all e List.mem_cons_self
    obtain ⟨items, us, listed, trees, derived, written⟩ :=
      ih fun other member => all other (List.mem_cons_of_mem _ member)
    cases items with
    | nil =>
      obtain rfl : [] = rest := trees
      refine ⟨[⟨ts, e⟩], ts, .one ⟨ts, e⟩, rfl, ?_, canonical.written⟩
      simpa using canonical.assignment
    | cons item items =>
      cases rest with
      | nil => cases trees
      | cons f rest =>
        refine ⟨⟨ts, e⟩ :: item :: items, ts ++ .plain .comma "," :: us, .more rfl listed,
          congrArg (e :: ·) trees, ?_, ?_⟩
        · intro phrase member
          rcases List.mem_cons.mp member with rfl | later
          · exact canonical.assignment
          · exact derived phrase later
        · have joined := (canonical.written.apart written_comma (by decide)).then_ written
          simpa only [expressionTexts, Text.join, List.append_assoc, List.cons_append,
            List.nil_append] using joined

/-- The key of a property, as parsing makes it. -/
structure Keyed (name : Ident) : Prop where
  kind : name.token.kind = .name
  text : name.text = name.token.literal
  proper : name.token.Proper

theorem entry_of_property {property : Ident × Expr} (keyed : Keyed property.1)
    (value : property.2 = .absent ∨ property.2.Prints) :
    ∃ (entry : Entry) (text : Text), entry.Formed ∧ entry.tree = property ∧
      (∀ value ∈ entry.value, value.tree.Derives .assignment value.tokens) ∧
        Written Loose entry.tokens text ∧
          ∀ rest, propertyTexts (property :: rest) = text :: propertyTexts rest := by
  obtain ⟨⟨token, literal⟩, e⟩ := property
  obtain ⟨kind, same, proper⟩ := keyed
  have key := proper.name kind
  change literal = token.literal at same
  subst same
  -- a property without a value is written as its key alone
  by_cases absent : e = .absent
  · subst absent
    exact ⟨⟨token, token, none⟩, token.literal, ⟨kind, absurd rfl⟩, rfl, by simp, key, fun _ => rfl⟩
  · obtain ⟨us, canonical⟩ := value.resolve_left absent
    refine ⟨⟨token, .plain .colon ":", some ⟨us, e⟩⟩, token.literal ++ utf8 ": " ++ e.text,
      ⟨kind, fun _ => rfl⟩, rfl, ?_, ?_, ?_⟩
    · rintro _ ⟨⟩
      exact canonical.assignment
    · have colon : Written (fun _ => True) [.plain .colon ":"] (utf8 ": ") :=
        (written_plain .colon ":" (by decide)).then_ written_space
      exact (key.apart colon (by decide)).then_ canonical.written
    · intro rest
      cases e <;> first | exact absurd rfl absent | rfl

theorem enumerated_properties {properties : List (Ident × Expr)}
    (keyed : ∀ property ∈ properties, Keyed property.1)
    (values : ∀ property ∈ properties, property.2 = .absent ∨ property.2.Prints) :
    ∃ entries us, Enumerated entries us ∧ entries.map Entry.tree = properties ∧
      (∀ entry ∈ entries, ∀ value ∈ entry.value, value.tree.Derives .assignment value.tokens) ∧
        Written Loose us (Text.join (utf8 ", ") (propertyTexts properties)) := by
  induction properties with
  | nil => exact ⟨[], [], .none, rfl, by simp, written_nil⟩
  | cons property rest ih =>
    obtain ⟨entry, text, formed, rfl, own, head, texts⟩ :=
      entry_of_property (keyed property List.mem_cons_self) (values property List.mem_cons_self)
    obtain ⟨entries, us, enumerated, trees, derived, written⟩ :=
      ih (fun other member => keyed other (List.mem_cons_of_mem _ member))
        fun other member => values other (List.mem_cons_of_mem _ member)
    cases rest with
    | nil =>
      refine ⟨[entry], entry.tokens, .one formed, rfl, by simpa using own, ?_⟩
      rw [texts]
      exact head
    | cons next rest =>
      refine ⟨entry :: entries, entry.tokens ++ .plain .comma "," :: us, .more formed rfl enumerated,
        congrArg (entry.tree :: ·) trees, ?_, ?_⟩
      · intro other member
        rcases List.mem_cons.mp member with rfl | later
        · exact own
        · exact derived other later
      · have joined := (head.apart written_comma (by decide)).then_ written
        rw [texts]
        obtain ⟨nextText, others⟩ : ∃ text, propertyTexts (next :: rest) = text :: propertyTexts rest := by
          obtain ⟨key, value⟩ := next
          cases value <;> exact ⟨_, rfl⟩
        rw [others] at joined ⊢
        simpa only [Text.join, List.append_assoc, List.cons_append, List.nil_append] using joined

theorem text_call (token : Token) (callee : Expr) (arguments : List Expr) :
    (call token callee arguments).text =
      callee.text ++ utf8 "(" ++ Text.join (utf8 ", ") (expressionTexts arguments) ++ utf8 ")" :=
  rfl

theorem text_object (token : Token) (properties : List (Ident × Expr)) :
    (object token properties).text =
      utf8 "\x7b" ++ Text.join (utf8 ", ") (propertyTexts properties) ++ utf8 "\x7d" :=
  rfl

theorem prints_call {token : Token} {callee : Expr} {arguments : List Expr} (proper : token.Proper)
    (kind : token.kind = .openParen) (fits : callee.Fits .callee) (left : callee.Prints)
    (all : ∀ e ∈ arguments, e.Prints) : (call token callee arguments).Prints := by
  obtain ⟨ls, canonical⟩ := left
  obtain ⟨items, us, listed, rfl, derived, written⟩ := listed_arguments all
  refine ⟨ls ++ token :: (us ++ [.plain .closeParen ")"]), ?_, ?_, canonical.starts_append _⟩
  · exact .call (canonical.access fits rfl (by decide)) kind listed derived rfl
  · have opened := canonical.written.apart
      (proper.written (utf8 "(") kind (by decide) (by decide)) (by decide)
    have closed := (opened.then_ written).apart (written_plain .closeParen ")" (by decide)) (by decide)
    apply Written.anywhere
    simpa only [text_call, List.append_assoc, List.cons_append, List.nil_append] using closed

theorem prints_object {token : Token} {properties : List (Ident × Expr)} (proper : token.Proper)
    (kind : token.kind = .openBrace) (keyed : ∀ property ∈ properties, Keyed property.1)
    (values : ∀ property ∈ properties, property.2 = .absent ∨ property.2.Prints) :
    (object token properties).Prints := by
  obtain ⟨entries, us, enumerated, rfl, derived, written⟩ := enumerated_properties keyed values
  refine ⟨token :: (us ++ [.plain .closeBrace "\x7d"]), ?_, ?_, ?_⟩
  · exact .object kind enumerated derived rfl
  · have opened := (proper.written (utf8 "\x7b") kind (by decide) (by decide)).then_ written
    have closed := opened.apart (written_plain .closeBrace "\x7d" (by decide)) (by decide)
    apply Written.anywhere
    simpa only [text_object, List.append_assoc, List.cons_append, List.nil_append] using closed
  · rintro _ ⟨⟩
    simp [kind, startsWithName]

theorem Fits.part {inner : Expr} {within : Role} (fits : e.Fits role)
    (inside : ∀ node ∈ inner.nodes within, node ∈ e.parts) : inner.Fits within :=
  fun node member => fits node (List.mem_cons_of_mem _ (inside node member))

theorem mem_argumentParts {arguments : List Expr} (given : e ∈ arguments) :
    ∀ node ∈ e.nodes .argument, node ∈ argumentParts arguments := by
  intro node member
  induction arguments with
  | nil => cases given
  | cons first rest ih =>
    rcases List.mem_cons.mp given with rfl | later
    · exact List.mem_append_left _ member
    · exact List.mem_append_right _ (ih later)

theorem mem_propertyParts {properties : List (Ident × Expr)} {property : Ident × Expr}
    (given : property ∈ properties) :
    ∀ node ∈ property.2.nodes .property, node ∈ propertyParts properties := by
  intro node member
  induction properties with
  | nil => cases given
  | cons first rest ih =>
    rcases List.mem_cons.mp given with rfl | later
    · exact List.mem_append_left _ member
    · exact List.mem_append_right _ (ih later)

theorem Fits.left {a b : List (Role × Expr)} {inner : Expr} {within : Role}
    (fits : e.Fits role) (parts : e.parts = a ++ b) (own : a = inner.nodes within) :
    inner.Fits within := by
  apply fits.part
  intro node member
  rw [parts, own]
  exact List.mem_append_left _ member

theorem Fits.right {a b : List (Role × Expr)} {inner : Expr} {within : Role}
    (fits : e.Fits role) (parts : e.parts = a ++ b) (own : b = inner.nodes within) :
    inner.Fits within := by
  apply fits.part
  intro node member
  rw [parts, own]
  exact List.mem_append_right _ member

/-- The canonical text of an expression that fits its role stands for it. -/
theorem prints_of_derives {tier : Tier} (derived : e.Derives tier ts)
    (proper : ∀ token ∈ ts, token.Proper) (fits : e.Fits role) : e.Prints := by
  -- on the phrase that the tree was read from: its tokens are still in the tree, and each part of the
  -- tree fits the role that the node around it gives it
  induction derived generalizing role with
  | through _ ih => exact ih proper fits
  | name kind => exact prints_name (proper _ (by simp)) kind
  | number kind read => exact prints_number (proper _ (by simp)) kind read
  | group _ _ _ ih => exact ih (fun token member => proper token (by simp [member])) fits
  | quoted _ string _ => exact prints_string string (fits _ List.mem_cons_self)
  | bare kind => exact prints_bare (proper _ (by simp)) kind
  | @call ts callee opening items inside closing _ opens listed _ _ ih each =>
    have fitsCallee : callee.Fits .callee := fits.left rfl rfl
    have left := ih (fun token member => proper token (by simp [member])) fitsCallee
    refine prints_call (proper opening (by simp)) opens fitsCallee left ?_
    intro e member
    obtain ⟨item, given, rfl⟩ := List.mem_map.mp member
    have fitsItem : item.tree.Fits .argument := fits.part fun node inner =>
      List.mem_append_right _ (mem_argumentParts member node inner)
    refine each item given ?_ fitsItem
    intro token inner
    exact proper token (by simp [(listed.sublist item given).subset inner])
  | @computed ts holder opening inside key closing _ opens _ _ ih read =>
    have fitsHolder : holder.Fits .holder := fits.left rfl rfl
    have fitsKey : key.Fits .key := fits.right rfl rfl
    exact prints_computed (proper opening (by simp)) opens fitsHolder
      (ih (fun token member => proper token (by simp [member])) fitsHolder)
      (read (fun token member => proper token (by simp [member])) fitsKey)
  | @named ts holder point inside name _ dot _ ih read =>
    have fitsHolder : holder.Fits .holder := fits.left rfl rfl
    have fitsName : (ident name).Fits .name := fits.right rfl rfl
    exact prints_named (proper point (by simp)) dot fitsHolder
      (ih (fun token member => proper token (by simp [member])) fitsHolder)
      (read (fun token member => proper token (by simp [member])) fitsName)
  | @decimal ts token v whole point inside other w fraction value _ dot _ plain read ih key =>
    have leaf (token : Token) (value : Float) (text : Text) :
        (number token value text).Fits .operand := by
      simp [Fits, nodes, parts, printsAs]
    exact prints_decimal plain read
      (ih (fun token member => proper token (by simp [member])) (leaf _ _ _))
      (key (fun token member => proper token (by simp [member])) (leaf _ _ _))
  | @operation tier ts left operator inside right binary continued _ _ ih operand =>
    have fitsLeft : left.Fits .operand := fits.left rfl rfl
    have fitsRight : right.Fits .operand := fits.right rfl rfl
    exact prints_binary (proper operator (by simp)) binary continued fitsLeft fitsRight
      (ih (fun token member => proper token (by simp [member])) fitsLeft)
      (operand (fun token member => proper token (by simp [member])) fitsRight)
  | @increment ts operand operator derived kind ih =>
    have fitsOperand : operand.Fits .operand := fits.part fun node member => member
    exact prints_increment (proper operator (by simp)) kind derived.ne_absent fitsOperand
      (ih (fun token member => proper token (by simp [member])) fitsOperand)
  | @object opening entries inside closing opens enumerated _ closes each =>
    have own : ∀ entry ∈ entries, ∀ token ∈ entry.tokens, token.Proper := fun entry given token inner =>
      proper token (by simp [(enumerated.sublist entry given).subset inner])
    apply prints_object (proper opening (by simp)) opens
    · intro property member
      obtain ⟨entry, given, rfl⟩ := List.mem_map.mp member
      exact ⟨(enumerated.formed entry given).key, rfl, own entry given _ entry.key_mem⟩
    · intro property member
      obtain ⟨entry, given, rfl⟩ := List.mem_map.mp member
      rcases some_ : entry.value with _ | value
      · left
        rw [Entry.tree, some_]
        rfl
      · right
        have tree : entry.tree.2 = value.tree := by
          rw [Entry.tree, some_]
          rfl
        have fitsValue : value.tree.Fits .property := fits.part fun node inner =>
          mem_propertyParts member node (tree ▸ inner)
        rw [tree]
        refine each entry given value some_ ?_ fitsValue
        intro token inner
        exact own entry given token ((Entry.sublist some_).subset inner)
  | @assign ts target equals inside value _ kind _ ih read =>
    have fitsTarget : target.Fits .target := fits.left rfl rfl
    have fitsValue : value.Fits .assigned := fits.right rfl rfl
    exact prints_assign (proper equals (by simp)) kind fitsTarget
      (ih (fun token member => proper token (by simp [member])) fitsTarget)
      (read (fun token member => proper token (by simp [member])) fitsValue)

end Expr

end Scriptlet
