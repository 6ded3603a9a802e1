import Scriptlet.Proofs.Frames
import Scriptlet.Proofs.Tasks
/-!
Evaluation is confined to what it can reach: the frames of its scope, the frames around functions that
are found there, at any depth inside objects, and so on. Such frames and those that an evaluation
creates make up a region that nothing in it leads out of. Every action keeps it so, and leaves the
frames outside of it alone.
-/
namespace Scriptlet

open Scriptlet.Action

/-- The value holds a function, at any depth, that was declared in a scope with the frame. -/
inductive Value.Mentions (id : FrameId) : Value → Prop where
  | function {name parameters statements scope} :
      id ∈ Scope.chain scope → Mentions id (.function name parameters statements scope)
  | object {properties : List (Text × Value)} {property} :
      property ∈ properties → Mentions id property.2 → Mentions id (.object properties)

/-- The frames of a scope, and those that the values in frames that can be reached mention. -/
inductive Frames.Reachable (frames : Frames) (scope : Scope) : FrameId → Prop where
  | own {id} : id ∈ scope.chain → Reachable frames scope id
  | closure {holder b id} :
      Reachable frames scope holder → b ∈ frames.frame holder → b.value.Mentions id →
        Reachable frames scope id

theorem Frames.frame_of_size_le {frames : Frames} {id : FrameId} (behind : frames.size ≤ id) :
    frames.frame id = [] := by
  simp [Frames.frame, Nat.not_lt.mpr behind]

/-- Frames that an evaluation may use: some of those there are, and the ones that it creates. -/
structure Region where
  within : FrameId → Prop
  /-- The frames from this number on are new. -/
  base : FrameId

namespace Region

variable {region : Region} {size more : Nat} {α β : Type}

/-- The frame is in the region when there are `size` frames in all. -/
def Has (region : Region) (size : Nat) (id : FrameId) : Prop :=
  region.within id ∨ region.base ≤ id ∧ id < size

def Encloses (region : Region) (size : Nat) (scope : Scope) : Prop :=
  ∀ id ∈ scope.chain, region.Has size id

/-- All that the value mentions is in the region. -/
def Covers (region : Region) (size : Nat) (value : Value) : Prop :=
  ∀ id, value.Mentions id → region.Has size id

theorem Has.mono {id : FrameId} (has : region.Has size id) (le : size ≤ more) :
    region.Has more id := by
  rcases has with within | ⟨new, below⟩
  · exact .inl within
  · exact .inr ⟨new, Nat.lt_of_lt_of_le below le⟩

theorem Encloses.mono {scope : Scope} (encloses : region.Encloses size scope) (le : size ≤ more) :
    region.Encloses more scope :=
  fun id member => (encloses id member).mono le

theorem Covers.mono {value : Value} (covers : region.Covers size value) (le : size ≤ more) :
    region.Covers more value :=
  fun id mentioned => (covers id mentioned).mono le

theorem covers_null : region.Covers size .null := nofun

theorem covers_number (value : Float) : region.Covers size (.number value) := nofun

theorem covers_object {properties : List (Text × Value)} :
    region.Covers size (.object properties) ↔
      ∀ property ∈ properties, region.Covers size property.2 := by
  constructor
  · intro covers property member id mentioned
    exact covers id (.object member mentioned)
  · intro all id mentioned
    cases mentioned with
    | object member inner => exact all _ member id inner

theorem covers_function {name : Text} {parameters : List Text} {statements : List Stmt}
    {scope : Scope} :
    region.Covers size (.function name parameters statements scope) ↔
      region.Encloses size scope := by
  constructor
  · intro covers id member
    exact covers id (.function member)
  · intro encloses id mentioned
    cases mentioned with
    | function member => exact encloses id member

/-- Nothing in the region leads out of it. -/
structure Sealed (region : Region) (store : Store) : Prop where
  base_le : region.base ≤ store.frames.size
  covers : ∀ id, region.Has store.frames.size id → ∀ b ∈ store.frames.frame id,
    region.Covers store.frames.size b.value

/-- The store after an action that is confined to the region. -/
structure Follows (region : Region) (store after : Store) : Prop where
  size_le : store.frames.size ≤ after.frames.size
  isSealed : region.Sealed after
  frame_eq : ∀ id, ¬ region.Has after.frames.size id →
    after.frames.frame id = store.frames.frame id

theorem Sealed.follows {store : Store} (isSealed : region.Sealed store) :
    region.Follows store store :=
  ⟨Nat.le_refl _, isSealed, fun _ _ => rfl⟩

theorem Follows.trans {store between after : Store} (first : region.Follows store between)
    (second : region.Follows between after) : region.Follows store after := by
  refine ⟨Nat.le_trans first.size_le second.size_le, second.isSealed, ?_⟩
  intro id outside
  have earlier : ¬ region.Has between.frames.size id := fun has => outside (has.mono second.size_le)
  rw [second.frame_eq id outside, first.frame_eq id earlier]

/-- The action, started with `size` frames or more, is confined to the region, and what it gives is as
stated for the number of frames it leaves. -/
def Confines (region : Region) (size : Nat) (action : Action α) (gives : Nat → α → Prop) : Prop :=
  ∀ store, region.Sealed store → size ≤ store.frames.size →
    region.Follows store (action.outcome store).2 ∧
      ∀ value, (action.outcome store).1 = .ok value →
        gives (action.outcome store).2.frames.size value

section Steps

theorem Confines.mono {action : Action α} {gives : Nat → α → Prop}
    (confines : region.Confines size action gives) (le : size ≤ more) :
    region.Confines more action gives :=
  fun store isSealed enough => confines store isSealed (Nat.le_trans le enough)

theorem confines_pure {gives : Nat → α → Prop} {value : α}
    (holds : ∀ more, size ≤ more → gives more value) : region.Confines size (pure value) gives := by
  intro store isSealed enough
  refine ⟨isSealed.follows, ?_⟩
  rintro _ ⟨⟩
  exact holds _ enough

theorem confines_throw {gives : Nat → α → Prop} (stop : Stop) :
    region.Confines size (throw stop : Action α) gives := by
  intro store isSealed _
  refine ⟨isSealed.follows, ?_⟩
  rintro _ ⟨⟩

theorem confines_failAt {gives : Nat → α → Prop} (token : Token) (fault : Diagnostic) :
    region.Confines size (failAt token fault : Action α) gives :=
  confines_throw _

theorem Confines.bind {action : Action α} {next : α → Action β} {gives : Nat → α → Prop}
    {finally_ : Nat → β → Prop} (first : region.Confines size action gives)
    (second : ∀ more value, size ≤ more → gives more value →
      region.Confines more (next value) finally_) :
    region.Confines size (action >>= next) finally_ := by
  intro store isSealed enough
  obtain ⟨follows, given⟩ := first store isSealed enough
  rcases gives_or_stops action store with ⟨value, between, ends⟩ | ⟨stop, between, ends⟩
  · rw [ends] at follows given
    -- the second action starts with all frames that the first leaves
    obtain ⟨later, last⟩ := second between.frames.size value
      (Nat.le_trans enough follows.size_le) (given value rfl) between follows.isSealed (Nat.le_refl _)
    rw [ends.bind]
    exact ⟨follows.trans later, last⟩
  · rw [ends] at follows
    rw [ends.bind next]
    refine ⟨follows, ?_⟩
    rintro _ ⟨⟩

theorem confines_lookup {scope : Scope} (encloses : region.Encloses size scope) (name : Text)
    (token : Token) : region.Confines size (lookup scope name token) region.Covers := by
  intro store isSealed enough
  rw [outcome_lookup, Frames.lookup]
  rcases got : store.frames.get? scope name with _ | value
  · refine ⟨isSealed.follows, ?_⟩
    rintro _ ⟨⟩
  · refine ⟨isSealed.follows, ?_⟩
    rintro _ ⟨⟩
    obtain ⟨id, member, b, found, rfl⟩ := Frames.mem_of_get? got
    exact isSealed.covers id ((encloses id member).mono enough) b (Frame.mem_of_find found)

theorem Sealed.bind {store : Store} {scope : Scope} {value : Value}
    (isSealed : region.Sealed store) (encloses : region.Encloses store.frames.size scope)
    (covers : region.Covers store.frames.size value) (name : Text) (constant : Bool) :
    region.Follows store
      { store with frames := store.frames.bind scope name value constant } := by
  refine ⟨by simp, ⟨by simpa using isSealed.base_le, ?_⟩, ?_⟩
  · intro id has b member
    simp only [Frames.size_bind, Frames.frame_bind] at has member ⊢
    split at member
    · rcases List.mem_cons.mp member with rfl | old
      · exact covers
      · exact isSealed.covers id has b old
    · exact isSealed.covers id has b member
  · intro id outside
    simp only [Frames.size_bind, Frames.frame_bind] at outside ⊢
    rw [if_neg]
    rintro ⟨rfl, -⟩
    exact outside (encloses _ List.mem_cons_self)

theorem Sealed.rebind {store : Store} {scope : Scope} {value : Value}
    (isSealed : region.Sealed store) (encloses : region.Encloses store.frames.size scope)
    (covers : region.Covers store.frames.size value) (name : Text) :
    region.Follows store { store with frames := store.frames.rebind scope name value } := by
  refine ⟨by simp, ⟨by simpa using isSealed.base_le, ?_⟩, ?_⟩
  · intro id has b member
    simp only [Frames.size_rebind, Frames.frame_rebind] at has member ⊢
    split at member
    · rcases Frame.mem_update member with old | new
      · exact isSealed.covers id has b old
      · exact new ▸ covers
    · exact isSealed.covers id has b member
  · intro id outside
    simp only [Frames.size_rebind, Frames.frame_rebind] at outside ⊢
    rw [if_neg]
    intro owned
    exact outside (encloses id (Frames.owner?_eq_some owned).1)

theorem Sealed.grow {store : Store} (isSealed : region.Sealed store) :
    region.Follows store { store with frames := store.frames.grow } := by
  refine ⟨by simp, ⟨?_, ?_⟩, fun id _ => Frames.frame_grow id⟩
  · simpa using Nat.le_succ_of_le isSealed.base_le
  · intro id has b member
    simp only [Frames.size_grow, Frames.frame_grow] at has member ⊢
    have old : region.Has store.frames.size id := by
      rcases has with within | ⟨new, _⟩
      · exact .inl within
      · refine .inr ⟨new, Nat.lt_of_not_le fun behind => ?_⟩
        rw [Frames.frame_of_size_le behind] at member
        cases member
    exact (isSealed.covers id old b member).mono (Nat.le_succ _)

theorem confines_declare {scope : Scope} {value : Value} (encloses : region.Encloses size scope)
    (covers : region.Covers size value) (name : Text) (constant : Bool) (token : Token) :
    region.Confines size (declare scope name value constant token) region.Covers := by
  intro store isSealed enough
  rw [outcome_declare]
  rcases store.frames.declarationFault? scope name with _ | fault
  · have follows := isSealed.bind (encloses.mono enough) (covers.mono enough) name constant
    refine ⟨follows, ?_⟩
    rintro _ ⟨⟩
    exact covers.mono (Nat.le_trans enough follows.size_le)
  · refine ⟨isSealed.follows, ?_⟩
    rintro _ ⟨⟩

theorem confines_assign {scope : Scope} {value : Value} (encloses : region.Encloses size scope)
    (covers : region.Covers size value) (name : Text) (token : Token) :
    region.Confines size (assign scope name value token) region.Covers := by
  intro store isSealed enough
  rw [outcome_assign]
  rcases store.frames.assignmentFault? scope name with _ | fault
  · have follows := isSealed.rebind (encloses.mono enough) (covers.mono enough) name
    refine ⟨follows, ?_⟩
    rintro _ ⟨⟩
    exact covers.mono (Nat.le_trans enough follows.size_le)
  · refine ⟨isSealed.follows, ?_⟩
    rintro _ ⟨⟩

theorem confines_enclosed {scope : Scope} (encloses : region.Encloses size scope) :
    region.Confines size (enclosed scope) region.Encloses := by
  intro store isSealed enough
  refine ⟨isSealed.grow, ?_⟩
  rintro _ ⟨⟩
  intro id member
  simp only [outcome_enclosed, Frames.size_grow]
  rcases List.mem_cons.mp member with rfl | outer
  · exact .inr ⟨isSealed.base_le, Nat.lt_succ_self _⟩
  · exact (encloses id outer).mono (Nat.le_succ_of_le enough)

theorem confines_print (printed : Printed) :
    region.Confines size (print printed) fun _ _ => True :=
  fun _ isSealed _ => ⟨⟨Nat.le_refl _, ⟨isSealed.base_le, isSealed.covers⟩, fun _ _ => rfl⟩,
    fun _ _ => trivial⟩

theorem confines_readClock : region.Confines size readClock fun _ _ => True :=
  fun _ isSealed _ => ⟨⟨Nat.le_refl _, ⟨isSealed.base_le, isSealed.covers⟩, fun _ _ => rfl⟩,
    fun _ _ => trivial⟩

end Steps

section Rules
open Eval
variable {eval : Evaluation} {scope : Scope}
  (parts : ∀ size statement scope, region.Encloses size scope →
    region.Confines size (eval statement scope) region.Covers)
  (encloses : region.Encloses size scope)
include parts encloses

theorem confines_sequence {last : Value} (covers : region.Covers size last)
    (statements : List Stmt) :
    region.Confines size (sequence eval scope last statements) region.Covers := by
  induction statements generalizing size last with
  | nil => exact confines_pure fun _ le => covers.mono le
  | cons statement rest ih =>
    apply (parts size statement scope encloses).bind
    intro more value le given
    exact ih (encloses.mono le) given

theorem confines_body (statements : List Stmt) :
    region.Confines size (body eval scope statements) region.Covers :=
  confines_sequence parts encloses covers_null statements

theorem confines_values (arguments : List Expr) :
    region.Confines size (values eval scope arguments) fun more given =>
      ∀ value ∈ given, region.Covers more value := by
  induction arguments generalizing size with
  | nil => exact confines_pure (by simp)
  | cons e rest ih =>
    apply (parts size (.expr e) scope encloses).bind
    intro more first le head
    apply (ih (encloses.mono le)).bind
    intro most others le_ tail
    apply confines_pure
    intro final le__ value member
    rcases List.mem_cons.mp member with rfl | later
    · exact head.mono (Nat.le_trans le_ le__)
    · exact (tail value later).mono le__

theorem confines_condition (token : Token) (e : Expr) :
    region.Confines size (condition eval scope token e) fun _ _ => True := by
  apply (parts size (.expr e) scope encloses).bind
  intro more value le _
  cases value with
  | boolean value => exact confines_pure fun _ _ => trivial
  | _ => exact confines_failAt _ _

theorem confines_optionalValue (e : Expr) :
    region.Confines size (optionalValue eval scope e) region.Covers := by
  cases e with
  | absent => exact confines_pure nofun
  | _ => exact parts size (.expr _) scope encloses

theorem confines_links (chain : List (Guarded Stmt)) :
    region.Confines size (links eval scope chain) region.Covers := by
  induction chain generalizing size with
  | nil => exact confines_pure nofun
  | cons link rest ih =>
    apply (confines_condition parts encloses link.token link.condition).bind
    intro more holds le _
    cases holds with
    | true => exact confines_body parts (encloses.mono le) link.body
    | false => exact ih (encloses.mono le)

theorem confines_loop (bound : Nat) (token : Token) (test step : Expr) (statements : List Stmt) :
    region.Confines size (loop eval bound scope token test step statements) region.Covers := by
  have one : region.Confines size (round eval scope token test step statements)
      fun _ _ => True := by
    apply (confines_condition parts encloses token test).bind
    intro more holds le _
    cases holds with
    | false => exact confines_pure fun _ _ => trivial
    | true =>
      apply (confines_body parts (encloses.mono le) statements).bind
      intro most _ le_ _
      apply (confines_optionalValue parts (encloses.mono (Nat.le_trans le le_)) step).bind
      intro _ _ _ _
      exact confines_pure fun _ _ => trivial
  have all : region.Confines size (rounds (round eval scope token test step statements) bound)
      fun _ _ => True := by
    induction bound with
    | zero => exact confines_throw _
    | succ bound ih =>
      apply one.bind
      intro more again le _
      cases again with
      | true => exact ih.mono le
      | false => exact confines_pure fun _ _ => trivial
  apply all.bind
  intro _ _ _ _
  exact confines_pure nofun

theorem confines_opening (start : Option Declaration) :
    region.Confines size (opening eval scope start) region.Covers := by
  cases start with
  | none => exact confines_pure nofun
  | some d => exact parts size (.declare d) scope encloses

theorem confines_propertyValue (key : Ident) (e : Expr) :
    region.Confines size (propertyValue eval scope key e) region.Covers := by
  cases e with
  | absent => exact confines_lookup encloses _ _
  | _ => exact parts size (.expr _) scope encloses

theorem confines_properties {known : List (Text × Value)}
    (covers : ∀ property ∈ known, region.Covers size property.2) (entries : List (Ident × Expr)) :
    region.Confines size (properties eval scope known entries) fun more all =>
      ∀ property ∈ all, region.Covers more property.2 := by
  induction entries generalizing size known with
  | nil =>
    apply confines_pure
    intro more le property member
    exact (covers property (List.mem_reverse.mp member)).mono le
  | cons entry rest ih =>
    rcases entry with ⟨key, e⟩
    apply (confines_propertyValue parts encloses key e).bind
    intro more value le given
    split
    · exact confines_failAt _ _
    · refine ih (encloses.mono le) ?_
      intro property member
      rcases List.mem_cons.mp member with rfl | old
      · exact given
      · exact (covers property old).mono le

theorem confines_assignment (token : Token) (target e : Expr) :
    region.Confines size (assignment eval scope token target e) region.Covers := by
  cases target with
  | ident name =>
    apply (parts size (.expr e) scope encloses).bind
    intro more value le given
    exact confines_assign (encloses.mono le) given _ _
  | _ => exact confines_failAt _ _

omit parts encloses in
theorem confines_binary (token : Token) (operator : Text) (left right : Value) :
    region.Confines size (binary token operator left right) region.Covers := by
  unfold binary
  split
  · split
    · exact confines_pure nofun
    · exact confines_failAt _ _
  · apply confines_pure
    intro more le
    unfold Arithmetic.onValues
    split <;> exact nofun

theorem confines_unary (token : Token) (operator : Text) (operand : Expr) :
    region.Confines size (unary eval scope token operator operand) region.Covers := by
  by_cases absent : operand = .absent
  · subst absent
    exact confines_failAt _ _
  · rw [unary]
    · apply (parts size (.expr operand) scope encloses).bind
      intro more value le _
      split
      · split
        · exact confines_failAt _ _
        · split
          · exact confines_assign (encloses.mono le) (covers_number _) _ _
          · exact confines_pure nofun
      · exact confines_failAt _ _
    · exact absent

theorem confines_memberName (token : Token) (key : Expr) (computed : Bool) :
    region.Confines size (memberName eval scope token key computed) fun _ _ => True := by
  cases computed with
  | true =>
    apply (parts size (.expr key) scope encloses).bind
    intro more value le _
    cases value with
    | string name => exact confines_pure fun _ _ => trivial
    | _ => exact confines_failAt _ _
  | false =>
    cases key with
    | ident name => exact confines_pure fun _ _ => trivial
    | _ => exact confines_failAt _ _

theorem confines_member (token : Token) (holder key : Expr) (computed : Bool) :
    region.Confines size (member eval scope token holder key computed) region.Covers := by
  apply (parts size (.expr holder) scope encloses).bind
  intro more value le given
  cases value with
  | object properties =>
    apply (confines_memberName parts (encloses.mono le) token key computed).bind
    intro most name le_ _
    split
    · rename_i value found
      obtain ⟨before, after, rfl, -⟩ := List.lookup_eq_some_iff.mp found
      have own := covers_object.mp given (name, value) (by simp)
      exact confines_pure fun _ le__ => own.mono (Nat.le_trans le_ le__)
    · exact confines_failAt _ _
  | _ => exact confines_failAt _ _

omit parts in
theorem confines_bindParameters {given : List Value}
    (covers : ∀ value ∈ given, region.Covers size value) (token : Token) (names : List Text) :
    region.Confines size (bindParameters scope token names given) fun _ _ => True := by
  induction names generalizing size given with
  | nil => exact confines_pure fun _ _ => trivial
  | cons name names ih =>
    cases given with
    | nil => exact confines_pure fun _ _ => trivial
    | cons value rest =>
      apply (confines_declare encloses (covers value List.mem_cons_self) name false token).bind
      intro more _ le _
      exact ih (encloses.mono le)
        fun other member => (covers other (List.mem_cons_of_mem _ member)).mono le

omit parts encloses in
theorem covers_timeValue (reading : Reading) (given : List Value) :
    region.Covers size (Native.timeValue reading given) := by
  have moment (m : Moment) : region.Covers size (Native.momentValue m) := by
    refine covers_object.mpr ?_
    intro property member
    simp only [List.mem_cons, List.not_mem_nil, or_false] at member
    rcases member with rfl | rfl | rfl | rfl | rfl | rfl | rfl | rfl | rfl <;> exact nofun
  unfold Native.timeValue
  split
  · exact moment _
  · split
    · exact moment _
    · exact nofun
  · exact nofun

omit parts encloses in
theorem confines_native (function : Native) (given : List Value) :
    region.Confines size (function.apply given) region.Covers := by
  cases function with
  | print | println => exact (confines_print _).bind fun _ _ _ _ => confines_pure nofun
  | time =>
    exact confines_readClock.bind fun _ _ _ _ => confines_pure fun _ _ => covers_timeValue _ _
  | exit =>
    intro store
    exact confines_throw (.halted (Native.haltOf store.machine given)) store

omit encloses in
theorem confines_apply {callee : Value} {given : List Value} (callable : region.Covers size callee)
    (covers : ∀ value ∈ given, region.Covers size value) (token : Token) :
    region.Confines size (apply eval token callee given) region.Covers := by
  cases callee with
  | native function => exact confines_native function given
  | function name parameters statements closure =>
    -- the body runs in the scope of the function, which the region covers with the function
    apply (confines_enclosed (covers_function.mp callable)).bind
    intro more inside le own
    apply (confines_bindParameters own (fun value member => (covers value member).mono le) token
      parameters).bind
    intro most _ le_ _
    exact confines_body parts (own.mono le_) statements
  | _ => exact confines_failAt _ _

theorem confines_expression (e : Expr) :
    region.Confines size (expression eval scope e) region.Covers := by
  cases e with
  | absent | number | string | boolean => exact confines_pure nofun
  | ident name => exact confines_lookup encloses _ _
  | object token entries =>
    apply (confines_properties parts encloses (by simp) entries).bind
    intro more all le covers
    exact confines_pure fun _ le_ =>
      covers_object.mpr fun property member => (covers property member).mono le_
  | assign token target e => exact confines_assignment parts encloses token target e
  | binary token operator left right =>
    apply (parts size (.expr left) scope encloses).bind
    intro more a le _
    apply (parts more (.expr right) scope (encloses.mono le)).bind
    intro most b _ _
    exact confines_binary token operator a b
  | unary token operator operand => exact confines_unary parts encloses token operator operand
  | call token callee arguments =>
    apply (parts size (.expr callee) scope encloses).bind
    intro more function le callable
    apply (confines_values parts (encloses.mono le) arguments).bind
    intro most given le_ covers
    exact confines_apply parts (callable.mono le_) covers token
  | member token holder key computed =>
    exact confines_member parts encloses token holder key computed

theorem confines_rule (bound : Nat) (statement : Stmt) :
    region.Confines size (rule eval bound statement scope) region.Covers := by
  cases statement with
  | expr e => exact confines_expression parts encloses e
  | declare d =>
    apply (confines_optionalValue parts encloses d.value).bind
    intro more value le given
    exact confines_declare (encloses.mono le) given _ _ _
  | function token name parameters statements =>
    exact confines_declare encloses (covers_function.mpr encloses) _ _ _
  | branch first others =>
    apply (confines_enclosed encloses).bind
    intro more inside le own
    exact confines_links parts own (first :: others)
  | whileLoop token test statements =>
    apply (confines_enclosed encloses).bind
    intro more inside le own
    exact confines_loop parts own bound token test .absent statements
  | forLoop token start test step statements =>
    apply (confines_enclosed encloses).bind
    intro more inside le own
    apply (confines_opening parts own start).bind
    intro most _ le_ _
    exact confines_loop parts (own.mono le_) bound token test step statements

end Rules

theorem confines_statement (bound size : Nat) (statement : Stmt) (scope : Scope)
    (encloses : region.Encloses size scope) :
    region.Confines size (statement.eval bound scope) region.Covers := by
  induction bound generalizing size statement scope with
  | zero => exact confines_throw _
  | succ bound ih => exact confines_rule ih encloses bound statement

/-- An evaluation in a scope of the region is confined to the region. -/
theorem confines_eval (bound : Nat) (node : Node) {scope : Scope}
    (encloses : region.Encloses size scope) :
    region.Confines size (node.eval bound scope) region.Covers := by
  cases node with
  | program statements => exact confines_body (confines_statement bound) encloses statements
  | statement single => exact confines_statement bound size single scope encloses

end Region

namespace Task

/-- What a task can reach when it starts, and the frames that it creates. -/
def region (task : Task) : Region := ⟨task.store.frames.Reachable task.scope, task.store.frames.size⟩

theorem region_sealed (task : Task) : task.region.Sealed task.store := by
  refine ⟨Nat.le_refl _, ?_⟩
  rintro id (reached | ⟨new, old⟩) b member other mentioned
  · exact .inl (.closure reached member mentioned)
  · exact absurd old (Nat.not_lt.mpr new)

theorem region_follows (task : Task) :
    task.region.Follows task.store task.outcome.2 ∧ ∀ value, task.outcome.1 = .ok value →
      task.region.Covers task.outcome.2.frames.size value := by
  have encloses : task.region.Encloses task.store.frames.size task.scope :=
    fun id member => .inl (.own member)
  exact Region.confines_eval task.bound task.node encloses task.store task.region_sealed (Nat.le_refl _)

/-- Whatever is evaluated, in whatever store: the frames that cannot be reached from the scope are left
exactly as they were. All frames that the resulting value mentions, or that a binding mentions which
was not there before, could be reached from the scope or were created by the evaluation. -/
theorem confined_to_reachable (task : Task) :
    (∀ id < task.store.frames.size, ¬ task.store.frames.Reachable task.scope id →
        task.outcome.2.frames.frame id = task.store.frames.frame id) ∧
      (∀ value, task.outcome.1 = .ok value → ∀ id, value.Mentions id →
        task.store.frames.Reachable task.scope id ∨
          task.store.frames.size ≤ id ∧ id < task.outcome.2.frames.size) ∧
      ∀ holder, ∀ b ∈ task.outcome.2.frames.frame holder, b ∉ task.store.frames.frame holder →
        ∀ id, b.value.Mentions id → task.store.frames.Reachable task.scope id ∨
          task.store.frames.size ≤ id ∧ id < task.outcome.2.frames.size := by
  obtain ⟨follows, given⟩ := task.region_follows
  refine ⟨?_, given, ?_⟩
  · intro id old unreached
    apply follows.frame_eq
    rintro (reached | ⟨new, -⟩)
    · exact unreached reached
    · exact absurd old (Nat.not_lt.mpr new)
  · intro holder b member stored
    by_cases inside : task.region.Has task.outcome.2.frames.size holder
    · exact follows.isSealed.covers holder inside b member
    · rw [follows.frame_eq holder inside] at member
      exact absurd member stored

/-- The call `o.g()` where `o` is in the only frame of the scope, and `g` was declared in a second frame,
with the body `func h() {} n = h;`. A third frame holds another function like it. -/
def keeping : Task :=
  let named (text : String) : Ident := ⟨.none, utf8 text⟩
  let g (inside : FrameId) : Value := .function (utf8 "g") []
    [.function .none (named "h") [] [],
      .expr (.assign .none (.ident (named "n")) (.ident (named "h")))] ⟨inside, [0]⟩
  { bound := 4
    node := .statement
      (.expr (.call .none (.member .none (.ident (named "o")) (.ident (named "g")) false) []))
    scope := ⟨0, []⟩
    store :=
      { frames := #[[⟨utf8 "o", .object [(utf8 "g", g 1)], true⟩], [⟨utf8 "n", .null, false⟩],
          [⟨utf8 "n", g 1, false⟩]]
        machine := .still ⟨2024, 3, 9, 14, 5, 7, 0⟩ } }

/-- What `o.g()` gives: a function that was declared in a new frame inside the second one. -/
def keeping.inner : Value := .function (utf8 "h") [] [] ⟨3, [1, 0]⟩

theorem keeping.eq_of_reachable {id : FrameId}
    (reached : keeping.store.frames.Reachable keeping.scope id) : id = 0 ∨ id = 1 := by
  induction reached with
  | own member => exact .inl (List.mem_singleton.mp member)
  | closure _ member mentioned holder =>
    rcases holder with rfl | rfl
    · obtain rfl := List.mem_singleton.mp member
      cases mentioned with
      | object inside inner =>
        obtain rfl := List.mem_singleton.mp inside
        cases inner with
        | function own =>
          rcases List.mem_cons.mp own with second | first
          · exact .inr second
          · exact .inl (List.mem_singleton.mp first)
    · obtain rfl := List.mem_singleton.mp member
      cases mentioned

-- The function ends up in the second frame, which only the closure of `g` leads to.
theorem keeping_confined :
    (¬ keeping.store.frames.Reachable keeping.scope 2 ∧
        keeping.outcome.2.frames.frame 2 = keeping.store.frames.frame 2) ∧
      (keeping.outcome.1 = .ok keeping.inner ∧ keeping.inner.Mentions 3 ∧
        (keeping.store.frames.Reachable keeping.scope 3 ∨
          keeping.store.frames.size ≤ 3 ∧ 3 < keeping.outcome.2.frames.size)) ∧
      (⟨utf8 "n", keeping.inner, false⟩ ∈ keeping.outcome.2.frames.frame 1 ∧
        ⟨utf8 "n", keeping.inner, false⟩ ∉ keeping.store.frames.frame 1 ∧
        (keeping.store.frames.Reachable keeping.scope 1 ∨
          keeping.store.frames.size ≤ 1 ∧ 1 < keeping.outcome.2.frames.size)) := by
  have unreached : ¬ keeping.store.frames.Reachable keeping.scope 2 :=
    fun reached => absurd (keeping.eq_of_reachable reached) (by decide)
  have created : keeping.inner.Mentions 3 := .function (by decide)
  have outer : keeping.inner.Mentions 1 := .function (by decide)
  have stored : ⟨utf8 "n", keeping.inner, false⟩ ∈ keeping.outcome.2.frames.frame 1 :=
    List.mem_singleton.mpr rfl
  have new : (⟨utf8 "n", keeping.inner, false⟩ : Binding) ∉ keeping.store.frames.frame 1 := by
    intro old
    cases List.mem_singleton.mp old
  exact ⟨⟨unreached, (confined_to_reachable keeping).1 2 (by decide) unreached⟩,
    ⟨rfl, created, (confined_to_reachable keeping).2.1 _ rfl 3 created⟩,
    stored, new, (confined_to_reachable keeping).2.2 1 _ stored new 1 outer⟩

end Task

end Scriptlet
