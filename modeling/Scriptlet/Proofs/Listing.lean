import Mathlib.Data.List.Nodup
import Scriptlet.Proofs.Reordering
import Scriptlet.Proofs.Runs
import Scriptlet.Repl.Entry
/-!
What the list of variables shows. No frame has two bindings of a name, and the global frame keeps the
bindings that programs start with. So the list has every other global name once, with the value that it
stands for now, unless that is a native function: a variable that holds one is taken for a binding that
was there before the program.
-/
namespace Scriptlet

open Interpreter

namespace Frame

variable {frame : Frame} {name : Text} {b : Binding}

theorem find_eq_some_iff (distinct : frame.names.Nodup) :
    frame.find name = some b ↔ b ∈ frame ∧ b.name = name := by
  constructor
  · intro found
    exact ⟨mem_of_find found, name_of_find found⟩
  · rintro ⟨member, rfl⟩
    obtain ⟨other, found⟩ := binds_iff.mp (mem_names_iff.mp (List.mem_map_of_mem member))
    have same := List.inj_on_of_nodup_map distinct (mem_of_find found) member (name_of_find found)
    rw [found, same]

theorem names_update (name : Text) (value : Value) : (frame.update name value).names = frame.names := by
  rw [names, update, List.map_map]
  apply List.map_congr_left
  intro b _
  dsimp only [Function.comp]
  split <;> rfl

theorem nodup_names_declare {value : Value} {constant : Bool} (distinct : frame.names.Nodup)
    (free : frame.find name = none) : (frame.declare name value constant).names.Nodup := by
  refine List.nodup_cons.mpr ⟨?_, distinct⟩
  intro bound
  obtain ⟨b, found⟩ := binds_iff.mp (mem_names_iff.mp bound)
  rw [free] at found
  cases found

/-- What programs start with is found by its name, is constant, and is not listed. -/
theorem predeclared_facts : ∀ b ∈ predeclared,
    predeclared.find b.name = some b ∧ b.constant = true ∧
      Frames.isPredeclared globalScope b = true := by
  intro b member
  simp only [predeclared, List.mem_cons, List.not_mem_nil, or_false] at member
  rcases member with rfl | rfl | rfl | rfl | rfl | rfl | rfl <;> exact ⟨rfl, rfl, rfl⟩

end Frame

namespace Frames

/-- In each frame every name is bound at most once, and in the global one the names that programs start
with are bound as in the beginning. -/
structure Intact (frames : Frames) : Prop where
  distinct : ∀ id, (frames.frame id).names.Nodup
  started : ∀ b ∈ Frame.predeclared, (frames.frame 0).find b.name = some b

/-- The list has the variables of the global scope, each once, in the order of their names, and with
what they stand for: all but those that programs start with and those that stand for a native function. -/
structure Lists (frames : Frames) (shown : List Binding) : Prop where
  distinct : (shown.map Binding.name).Nodup
  ordered : shown.Pairwise fun a b => Text.le a.name b.name = true
  shows_iff : ∀ name value constant, ⟨name, value, constant⟩ ∈ shown ↔
    frames.get? globalScope name = some value ∧ frames.isConstant globalScope name = constant ∧
      name ∉ Frame.predeclared.names ∧ ∀ native, value ≠ .native native

variable {frames : Frames} {scope : Scope} {name : Text} {value : Value} {constant : Bool} {b : Binding}

theorem nodup_names_bind (distinct : ∀ id, (frames.frame id).names.Nodup)
    (allowed : frames.declarationFault? scope name = none) (id : FrameId) :
    ((frames.bind scope name value constant).frame id).names.Nodup := by
  rw [frame_bind]
  split
  · rename_i here
    have free := declarationFault?_eq_none_iff.mp allowed
    exact Frame.nodup_names_declare (distinct id) (here.1 ▸ free)
  · exact distinct id

theorem names_rebind (frames : Frames) (scope : Scope) (name : Text) (value : Value) (id : FrameId) :
    ((frames.rebind scope name value).frame id).names = (frames.frame id).names := by
  rw [frame_rebind]
  split
  · exact Frame.names_update name value
  · rfl

theorem Persist.find_of_constant {before after : Frames} (persist : before.Persist after) {id : FrameId}
    (found : (before.frame id).find name = some b) (isConstant : b.constant = true) :
    (after.frame id).find name = some b := by
  obtain ⟨later, foundLater, follows⟩ := persist id name b found
  have sameName := (Frame.name_of_find foundLater).trans (Frame.name_of_find found).symm
  have sameValue := follows.value isConstant
  have sameMark := follows.constant
  rw [foundLater]
  rcases later with ⟨name, value, constant⟩
  subst sameName sameValue sameMark
  rfl

theorem binding?_global (frames : Frames) (name : Text) :
    frames.binding? globalScope name = (frames.frame 0).find name := by
  rw [binding?]
  by_cases bound : (frames.frame 0).binds name = true
  · rw [owner?_of_binds bound]
    rfl
  · rw [owner?_of_not_binds bound]
    exact (Option.not_isSome_iff_eq_none.mp bound).symm

theorem find_global_iff : (frames.frame 0).find name = some ⟨name, value, constant⟩ ↔
    frames.get? globalScope name = some value ∧ frames.isConstant globalScope name = constant := by
  rw [get?, isConstant, binding?_global]
  rcases found : (frames.frame 0).find name with _ | b
  · simp
  · have called := Frame.name_of_find found
    rcases b with ⟨other, _, _⟩
    obtain rfl : other = name := called
    simp

/-- What is taken for a binding that was there before the program: in the frame that programs start in,
what was there, and the variables that stand for a native function. -/
theorem isPredeclared_eq_false_iff (intact : frames.Intact) (member : b ∈ frames.frame 0) :
    isPredeclared globalScope b = false ↔
      b.name ∉ Frame.predeclared.names ∧ ∀ native, b.value ≠ .native native := by
  constructor
  · intro listed
    constructor
    · intro reserved
      obtain ⟨start, inside, called⟩ := List.mem_map.mp reserved
      -- the name is still that of the binding that programs start with
      have found := (Frame.find_eq_some_iff (intact.distinct 0)).mpr ⟨member, called.symm⟩
      obtain rfl := Option.some.inj ((intact.started start inside).symm.trans found)
      rw [(Frame.predeclared_facts start inside).2.2] at listed
      cases listed
    · intro native holds
      rw [isPredeclared, holds] at listed
      cases listed
  · rintro ⟨unbound, ordinary⟩
    exact isPredeclared_eq_false unbound ordinary globalScope

theorem Intact.lists (intact : frames.Intact) : frames.Lists (frames.userVariables globalScope) := by
  have perm : (frames.userVariables globalScope).Perm
      ((frames.frame 0).filter fun b => !isPredeclared globalScope b) := List.mergeSort_perm _ _
  refine ⟨?_, ?_, ?_⟩
  · exact (perm.map Binding.name).nodup_iff.mpr
      ((List.filter_sublist.map Binding.name).nodup (intact.distinct 0))
  · exact List.pairwise_mergeSort Reordered.byKey_trans Reordered.byKey_total _
  · intro name value constant
    rw [perm.mem_iff, List.mem_filter, Bool.not_eq_true', ← and_assoc, ← find_global_iff,
      Frame.find_eq_some_iff (intact.distinct 0)]
    simp only [and_true]
    exact and_congr_right fun member => isPredeclared_eq_false_iff intact member

/-- Such a list has all variables of the program, and nothing else, exactly if no native function stands
under a name of the program's. -/
theorem Lists.complete_iff {shown : List Binding} (lists : frames.Lists shown) :
    (∀ name value, (∃ constant, ⟨name, value, constant⟩ ∈ shown) ↔
        frames.get? globalScope name = some value ∧ name ∉ Frame.predeclared.names) ↔
      ∀ name native, frames.get? globalScope name = some (.native native) →
        name ∈ Frame.predeclared.names := by
  simp only [lists.shows_iff]
  constructor
  · intro all name native stands
    by_contra unreserved
    obtain ⟨_, -, -, -, ordinary⟩ := (all name (.native native)).mpr ⟨stands, unreserved⟩
    exact ordinary native rfl
  · intro reserved name value
    constructor
    · rintro ⟨_, stands, -, unreserved, -⟩
      exact ⟨stands, unreserved⟩
    · rintro ⟨stands, unreserved⟩
      refine ⟨_, stands, rfl, unreserved, ?_⟩
      rintro native rfl
      exact unreserved (reserved name native stands)

theorem Intact.there (intact : frames.Intact) : 0 < frames.size := by
  by_contra nowhere
  have found := intact.started ⟨utf8 "true", .boolean true, true⟩ List.mem_cons_self
  have empty : frames.frame 0 = [] := by simp [Frames.frame, nowhere]
  rw [empty] at found
  cases found

/-- A name that is free in the global frame is none of those that programs start with. -/
theorem Intact.not_mem_predeclared (intact : frames.Intact)
    (free : (frames.frame 0).find name = none) : name ∉ Frame.predeclared.names := by
  intro reserved
  obtain ⟨start, inside, rfl⟩ := List.mem_map.mp reserved
  rw [intact.started start inside] at free
  cases free

end Frames

theorem Policy.Change.intact {policy : Policy} {store after : Store}
    (change : policy.Change store after) (intact : store.frames.Intact) : after.frames.Intact := by
  refine ⟨fun id => ?_, fun b member => ?_⟩
  · cases change with
    | declare _ _ _ allowed => exact Frames.nodup_names_bind intact.distinct allowed id
    | assign =>
      rw [Frames.names_rebind]
      exact intact.distinct id
    | enclose =>
      rw [Frames.frame_grow]
      exact intact.distinct id
    | print | read => exact intact.distinct id
  · exact change.persist.find_of_constant (intact.started b member)
      (Frame.predeclared_facts b member).2.1

theorem Policy.Changes.intact {policy : Policy} {store after : Store}
    (changes : policy.Changes store after) (intact : store.frames.Intact) : after.frames.Intact := by
  induction changes with
  | refl => exact intact
  | tail _ change ih => exact change.intact ih

theorem Store.Reaches.intact {store after : Store} (reaches : store.Reaches after)
    (intact : store.frames.Intact) : after.frames.Intact := by
  induction reaches with
  | refl => exact intact
  | tail _ evaluates ih => exact evaluates.changes.intact ih

namespace Interpreter

theorem intact_fresh (machine : Machine) : (freshStore machine).frames.Intact := by
  refine ⟨?_, fun b member => (Frame.predeclared_facts b member).1⟩
  intro id
  cases id with
  | zero => exact (by decide +kernel : Frame.predeclared.names.Nodup)
  | succ id => exact List.nodup_nil

theorem Reachable.intact {i : Interpreter} (reachable : i.Reachable) : i.store.frames.Intact := by
  refine reachable.holds (fun i => i.store.frames.Intact) ?_ ?_ ?_ ?_ ?_
  · exact fun machine _ => intact_fresh machine
  · exact fun _ _ intact => intact
  · intro i bound source intact
    rcases i.frames_run bound source with same | ⟨program, _, same⟩
    · exact same ▸ intact
    · have evaluates := Store.Evaluates.step i.store bound (.program program) globalScope
      rw [same]
      exact evaluates.changes.intact intact
  · exact fun _ _ intact => intact
  · exact fun i _ => intact_fresh i.store.machine

end Interpreter

/-- What was declared in the global scope is listed as long as it does not stand for a native function,
whatever is evaluated after it. -/
theorem Stmt.listed_of_declared {bound : Nat} {single : Stmt} {store ended after : Store}
    {value : Value} (intact : store.frames.Intact)
    (gives : (single.eval bound globalScope).Gives store value ended) (reaches : ended.Reaches after)
    {name : Text} (declared : name ∈ single.declared) :
    ∃ current, after.frames.get? globalScope name = some current ∧
      (⟨name, current, decide (name ∈ single.constants)⟩ ∈ after.frames.userVariables globalScope ↔
        ∀ native, current ≠ .native native) := by
  obtain ⟨free, found⟩ := Stmt.find_of_declared intact.there gives declared
  have evaluates := Store.Evaluates.step store bound (.statement single) globalScope
  have endedIntact : ended.frames.Intact := by
    have left := evaluates.changes.intact intact
    change ((single.eval bound globalScope).outcome store).2.frames.Intact at left
    rwa [gives] at left
  obtain ⟨⟨other, current, constant⟩, foundLater, follows⟩ := reaches.persist 0 name _ found
  obtain rfl : other = name := Frame.name_of_find foundLater
  obtain rfl := follows.constant
  obtain ⟨stands, mark⟩ := Frames.find_global_iff.mp foundLater
  refine ⟨current, stands, ?_⟩
  rw [(reaches.intact endedIntact).lists.shows_iff]
  exact ⟨fun all => all.2.2.2, fun ordinary => ⟨stands, mark, intact.not_mem_predeclared free, ordinary⟩⟩

theorem Repl.listing_eq (i : Interpreter) :
    listing i =
      if i.userVariables.isEmpty then [.outLine (utf8 "(no user variables)")]
      else i.userVariables.map fun b => .outLine (listed b) := by
  rw [listing]
  cases i.userVariables <;> rfl

/-- On an interpreter with any history, and after any further evaluations, the variables that are
listed are the global ones that are neither there from the start nor stand for a native function, each
once and as what it stands for. These are all that the program has, exactly if no name of its own stands
for a native function. What a statement declares in the global scope is listed ever after, as constant
or not, while it stands for no native function. The command for it shows a line for each listed variable,
in the order of their names, or else that there are none. -/
theorem variables_listed {i : Interpreter} (reachable : i.Reachable) {store : Store}
    (reached : i.store.Reaches store) :
    let shown := store.frames.userVariables globalScope
    store.frames.Lists shown ∧
      ((∀ name value, (∃ constant, ⟨name, value, constant⟩ ∈ shown) ↔
          store.frames.get? globalScope name = some value ∧ name ∉ Frame.predeclared.names) ↔
        ∀ name native, store.frames.get? globalScope name = some (.native native) →
          name ∈ Frame.predeclared.names) ∧
      (∀ (bound : Nat) (single : Stmt) (value : Value) (ended after : Store),
        (single.eval bound globalScope).Gives store value ended → ended.Reaches after →
          ∀ name ∈ single.declared, ∃ current, after.frames.get? globalScope name = some current ∧
            (⟨name, current, decide (name ∈ single.constants)⟩ ∈
                after.frames.userVariables globalScope ↔
              ∀ native, current ≠ .native native)) ∧
      (Repl.Command.perform { i with store } .scope).effects =
        if shown.isEmpty then [.outLine (utf8 "(no user variables)")]
        else shown.map fun b => .outLine (Repl.listed b) := by
  intro shown
  have intact := reached.intact reachable.intact
  refine ⟨intact.lists, intact.lists.complete_iff, ?_, ?_⟩
  · intro bound single value ended after gives further name declared
    exact Stmt.listed_of_declared intact gives further declared
  · exact Repl.listing_eq { i with store }

/-- An interpreter that has run a source. -/
def afterRun (source : Text) : Interpreter :=
  ((fresh (.still ⟨2024, 3, 9, 14, 5, 7, 0⟩) []).run 9 source).2

theorem native_variable_not_listed :
    ¬ ∀ i : Interpreter, i.Reachable → ∀ name, (i.store.frames.frame 0).binds name = true →
      name ∉ Frame.predeclared.names → name ∈ i.userVariables.map Binding.name := by
  intro listed
  have missing : utf8 "p" ∉ (afterRun (utf8 "let p = print;")).userVariables.map Binding.name := by
    decide +kernel
  apply missing
  apply listed _ (.run _ _ (.fresh _ _))
  · decide +kernel
  · decide +kernel

/-- `let p = print;` -/
def aliasOfPrint : Stmt :=
  .declare ⟨.none, ⟨.none, utf8 "p"⟩, false, .ident ⟨.none, utf8 "print"⟩⟩

/-- `p = null;` -/
def nullForP : Stmt :=
  .expr (.assign .none (.ident ⟨.none, utf8 "p"⟩) (.ident ⟨.none, utf8 "null"⟩))

/-- The store with the alias. -/
def aliasStore : Store :=
  ((aliasOfPrint.eval 3 globalScope).outcome (freshStore (.still ⟨2024, 3, 9, 14, 5, 7, 0⟩))).2

/-- The store after the assignment to it. -/
def nullStore : Store := ((nullForP.eval 3 globalScope).outcome aliasStore).2

theorem alias_listed_when_null :
    (⟨utf8 "p", .native .print, false⟩ ∉ aliasStore.frames.userVariables globalScope) ∧
      (¬ ∀ name value, (∃ constant, ⟨name, value, constant⟩ ∈
          aliasStore.frames.userVariables globalScope) ↔
        aliasStore.frames.get? globalScope name = some value ∧ name ∉ Frame.predeclared.names) ∧
      ⟨utf8 "p", .null, false⟩ ∈ nullStore.frames.userVariables globalScope := by
  have start : (fresh (.still ⟨2024, 3, 9, 14, 5, 7, 0⟩) []).Reachable := .fresh _ _
  have aliased : (freshStore (.still ⟨2024, 3, 9, 14, 5, 7, 0⟩)).Reaches aliasStore :=
    .single (.step _ 3 (.statement aliasOfPrint) globalScope)
  have assigned : aliasStore.Reaches nullStore :=
    .single (.step _ 3 (.statement nullForP) globalScope)
  obtain ⟨lists, complete_iff, -⟩ := variables_listed start aliased
  obtain ⟨-, -, declared, -⟩ := variables_listed start .refl
  have ownName : utf8 "p" ∉ Frame.predeclared.names := by decide +kernel
  refine ⟨?_, ?_, ?_⟩
  · intro listed
    obtain ⟨-, -, -, ordinary⟩ := (lists.shows_iff _ _ _).mp listed
    exact ordinary .print rfl
  · intro complete
    exact ownName (complete_iff.mp complete (utf8 "p") .print rfl)
  · obtain ⟨current, stands, listed⟩ := declared 3 aliasOfPrint (.native .print) aliasStore nullStore
      rfl assigned (utf8 "p") List.mem_cons_self
    obtain rfl : Value.null = current := Option.some.inj stands
    exact listed.mpr nofun

end Scriptlet
