import Scriptlet.Proofs.Mirroring
import Scriptlet.Proofs.Tasks
/-!
Stops unwind. In direct style a stop is an object like any other, and each rule has to look whether the
objects of its parts unwind. It forgets none: what unwinds is handed on as it is from wherever it comes
up, and nothing is declared, assigned or printed on the way.
-/
namespace Scriptlet

/-- The bindings, what was printed, and the machine. -/
def ObjectStore.contents (objects : ObjectStore) : Heap × List Printed × Machine :=
  (objects.heap, objects.printed, objects.machine)

theorem ObjectStore.Shows.contents_eq {objects other : ObjectStore} {store : Store}
    (shows : objects.Shows store) (same : other.Shows store) : objects.contents = other.contents := by
  rw [contents, contents, shows.heap, shows.printed, shows.machine, same.heap, same.printed,
    same.machine]

/-- The objects of the values in a store. -/
def ObjectStore.ofStore (store : Store) : ObjectStore :=
  { heap := .ofFrames store.frames, printed := store.printed, machine := store.machine }

theorem ObjectStore.shows_ofStore (store : Store) : (ofStore store).Shows store :=
  ⟨rfl, rfl, rfl, nofun⟩

theorem Object.unwinds_ofResult_iff {result : Except Stop Value} :
    (ofResult result).unwinds = true ↔ ∃ stop, result = .error stop := by
  cases result with
  | ok value => simp [ofResult]
  | error stop => simp [ofResult, unwinds]

namespace Task

/-- The task in direct style: the object it comes to, and the store it leaves. -/
def direct (task : Task) (objects : ObjectStore) : Object × ObjectStore :=
  (Direct.node task.bound task.node task.scope).run objects

variable {whole part : Task} {objects inner : ObjectStore}

theorem fst_direct (shows : objects.Shows whole.store) :
    (whole.direct objects).1 = .ofResult whole.outcome.1 :=
  (Direct.mirrors_node whole.bound whole.node whole.scope objects whole.store shows).1

theorem shows_direct (shows : objects.Shows whole.store) :
    (whole.direct objects).2.Shows whole.outcome.2 :=
  (Direct.mirrors_node whole.bound whole.node whole.scope objects whole.store shows).2

/-- Two tasks with the same outcome are the same in direct style. -/
theorem direct_congr (shows : objects.Shows whole.store) (inside : inner.Shows part.store)
    (same : whole.outcome = part.outcome) :
    (whole.direct objects).1 = (part.direct inner).1 ∧
      (whole.direct objects).2.contents = (part.direct inner).2.contents := by
  have left := shows_direct shows
  rw [same] at left
  exact ⟨by rw [fst_direct shows, fst_direct inside, same],
    left.contents_eq (shows_direct inside)⟩

theorem exists_stop_of_unwinds (shows : objects.Shows whole.store)
    (unwinds : (whole.direct objects).1.unwinds = true) :
    ∃ stop after, whole.outcome = (.error stop, after) := by
  rw [fst_direct shows, Object.unwinds_ofResult_iff] at unwinds
  obtain ⟨stop, stops⟩ := unwinds
  exact ⟨stop, whole.outcome.2, by rw [← stops]⟩

theorem not_unwinds_of_gives {value : Value} {after : Store} (shows : objects.Shows whole.store)
    (gives : whole.outcome = (.ok value, after)) : (whole.direct objects).1.unwinds = false := by
  rw [fst_direct shows, gives]
  exact Object.unwinds_ofValue value

theorem direct_of_performsWithin (performed : whole.PerformsWithin part)
    (shows : objects.Shows whole.store) (inside : inner.Shows part.store)
    (unwinds : (part.direct inner).1.unwinds = true) :
    (whole.direct objects).1 = (part.direct inner).1 ∧
      (whole.direct objects).2.contents = (part.direct inner).2.contents := by
  obtain ⟨stop, after, stops⟩ := exists_stop_of_unwinds inside unwinds
  exact direct_congr shows inside ((outcome_of_performsWithin performed stops).trans stops.symm)

theorem exists_origin_of_unwinds (shows : objects.Shows whole.store)
    (unwinds : (whole.direct objects).1.unwinds = true) :
    ∃ origin, Relation.ReflTransGen Performs whole origin ∧
      (∀ own, own.Shows origin.store → (whole.direct objects).1 = (origin.direct own).1 ∧
        (whole.direct objects).2.contents = (origin.direct own).2.contents) ∧
      ∀ part inner, origin.Performs part → inner.Shows part.store →
        (part.direct inner).1.unwinds = false := by
  obtain ⟨stop, after, stops⟩ := exists_stop_of_unwinds shows unwinds
  obtain ⟨origin, path, raised⟩ := exists_raises stops
  refine ⟨origin, path, ?_, ?_⟩
  · intro own inside
    exact direct_congr shows inside (stops.trans raised.stops.symm)
  · intro part inner performed inside
    obtain ⟨value, left, gives⟩ := raised.parts part performed
    exact not_unwinds_of_gives inside gives

/-- A stop of any task that is performed on behalf of another stops that one too, in the very same way
and with the store as it was left at that point; a task that gives a value has performed none that
stopped. Every stop comes from a task all parts of which gave values, and what a task performs is all
that its outcome depends on. In direct style, where the rules look for what unwinds, an object that
unwinds in any part is the object of the whole, which leaves the store as that part left it; if the
object of the whole does not unwind, that of no part does; and an object that unwinds is that of a task
no part of which has one. -/
theorem stops_unwind (whole : Task) :
    (∀ part stop after, whole.PerformsWithin part → part.outcome = (.error stop, after) →
        whole.outcome = (.error stop, after)) ∧
      (∀ value after, whole.outcome = (.ok value, after) →
        ∀ part, whole.PerformsWithin part → ∃ given left, part.outcome = (.ok given, left)) ∧
      (∀ stop after, whole.outcome = (.error stop, after) →
        ∃ origin, Relation.ReflTransGen Performs whole origin ∧ origin.Raises stop after) ∧
      (∀ other : Eval.Evaluation,
        (∀ bound statement scope store,
          whole.Performs ⟨bound, .statement statement, scope, store⟩ →
            (other statement scope).outcome store = (statement.eval bound scope).outcome store) →
          whole.outcomeWith other = whole.outcome) ∧
      ∀ objects : ObjectStore, objects.Shows whole.store →
        (∀ part inner, whole.PerformsWithin part → inner.Shows part.store →
          (part.direct inner).1.unwinds = true →
            (whole.direct objects).1 = (part.direct inner).1 ∧
              (whole.direct objects).2.contents = (part.direct inner).2.contents) ∧
        ((whole.direct objects).1.unwinds = false →
          ∀ part inner, whole.PerformsWithin part → inner.Shows part.store →
            (part.direct inner).1.unwinds = false) ∧
        ((whole.direct objects).1.unwinds = true →
          ∃ origin, Relation.ReflTransGen Performs whole origin ∧
            (∀ own, own.Shows origin.store → (whole.direct objects).1 = (origin.direct own).1 ∧
              (whole.direct objects).2.contents = (origin.direct own).2.contents) ∧
            ∀ part inner, origin.Performs part → inner.Shows part.store →
              (part.direct inner).1.unwinds = false) := by
  refine ⟨?_, ?_, ?_, ?_, ?_⟩
  · intro part stop after performed stops
    exact outcome_of_performsWithin performed stops
  · intro value after gives part performed
    exact gives_of_performsWithin performed gives
  · intro stop after stops
    exact exists_raises stops
  · intro other agree
    exact outcomeWith_eq agree
  · intro objects shows
    refine ⟨?_, ?_, exists_origin_of_unwinds shows⟩
    · intro part inner performed inside unwinds
      exact direct_of_performsWithin performed shows inside unwinds
    · intro settles part inner performed inside
      rcases unwinds : (part.direct inner).1.unwinds with _ | _
      · rfl
      · rw [(direct_of_performsWithin performed shows inside unwinds).1, unwinds] at settles
        exact settles

/-- `func quit() { exit(); println(); } if (true) { println(quit()); }` -/
def quitting : Program :=
  let named (text : String) : Ident := ⟨.none, utf8 text⟩
  let call (text : String) (arguments : List Expr) : Expr :=
    .call .none (.ident (named text)) arguments
  [.function .none (named "quit") [] [.expr (call "exit" []), .expr (call "println" [])],
    .branch ⟨.none, .ident (named "true"), [.expr (call "println" [call "quit" []])]⟩ []]

/-- The program in a new interpreter. -/
def quittingTask : Task :=
  { bound := 5, node := .program quitting, scope := Interpreter.globalScope
    store := Interpreter.freshStore (.still ⟨2024, 3, 9, 14, 5, 7, 0⟩) }

/-- The one statement of a program that ends. -/
def settling : Task :=
  ⟨1, .program [.expr (.boolean .none true)], Interpreter.globalScope, quittingTask.store⟩

-- The call of `exit` is four levels deep: a statement of a function called in an argument of a
-- statement inside a conditional.
theorem quitting_unwinds :
    (∃ part after, quittingTask.PerformsWithin part ∧
        part.outcome = (.error (.halted ⟨0, []⟩), after) ∧
        quittingTask.outcome = (.error (.halted ⟨0, []⟩), after) ∧
        (part.direct (.ofStore part.store)).1.unwinds = true ∧
        (quittingTask.direct (.ofStore quittingTask.store)).1 =
          (part.direct (.ofStore part.store)).1) ∧
      (∃ part given left, settling.PerformsWithin part ∧ part.outcome = (.ok given, left) ∧
        (part.direct (.ofStore part.store)).1.unwinds = false) ∧
      (∃ origin after, Relation.ReflTransGen Performs quittingTask origin ∧
        origin.Raises (.halted ⟨0, []⟩) after) ∧
      quittingTask.outcomeWith (Stmt.eval 5) = quittingTask.outcome ∧
      ∃ origin, Relation.ReflTransGen Performs quittingTask origin ∧
        (quittingTask.direct (.ofStore quittingTask.store)).1 =
          (origin.direct (.ofStore origin.store)).1 := by
  have first := @Performs.program 5 quitting quittingTask.scope quittingTask.store _ (.tail rfl .head)
  have second := Relation.TransGen.tail (.single first) (.statement (.link rfl (.body rfl .head)))
  have third := second.tail (.statement (.argument rfl .head))
  have fourth := third.tail (.statement (.called rfl rfl rfl rfl .head))
  have plain := @Performs.program 1 [.expr (.boolean .none true)] settling.scope settling.store _ .head
  have shows := ObjectStore.shows_ofStore
  obtain ⟨stops, -, raises, complete, direct⟩ := stops_unwind quittingTask
  obtain ⟨handsOn, -, origins⟩ := direct _ (shows _)
  obtain ⟨-, gives, -, -, settles⟩ := stops_unwind settling
  obtain ⟨given, left, ended⟩ := gives _ _ rfl _ (.single plain)
  obtain ⟨origin, path, raised⟩ := raises _ _ rfl
  have unwinds : (quittingTask.direct (.ofStore quittingTask.store)).1.unwinds = true := by
    rw [fst_direct (shows _)]
    rfl
  obtain ⟨source, way, same, -⟩ := origins unwinds
  refine ⟨⟨_, _, fourth, rfl, stops _ _ _ fourth rfl, ?_, ?_⟩,
    ⟨_, given, left, .single plain, ended, ?_⟩, ⟨origin, _, path, raised⟩,
    complete (Stmt.eval 5) (by rintro _ _ _ _ ⟨⟩; rfl), source, way, (same _ (shows _)).1⟩
  · rw [fst_direct (shows _)]
    rfl
  · refine (handsOn _ _ fourth (shows _) ?_).1
    rw [fst_direct (shows _)]
    rfl
  · refine (settles _ (shows _)).2.1 ?_ _ _ (.single plain) (shows _)
    rw [fst_direct (shows _)]
    rfl

end Task

end Scriptlet
