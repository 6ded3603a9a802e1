import Mathlib.Data.List.SplitBy
import Scriptlet.Cli.Watch
/-!
Debouncing. The signals that a watcher takes are told here with their times, and the timers fire as
timers do: when the period has passed since the change that set them. The changes of the script fall
into bursts, in which each follows the one before within the period. A watcher runs its script once
for each burst, one period after its last change, until it is closed.
-/
namespace Scriptlet.Cli

/-- A signal, the time at which a watcher takes it, and the files that there are then. -/
structure Arrival where
  time : Nat
  signal : Signal
  files : Files

/-- Whether the script at a path was written or created. -/
def Arrival.concerns (path : Text) (a : Arrival) : Bool :=
  match a.signal with
  | .change name operations =>
    Path.clean name == path && (operations.write || operations.create)
  | _ => false

/-- Whether a signal is a change of the script at a path, a timer or the end. -/
def Arrival.matters (path : Text) (a : Arrival) : Bool :=
  match a.signal with
  | .change _ _ => a.concerns path
  | .trouble _ => false
  | .alarm _ => true
  | .close => true

/-- How many timers are set for some arrivals. -/
def timersSet (path : Text) (arrivals : List Arrival) : Nat :=
  arrivals.countP (·.concerns path)

/-- Arrivals in the order of their times, with timers that run for a period. A timer fires once the
period has passed since the change that set it. Between a change and anything that is taken when its
timer is overdue, either the script has changed again or the timer has fired. -/
structure Timely (period : Nat) (path : Text) (arrivals : List Arrival) : Prop where
  ordered : arrivals.Pairwise fun a b => a.time ≤ b.time
  due : ∀ a ∈ arrivals, ∀ timer, a.signal = .alarm timer →
    ∃ change ∈ (arrivals.filter (·.concerns path))[timer]?, a.time = change.time + period
  punctual : ∀ i j : Fin arrivals.length, i < j → arrivals[i].concerns path →
    arrivals[i].time + period < arrivals[j].time →
      ∃ k : Fin arrivals.length, i < k ∧ k < j ∧ (arrivals[k].concerns path ∨
        arrivals[k].signal = .alarm (timersSet path (arrivals.take i)))

/-- The times of the changes of a script, and the bursts that these fall into. -/
def changeTimes (path : Text) (arrivals : List Arrival) : List Nat :=
  (arrivals.filter (·.concerns path)).map (·.time)

def bursts (period : Nat) (times : List Nat) : List (List Nat) :=
  times.splitBy fun earlier later => decide (later < earlier + period)

/-- One period after the last change of each burst. -/
def dueTimes (period : Nat) (times : List Nat) : List Nat :=
  ((bursts period times).filterMap List.getLast?).map (· + period)

namespace Watcher

/-- Whether a watcher runs its script for a signal. -/
def Reruns (w : Watcher) (signal : Signal) : Prop := .rerun ∈ (w.loop.take w.path signal).2

instance (w : Watcher) (signal : Signal) : Decidable (w.Reruns signal) :=
  inferInstanceAs (Decidable (_ ∈ _))

def advance (bound : Nat) (w : Watcher) (a : Arrival) : Watcher :=
  (w.take bound a.files a.signal).2

def after (bound : Nat) (w : Watcher) (arrivals : List Arrival) : Watcher :=
  arrivals.foldl (advance bound) w

/-- The times at which a watcher runs its script again. -/
def runTimes (bound : Nat) (w : Watcher) : List Arrival → List Nat
  | [] => []
  | a :: rest =>
    let now := if w.Reruns a.signal then [a.time] else []
    now ++ runTimes bound (w.advance bound a) rest

/-- What taking an arrival shows. -/
def shown (bound : Nat) (w : Watcher) (a : Arrival) : List Effect :=
  (w.take bound a.files a.signal).1

/-- The watcher runs its script once, in a fresh global scope, tells of a status other than 0, and goes
on with the interpreter that the run leaves. -/
structure RunsScript (bound : Nat) (w : Watcher) (a : Arrival) (run : ScriptRun) : Prop where
  fresh : run = runScript bound a.files w.path w.interpreter.reset
  unstopped : run.stop = none ∨ run.stop = some 0 → w.shown bound a = run.effects
  stopped : ∀ status, run.stop = some status → status ≠ 0 →
    w.shown bound a = run.effects ++
      [.errLine
        (utf8 "[watch] " ++ w.path ++ utf8 " stopped with status " ++ Text.ofInt status.toInt)]
  goesOn : (w.advance bound a).interpreter = run.interpreter

/-- The watcher leaves its script alone, and only writes to the log. -/
structure StaysQuiet (bound : Nat) (w : Watcher) (a : Arrival) : Prop where
  logs : ∀ effect ∈ w.shown bound a, ∃ record, effect = .log record
  goesOn : (w.advance bound a).interpreter = w.interpreter

end Watcher

section Bursts
variable {period s t : Nat} {rest : List Nat}

/-- A change that is followed by another within the period does not end its burst. -/
theorem dueTimes_of_near (near : t < s + period) :
    dueTimes period (s :: t :: rest) = dueTimes period (t :: rest) := by
  obtain ⟨burst, others, split⟩ := List.exists_cons_of_ne_nil
    (List.splitBy_ne_nil (r := fun earlier later => decide (later < earlier + period)).mpr
      (List.cons_ne_nil t rest))
  obtain ⟨whole, some_, chains, apart⟩ := List.splitBy_eq_iff.mp split
  obtain ⟨first, more, rfl⟩ := List.exists_cons_of_ne_nil fun none : burst = [] =>
    some_ (none ▸ List.mem_cons_self)
  rw [List.flatten_cons, List.cons_append] at whole
  obtain ⟨rfl, rfl⟩ := List.cons.inj whole
  have longer : bursts period (s :: t :: (more ++ others.flatten)) = (s :: t :: more) :: others := by
    refine List.splitBy_eq_iff.mpr ⟨rfl, by simpa using some_, ?_, ?_⟩
    · intro burst member
      rcases List.mem_cons.mp member with rfl | later
      · exact List.isChain_cons_cons.mpr ⟨by simpa using near, chains _ List.mem_cons_self⟩
      · exact chains burst (List.mem_cons_of_mem _ later)
    · cases others with
      | nil => exact .singleton _
      | cons other others =>
        rw [List.isChain_cons_cons] at apart ⊢
        obtain ⟨⟨_, filled, far⟩, apart⟩ := apart
        exact ⟨⟨List.cons_ne_nil _ _, filled, by simpa using far⟩, apart⟩
  have shorter : bursts period (t :: (more ++ others.flatten)) = (t :: more) :: others := split
  have last : (s :: t :: more).getLast? = (t :: more).getLast? := List.getLast?_cons_cons
  rw [dueTimes, longer, dueTimes, shorter, List.filterMap_cons, List.filterMap_cons, last]

/-- A change that is not followed by another within the period ends its burst. -/
theorem dueTimes_of_far (far : ∀ t ∈ rest.head?, s + period ≤ t) :
    dueTimes period (s :: rest) = (s + period) :: dueTimes period rest := by
  have apart : bursts period ([s] ++ rest) = bursts period [s] ++ bursts period rest := by
    apply List.splitBy_append
    rintro _ ⟨⟩ t first
    exact decide_eq_false (Nat.not_lt.mpr (far t first))
  rw [dueTimes, ← List.singleton_append, apart]
  rfl

end Bursts

section Arrivals
variable {path : Text} {period : Nat} {front between rest : List Arrival} {change late : Arrival}

theorem Arrival.concerns_change {a : Arrival} {name : Text} {operations : Operations}
    (changed : a.signal = .change name operations) :
    a.concerns path = isRelevant path name operations := by
  rw [Arrival.concerns, changed, isRelevant]

theorem changeTimes_cons_of_pos {a : Arrival} (concerns : a.concerns path = true) :
    changeTimes path (a :: rest) = a.time :: changeTimes path rest := by
  rw [changeTimes, List.filter_cons_of_pos concerns]
  rfl

theorem changeTimes_cons_of_neg {a : Arrival} (quiet : a.concerns path = false) :
    changeTimes path (a :: rest) = changeTimes path rest := by
  rw [changeTimes, List.filter_cons_of_neg (by simp [quiet])]
  rfl

/-- The change that set a timer is found by the number of the timer. -/
theorem getElem?_timersSet (concerns : change.concerns path = true) :
    ((front ++ change :: rest).filter (·.concerns path))[timersSet path front]? = some change := by
  rw [List.filter_append, List.filter_cons_of_pos concerns, timersSet, List.countP_eq_length_filter,
    List.getElem?_append_right (Nat.le_refl _), Nat.sub_self, List.getElem?_cons_zero]

theorem timersSet_of_quiet (concerns : change.concerns path = true)
    (quiet : ∀ a ∈ between, a.concerns path = false) :
    timersSet path (front ++ change :: between) = timersSet path front + 1 := by
  have none_ : between.countP (·.concerns path) = 0 :=
    List.countP_eq_zero.mpr fun a member => by simp [quiet a member]
  rw [timersSet, List.countP_append, List.countP_cons_of_pos concerns, none_, timersSet]

/-- Nothing is taken when the timer of the last change is overdue and has not fired. -/
theorem Timely.waits (timely : Timely period path (front ++ change :: (between ++ late :: rest)))
    (concerns : change.concerns path = true)
    (silent : ∀ a ∈ between, a.concerns path = false ∧ a.signal ≠ .alarm (timersSet path front)) :
    late.time ≤ change.time + period := by
  by_contra overdue
  have first : front.length < (front ++ change :: (between ++ late :: rest)).length := by simp
  have last : front.length + (between.length + 1) <
      (front ++ change :: (between ++ late :: rest)).length := by simp
  obtain ⟨⟨k, within⟩, behind, before, answered⟩ :=
    timely.punctual ⟨_, first⟩ ⟨_, last⟩ (by simp) (by simpa using concerns) (by simp; omega)
  simp only [Fin.mk_lt_mk, Fin.getElem_fin] at behind before answered
  obtain ⟨m, rfl⟩ := Nat.exists_eq_add_of_lt behind
  have short : m < between.length := by omega
  have inside : (front ++ change :: (between ++ late :: rest))[front.length + m + 1] = between[m] := by
    simp [Nat.add_assoc, List.getElem_append_right, List.getElem_append_left short]
  obtain ⟨quiet, unfired⟩ := silent between[m] (List.getElem_mem short)
  rw [inside, quiet, List.take_left] at answered
  rcases answered with again | fired
  · cases again
  · exact unfired fired

/-- What is taken when the end has not come yet is taken before it, or is the end. -/
theorem exists_rest_of_unclosed {before after : List Arrival} {stop a : Arrival}
    (split : before ++ stop :: after = front ++ a :: rest) (unclosed : stop ∉ front) :
    ∃ rest, before ++ [stop] = front ++ a :: rest := by
  rcases List.append_eq_append_iff.mp split with ⟨more, rfl, behind⟩ | ⟨more, rfl, behind⟩
  · cases more with
    | nil =>
      obtain ⟨rfl, -⟩ := List.cons.inj behind
      exact ⟨[], by simp⟩
    | cons first more =>
      obtain ⟨rfl, -⟩ := List.cons.inj behind
      exact absurd (by simp) unclosed
  · cases more with
    | nil =>
      obtain ⟨rfl, -⟩ := List.cons.inj behind
      exact ⟨[], by simp⟩
    | cons first more =>
      obtain ⟨rfl, -⟩ := List.cons.inj behind
      exact ⟨more ++ [stop], by simp⟩

end Arrivals

section Loop
variable {path : Text} {done : List Arrival} {loop : WatchLoop} {awaited : Option Arrival}

/-- What a loop that is open has come to: it waits for no timer, or for that of the last change, which
has not fired since. -/
inductive Standing (path : Text) (done : List Arrival) : WatchLoop → Option Arrival → Prop where
  | idle : Standing path done { timers := timersSet path done } none
  | waiting {earlier between change} :
      done = earlier ++ change :: between → change.concerns path = true →
        (∀ a ∈ between, a.concerns path = false ∧ a.signal ≠ .alarm (timersSet path earlier)) →
          Standing path done
            { timers := timersSet path done, pending := some (timersSet path earlier) } (some change)

theorem timersSet_concat (path : Text) (done : List Arrival) (a : Arrival) :
    timersSet path (done ++ [a]) = timersSet path done + if a.concerns path then 1 else 0 := by
  rw [timersSet, List.countP_append, List.countP_singleton, timersSet]

/-- A change of the script sets a timer, which is waited for from then on. -/
theorem Standing.set (standing : Standing path done loop awaited) {a : Arrival}
    (concerns : a.concerns path = true) :
    .rerun ∉ (loop.take path a.signal).2 ∧
      Standing path (done ++ [a]) (loop.take path a.signal).1 (some a) := by
  have going : loop.closed = false := by cases standing <;> rfl
  have count : loop.timers = timersSet path done := by cases standing <;> rfl
  cases signal : a.signal with
  | change name operations =>
    have relevant : isRelevant path name operations = true :=
      (Arrival.concerns_change signal).symm.trans concerns
    have set : (loop.take path (.change name operations)).1 =
        { timers := timersSet path (done ++ [a]), pending := some (timersSet path done) } := by
      simp [WatchLoop.take, relevant, going, WatchLoop.setTimer, count, timersSet_concat, concerns]
    refine ⟨by simp [WatchLoop.take, relevant, going], ?_⟩
    rw [set]
    exact .waiting rfl concerns (by simp)
  | _ => simp [Arrival.concerns, signal] at concerns

/-- The timer that is waited for runs the script, and no other is waited for then. -/
theorem Standing.fire (standing : Standing path done loop awaited) {a : Arrival} {timer : Nat}
    (expected : loop.pending = some timer) (fired : a.signal = .alarm timer) :
    .rerun ∈ (loop.take path a.signal).2 ∧
      Standing path (done ++ [a]) (loop.take path a.signal).1 none := by
  have going : loop.closed = false := by cases standing <;> rfl
  have count : loop.timers = timersSet path done := by cases standing <;> rfl
  have quiet : a.concerns path = false := by simp [Arrival.concerns, fired]
  have cleared : (loop.take path (.alarm timer)).1 = { timers := timersSet path (done ++ [a]) } := by
    simp [WatchLoop.take, going, expected, timersSet_concat, quiet, ← count]
  rw [fired, cleared]
  exact ⟨by simp [WatchLoop.take, going, expected], .idle⟩

theorem Standing.pass (standing : Standing path done loop awaited) {a : Arrival}
    (quiet : a.concerns path = false) (unfired : ∀ timer ∈ loop.pending, a.signal ≠ .alarm timer)
    (open_ : a.signal ≠ .close) :
    .rerun ∉ (loop.take path a.signal).2 ∧
      Standing path (done ++ [a]) (loop.take path a.signal).1 awaited := by
  have still : (loop.take path a.signal).1 = loop ∧ .rerun ∉ (loop.take path a.signal).2 := by
    cases signal : a.signal with
    | close => exact absurd signal open_
    | trouble message =>
      simp only [WatchLoop.take]
      split <;> simp
    | change name operations =>
      have irrelevant : isRelevant path name operations = false :=
        (Arrival.concerns_change signal).symm.trans quiet
      simp [WatchLoop.take, irrelevant]
    | alarm timer =>
      have other : loop.pending ≠ some timer := fun expected => unfired timer expected signal
      simp [WatchLoop.take, other]
  refine ⟨still.2, still.1.symm ▸ ?_⟩
  have same : timersSet path (done ++ [a]) = timersSet path done := by
    simp [timersSet_concat, quiet]
  cases standing with
  | idle =>
    rw [← same]
    exact .idle
  | @waiting earlier between change whole concerns silent =>
    rw [← same]
    have split : done ++ [a] = earlier ++ change :: (between ++ [a]) := by simp [whole]
    refine .waiting split concerns ?_
    intro b member
    rcases List.mem_append.mp member with before | now
    · exact silent b before
    · obtain rfl := List.mem_singleton.mp now
      exact ⟨quiet, unfired _ rfl⟩

theorem Standing.take (standing : Standing path done loop awaited) {a : Arrival}
    (open_ : a.signal ≠ .close) :
    (a.concerns path = true ∧ .rerun ∉ (loop.take path a.signal).2 ∧
      Standing path (done ++ [a]) (loop.take path a.signal).1 (some a)) ∨
    ((∃ timer change, loop.pending = some timer ∧ awaited = some change ∧ a.signal = .alarm timer) ∧
      .rerun ∈ (loop.take path a.signal).2 ∧
      Standing path (done ++ [a]) (loop.take path a.signal).1 none) ∨
    (a.concerns path = false ∧ .rerun ∉ (loop.take path a.signal).2 ∧
      Standing path (done ++ [a]) (loop.take path a.signal).1 awaited) := by
  rcases concerns : a.concerns path with _ | _
  · by_cases fired : ∃ timer ∈ loop.pending, a.signal = .alarm timer
    · obtain ⟨timer, expected, fired⟩ := fired
      obtain ⟨change, waited⟩ : ∃ change, awaited = some change := by
        cases standing with
        | idle => cases expected
        | waiting => exact ⟨_, rfl⟩
      exact .inr (.inl ⟨⟨timer, change, expected, waited, fired⟩, standing.fire expected fired⟩)
    · have unfired : ∀ timer ∈ loop.pending, a.signal ≠ .alarm timer := by
        simpa using fired
      exact .inr (.inr ⟨rfl, standing.pass concerns unfired open_⟩)
  · exact .inl ⟨rfl, standing.set concerns⟩

theorem Standing.last (standing : Standing path done loop awaited) {timer : Nat}
    (expected : loop.pending = some timer) : timersSet path done = timer + 1 := by
  cases standing with
  | idle => cases expected
  | waiting whole concerns silent =>
    obtain rfl := Option.some.inj expected
    rw [whole, timersSet_of_quiet concerns fun a member => (silent a member).1]

/-- The change that is waited for, and what came before and since. -/
theorem Standing.source {change : Arrival} (standing : Standing path done loop (some change)) :
    ∃ earlier between, done = earlier ++ change :: between ∧ change.concerns path = true ∧
      (∀ a ∈ between, a.concerns path = false ∧ a.signal ≠ .alarm (timersSet path earlier)) ∧
      loop.pending = some (timersSet path earlier) := by
  cases standing with
  | waiting whole concerns silent => exact ⟨_, _, whole, concerns, silent, rfl⟩

theorem Standing.waits {period : Nat} {change late : Arrival} {rest : List Arrival}
    (standing : Standing path done loop (some change))
    (timely : Timely period path (done ++ late :: rest)) : late.time ≤ change.time + period := by
  obtain ⟨earlier, between, rfl, concerns, silent, -⟩ := standing.source
  rw [List.append_assoc, List.cons_append] at timely
  exact timely.waits concerns silent

/-- The timer that is waited for fires one period after the last change. -/
theorem Standing.fires {period timer : Nat} {change a : Arrival} {rest : List Arrival}
    (standing : Standing path done loop (some change))
    (timely : Timely period path (done ++ a :: rest)) (expected : loop.pending = some timer)
    (fired : a.signal = .alarm timer) : a.time = change.time + period := by
  obtain ⟨earlier, between, rfl, concerns, -, pending⟩ := standing.source
  obtain ⟨source, found, due⟩ := timely.due a (by simp) timer fired
  obtain rfl : timersSet path earlier = timer := Option.some.inj (pending.symm.trans expected)
  rw [List.append_assoc, List.cons_append, getElem?_timersSet concerns] at found
  cases found
  exact due

end Loop

theorem WatchLoop.reactions_take (path : Text) (loop : WatchLoop) (signal : Signal) :
    (loop.take path signal).2 = [] ∨ (∃ record, (loop.take path signal).2 = [.note record]) ∨
      (loop.take path signal).2 = [.rerun] := by
  cases signal with
  | close => exact .inl rfl
  | _ =>
    simp only [WatchLoop.take]
    split <;> simp

theorem WatchLoop.take_of_closed {path : Text} {loop : WatchLoop} (closed : loop.closed = true)
    (signal : Signal) : loop.take path signal = (loop, []) := by
  cases signal <;> simp [WatchLoop.take, closed]
  rw [← closed]

namespace Watcher
variable {bound period : Nat} {w : Watcher} {a : Arrival} {path : Text} {i : Interpreter}

/-- A watcher runs its script where its loop calls for that, and only writes to the log otherwise. -/
theorem take_eq (bound : Nat) (files : Files) (w : Watcher) (signal : Signal) :
    let next : Watcher := { w with loop := (w.loop.take w.path signal).1 }
    (w.Reruns signal ∧ w.take bound files signal = next.runOnce bound files) ∨
      (¬ w.Reruns signal ∧ (w.take bound files signal).2 = next ∧
        ∀ effect ∈ (w.take bound files signal).1, ∃ record, effect = .log record) := by
  rcases taken : w.loop.take w.path signal with ⟨loop, reactions⟩
  have few := w.loop.reactions_take w.path signal
  rw [taken] at few
  rcases few with rfl | ⟨record, rfl⟩ | rfl
  · exact .inr (by simp [Reruns, Watcher.take, taken, reactAll])
  · exact .inr (by simp [Reruns, Watcher.take, taken, reactAll, react])
  · exact .inl (by simp [Reruns, Watcher.take, taken, reactAll, react])

/-- An arrival that the loop answers with a run makes the watcher run its script, and no other does. -/
theorem runsScript_or_staysQuiet (bound : Nat) (w : Watcher) (a : Arrival) :
    if w.Reruns a.signal then ∃ run, w.RunsScript bound a run else w.StaysQuiet bound a := by
  rcases w.take_eq bound a.files a.signal with ⟨reruns, ran⟩ | ⟨still, same, logs⟩
  · rw [if_pos reruns]
    have next : (w.advance bound a).interpreter =
        (runScript bound a.files w.path w.interpreter.reset).interpreter := by
      rw [advance, ran]
      rfl
    refine ⟨_, rfl, ?_, ?_, next⟩
    · intro unstopped
      rw [shown, ran, runOnce]
      rcases unstopped with stop | stop <;> simp [stop]
    · intro status stop failed
      rw [shown, ran, runOnce]
      simp [stop, failed]
  · rw [if_neg still]
    exact ⟨logs, by rw [advance, same]⟩

@[simp]
theorem loop_advance (bound : Nat) (w : Watcher) (a : Arrival) :
    (w.advance bound a).loop = (w.loop.take w.path a.signal).1 := by
  rcases w.take_eq bound a.files a.signal with ⟨-, ran⟩ | ⟨-, same, -⟩
  · rw [advance, ran]
    rfl
  · rw [advance, same]

@[simp]
theorem path_advance (bound : Nat) (w : Watcher) (a : Arrival) : (w.advance bound a).path = w.path := by
  rcases w.take_eq bound a.files a.signal with ⟨-, ran⟩ | ⟨-, same, -⟩
  · rw [advance, ran]
    rfl
  · rw [advance, same]

theorem path_after (bound : Nat) (w : Watcher) (arrivals : List Arrival) :
    (w.after bound arrivals).path = w.path := by
  induction arrivals generalizing w with
  | nil => rfl
  | cons a rest ih => exact (ih _).trans (path_advance bound w a)

theorem after_concat (bound : Nat) (w : Watcher) (arrivals : List Arrival) (a : Arrival) :
    w.after bound (arrivals ++ [a]) = (w.after bound arrivals).advance bound a :=
  List.foldl_concat _ _ _ _

/-- A watcher that is closed stays so and does not run its script. -/
theorem closed_after (bound : Nat) (w : Watcher) {arrivals : List Arrival}
    (closes : ∃ a ∈ arrivals, a.signal = .close) : (w.after bound arrivals).loop.closed = true := by
  induction arrivals using List.reverseRecOn with
  | nil => simp at closes
  | append_singleton arrivals a ih =>
    rw [after_concat, loop_advance]
    by_cases last : a.signal = .close
    · rw [last]
      rfl
    · have before : ∃ a ∈ arrivals, a.signal = .close := by
        obtain ⟨b, member, closes⟩ := closes
        rcases List.mem_append.mp member with before | now
        · exact ⟨b, before, closes⟩
        · exact absurd (List.mem_singleton.mp now ▸ closes) last
      rw [WatchLoop.take_of_closed (ih before)]
      exact ih before

theorem not_reruns_of_closed (closed : w.loop.closed = true) (signal : Signal) :
    ¬ w.Reruns signal := by
  simp [Reruns, WatchLoop.take_of_closed closed]

theorem runTimes_cons_of_reruns (runs : w.Reruns a.signal) (rest : List Arrival) :
    w.runTimes bound (a :: rest) = a.time :: (w.advance bound a).runTimes bound rest := by
  rw [runTimes, if_pos runs]
  rfl

theorem runTimes_cons_of_not (still : ¬ w.Reruns a.signal) (rest : List Arrival) :
    w.runTimes bound (a :: rest) = (w.advance bound a).runTimes bound rest := by
  rw [runTimes, if_neg still]
  rfl

theorem runTimes_of_closed (closed : w.loop.closed = true) (arrivals : List Arrival) :
    w.runTimes bound arrivals = [] := by
  induction arrivals generalizing w with
  | nil => rfl
  | cons a rest ih =>
    have still : (w.advance bound a).loop.closed = true := by
      rw [loop_advance, WatchLoop.take_of_closed closed]
      exact closed
    rw [runTimes_cons_of_not (not_reruns_of_closed closed a.signal), ih still]

theorem standing_after (bound : Nat) (path : Text) (i : Interpreter) {arrivals : List Arrival}
    (open_ : ∀ a ∈ arrivals, a.signal ≠ .close) :
    ∃ awaited, Standing path arrivals
      (({ path, interpreter := i } : Watcher).after bound arrivals).loop awaited := by
  induction arrivals using List.reverseRecOn with
  | nil => exact ⟨none, .idle⟩
  | append_singleton arrivals a ih =>
    obtain ⟨awaited, standing⟩ := ih fun b member => open_ b (List.mem_append_left _ member)
    rw [after_concat, loop_advance, path_after]
    rcases standing.take (open_ a (by simp)) with ⟨-, -, next⟩ | ⟨-, -, next⟩ | ⟨-, -, next⟩
    all_goals exact ⟨_, next⟩

/-- What a timer that runs the script goes back to: a change one period ago, since when the script has
neither changed nor run. -/
theorem source_of_reruns (bound : Nat) (i : Interpreter) {front rest : List Arrival}
    (open_ : ∀ b ∈ front, b.signal ≠ .close) (timely : Timely period path (front ++ a :: rest))
    (reruns : (({ path, interpreter := i } : Watcher).after bound front).Reruns a.signal) :
    ∃ earlier change between, front = earlier ++ change :: between ∧ change.concerns path = true ∧
      a.signal = .alarm (timersSet path earlier) ∧ a.time = change.time + period ∧
      (∀ b ∈ between, b.concerns path = false) ∧
      ∀ inner b later, between = inner ++ b :: later →
        ¬ (({ path, interpreter := i } : Watcher).after bound
          (earlier ++ change :: inner)).Reruns b.signal := by
  have here (arrivals : List Arrival) :
      (({ path, interpreter := i } : Watcher).after bound arrivals).path = path := path_after _ _ _
  obtain ⟨awaited, standing⟩ := standing_after bound path i open_
  rw [Reruns, here] at reruns
  have alarm : a.signal ≠ .close := by
    intro closes
    simp [closes, WatchLoop.take] at reruns
  rcases standing.take alarm with ⟨-, still, -⟩ | ⟨⟨timer, change, expected, rfl, fired⟩, -, -⟩ |
    ⟨-, still, -⟩
  · exact absurd reruns still
  · have due := standing.fires timely expected fired
    obtain ⟨earlier, between, rfl, concerns, silent, pending⟩ := standing.source
    obtain rfl : timersSet path earlier = timer := Option.some.inj (pending.symm.trans expected)
    refine ⟨earlier, change, between, rfl, concerns, fired, due,
      fun b member => (silent b member).1, ?_⟩
    rintro inner b later rfl runs
    have quiet : ∀ c ∈ inner, c.concerns path = false := fun c member =>
      (silent c (List.mem_append_left _ member)).1
    have openEarlier : ∀ c ∈ earlier ++ change :: inner, c.signal ≠ .close := by
      intro c member
      apply open_ c
      rw [← List.cons_append, ← List.append_assoc]
      exact List.mem_append_left _ member
    obtain ⟨awaited, standing⟩ := standing_after bound path i openEarlier
    rw [Reruns, here] at runs
    rcases standing.take (open_ b (by simp)) with ⟨-, still, -⟩ |
      ⟨⟨timer, other, expected, -, again⟩, -, -⟩ | ⟨-, still, -⟩
    · exact still runs
    · -- the timer of the change would have fired before
      have same := standing.last expected
      rw [timersSet_of_quiet concerns quiet] at same
      exact (silent b (by simp)).2 (Nat.succ.inj same ▸ again)
    · exact still runs
  · exact absurd reruns still

theorem runTimes_of_standing {done rest after : List Arrival} {stop : Arrival}
    {awaited : Option Arrival} (standing : Standing path done w.loop awaited) (here : w.path = path)
    (timely : Timely period path (done ++ (rest ++ [stop])))
    (open_ : ∀ a ∈ rest, a.signal ≠ .close) (closes : stop.signal = .close)
    (untied : (awaited.toList ++ (rest.filter (·.concerns path) ++ [stop])).Pairwise
      fun change next => next.time ≠ change.time + period) :
    w.runTimes bound (rest ++ stop :: after) =
      (dueTimes period (awaited.toList.map (·.time) ++ changeTimes path rest)).filter
        (· < stop.time) := by
  induction rest generalizing done w awaited with
  | nil =>
    have closed : (w.advance bound stop).loop.closed = true := by
      rw [loop_advance, closes]
      rfl
    have still : ¬ w.Reruns stop.signal := by simp [Reruns, closes, WatchLoop.take]
    rw [List.nil_append, runTimes_cons_of_not still, runTimes_of_closed closed]
    cases awaited with
    | none => rfl
    | some change =>
      have early : stop.time ≤ change.time + period := standing.waits timely
      simp [changeTimes, dueTimes, bursts, List.splitBy, List.splitBy.loop, early]
  | cons a rest ih =>
    have later : Timely period path ((done ++ [a]) ++ (rest ++ [stop])) := by
      simpa using timely
    have goesOn : ∀ b ∈ rest, b.signal ≠ .close := fun b member =>
      open_ b (List.mem_cons_of_mem _ member)
    subst here
    rw [List.cons_append]
    rcases standing.take (open_ a List.mem_cons_self) with
      ⟨concerns, still, next⟩ | ⟨⟨timer, change, expected, rfl, fired⟩, runs, next⟩ | ⟨quiet, still, next⟩
    · rw [runTimes_cons_of_not still, changeTimes_cons_of_pos concerns]
      rw [List.filter_cons_of_pos concerns] at untied
      rw [ih (by rwa [loop_advance]) (path_advance ..) later goesOn
        (untied.sublist (List.sublist_append_right _ _))]
      cases awaited with
      | none => rfl
      | some change =>
        -- the change comes within the period, so the two are of one burst
        have early : a.time ≤ change.time + period := standing.waits timely
        have apart : a.time ≠ change.time + period :=
          (List.pairwise_cons.mp untied).1 a (by simp)
        have near : a.time < change.time + period := Nat.lt_of_le_of_ne early apart
        exact congrArg (List.filter _) (dueTimes_of_near near).symm
    · have due : a.time = change.time + period := standing.fires timely expected fired
      have quiet : a.concerns w.path = false := by simp [Arrival.concerns, fired]
      rw [List.filter_cons_of_neg (by simp [quiet])] at untied
      obtain ⟨apart, untied⟩ := List.pairwise_cons.mp untied
      have behind : ∀ b ∈ rest ++ [stop], a.time ≤ b.time :=
        (List.pairwise_cons.mp (List.pairwise_append.mp timely.ordered).2.1).1
      have early : change.time + period < stop.time := by
        have := behind stop (by simp)
        have := apart stop (by simp)
        omega
      have far : ∀ t ∈ (changeTimes w.path rest).head?, change.time + period ≤ t := by
        intro t first
        obtain ⟨b, member, rfl⟩ := List.mem_map.mp (List.mem_of_head? first)
        exact due ▸ behind b (List.mem_append_left _ (List.mem_of_mem_filter member))
      rw [← loop_advance bound] at next
      rw [runTimes_cons_of_reruns runs, changeTimes_cons_of_neg quiet,
        ih next (path_advance ..) later goesOn untied]
      simp only [Option.toList_some, List.map_cons, List.map_nil, List.singleton_append,
        Option.toList_none, List.nil_append]
      rw [dueTimes_of_far far, List.filter_cons_of_pos (by simpa using early), due]
    · rw [runTimes_cons_of_not still, changeTimes_cons_of_neg quiet]
      rw [List.filter_cons_of_neg (by simp [quiet])] at untied
      exact ih (by rwa [loop_advance]) (path_advance ..) later goesOn untied

theorem runTimes_filter_matters (bound : Nat) (w : Watcher) (arrivals : List Arrival) :
    w.runTimes bound (arrivals.filter (·.matters w.path)) = w.runTimes bound arrivals := by
  induction arrivals generalizing w with
  | nil => rfl
  | cons a rest ih =>
    have next := ih (w.advance bound a)
    rw [path_advance] at next
    rcases matters : a.matters w.path with _ | _
    · have still : w.advance bound a = w ∧ ¬ w.Reruns a.signal := by
        cases signal : a.signal with
        | change name operations =>
          have irrelevant : isRelevant w.path name operations = false := by
            rw [← Arrival.concerns_change signal, ← matters, Arrival.matters, signal]
          simp [advance, Reruns, Watcher.take, signal, WatchLoop.take, irrelevant, reactAll]
        | trouble message =>
          rcases closed : w.loop.closed with _ | _ <;>
            simp [advance, Reruns, Watcher.take, signal, WatchLoop.take, closed, reactAll, react]
        | alarm | close => simp [Arrival.matters, signal] at matters
      rw [List.filter_cons_of_neg (by simp [matters]), runTimes_cons_of_not still.2, ← next, still.1]
    · rw [List.filter_cons_of_pos matters]
      by_cases runs : w.Reruns a.signal
      · rw [runTimes_cons_of_reruns runs, runTimes_cons_of_reruns runs, next]
      · rw [runTimes_cons_of_not runs, runTimes_cons_of_not runs, next]

/-- When a watcher runs its script again. A run goes back to a change of the script, one period ago,
since when the script has neither changed nor run, and it is the timer of this change that fires then.
Unless a change or the end comes at the very time at which a timer is due, each burst of changes leads
to one run, one period after its last change, if that is before the end, and nothing else does. What is
neither a change of the script nor a timer nor the end makes no difference. To run again is to run the
script that is watched, as it is then, in a fresh global scope; whatever else arrives only makes the
watcher write to its log. -/
theorem runs_follow_bursts (bound : Nat) (i : Interpreter) {period : Nat} {path : Text}
    {before : List Arrival} {stop : Arrival} (timely : Timely period path (before ++ [stop]))
    (open_ : ∀ a ∈ before, a.signal ≠ .close) (closes : stop.signal = .close)
    (after : List Arrival) :
    let w : Watcher := { path, interpreter := i }
    (∀ front a rest, before ++ stop :: after = front ++ a :: rest →
      (w.after bound front).Reruns a.signal →
      ∃ earlier change between, front = earlier ++ change :: between ∧ change.concerns path = true ∧
        a.signal = .alarm (timersSet path earlier) ∧ a.time = change.time + period ∧
        (∀ b ∈ between, b.concerns path = false) ∧
        ∀ inner b later, between = inner ++ b :: later →
          ¬ (w.after bound (earlier ++ change :: inner)).Reruns b.signal) ∧
    ((before.filter (·.concerns path) ++ [stop]).Pairwise
        (fun change next => next.time ≠ change.time + period) →
      w.runTimes bound (before ++ stop :: after) =
        (dueTimes period (changeTimes path before)).filter (· < stop.time)) ∧
    w.runTimes bound ((before ++ stop :: after).filter (·.matters path)) =
      w.runTimes bound (before ++ stop :: after) ∧
    ∀ front a rest, before ++ stop :: after = front ++ a :: rest →
      (w.after bound front).path = path ∧
      if (w.after bound front).Reruns a.signal then ∃ run, (w.after bound front).RunsScript bound a run
      else (w.after bound front).StaysQuiet bound a := by
  intro w
  refine ⟨?_, ?_, w.runTimes_filter_matters bound _, fun front a rest _ =>
    ⟨w.path_after bound front, (w.after bound front).runsScript_or_staysQuiet bound a⟩⟩
  · intro front a rest split reruns
    have unclosed : ∀ b ∈ front, b.signal ≠ .close := fun b member closes =>
      not_reruns_of_closed (w.closed_after bound ⟨b, member, closes⟩) a.signal reruns
    obtain ⟨rest, inside⟩ := exists_rest_of_unclosed split fun member => unclosed stop member closes
    exact source_of_reruns bound i unclosed (inside ▸ timely) reruns
  · intro untied
    have standing : Standing path [] w.loop none := .idle
    exact runTimes_of_standing standing rfl timely open_ closes untied

/-- Two bursts of changes and a change that the end follows at once. There are a name that is not
clean, another file, an operation that does not count, a trouble and a timer that came too late. -/
def busyMorning : List Arrival :=
  let files : Files := { here := [], directories := [], contents := [] }
  [⟨0, .change (utf8 "a") { write := true }, files⟩,
    ⟨30, .change (utf8 "./a") { create := true }, files⟩,
    ⟨40, .change (utf8 "b") { write := true }, files⟩,
    ⟨50, .change (utf8 "a") { words := utf8 "CHMOD" }, files⟩,
    ⟨60, .trouble (utf8 "overflow"), files⟩,
    ⟨100, .alarm 0, files⟩, ⟨130, .alarm 1, files⟩,
    ⟨300, .change (utf8 "a") { write := true }, files⟩, ⟨400, .alarm 2, files⟩,
    ⟨450, .change (utf8 "a") { write := true }, files⟩]

def quittingTime : Arrival :=
  { time := 500, signal := .close, files := { here := [], directories := [], contents := [] } }

theorem busyMorning_runs :
    Timely 100 (utf8 "a") (busyMorning ++ [quittingTime]) ∧
      (∀ a ∈ busyMorning, a.signal ≠ .close) ∧ quittingTime.signal = .close ∧
      (busyMorning.filter (·.concerns (utf8 "a")) ++ [quittingTime]).Pairwise
        (fun change next => next.time ≠ change.time + 100) ∧
      runTimes 1000
          { path := utf8 "a", interpreter := .fresh (.still ⟨2024, 3, 9, 14, 5, 7, 0⟩) (utf8 "a") }
          (busyMorning ++ [quittingTime]) = [130, 400] := by
  have timely : Timely 100 (utf8 "a") (busyMorning ++ [quittingTime]) := by
    refine ⟨by decide +kernel, ?_, by decide +kernel⟩
    intro a member timer fired
    simp only [busyMorning, quittingTime, List.cons_append, List.nil_append, List.mem_cons,
      List.not_mem_nil, or_false] at member
    rcases member with rfl | rfl | rfl | rfl | rfl | rfl | rfl | rfl | rfl | rfl | rfl
    all_goals cases fired
    all_goals exact ⟨_, rfl, rfl⟩
  have open_ : ∀ a ∈ busyMorning, a.signal ≠ .close := by decide
  have untied : (busyMorning.filter (·.concerns (utf8 "a")) ++ [quittingTime]).Pairwise
      (fun change next => next.time ≠ change.time + 100) := by decide +kernel
  refine ⟨timely, open_, rfl, untied, ?_⟩
  rw [(runs_follow_bursts 1000 _ timely open_ rfl []).2.1 untied]
  decide +kernel

end Watcher

end Scriptlet.Cli
