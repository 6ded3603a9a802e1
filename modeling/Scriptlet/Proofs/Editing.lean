import Mathlib.Order.Bounds.Basic
import Scriptlet.Diagnostic.EditDistance
/-!
Edits. The edit distance is the least number of edits that lead from one text to another, whatever the
edits are and in whatever order they come. Edits can be put in order, from left to right, without more of
them being needed; and of alignments from left to right the last step is one of three, so the least cost
follows from the least costs of shorter texts. A cell of a row holds such a least cost, and filling a row
needs only the row before it and the cells that are filled already, not what else the row held.
-/
namespace Scriptlet.EditDistance

/-- A single byte is inserted, deleted or replaced. -/
inductive Edit : Text → Text → Prop where
  | insert (front back : Text) (byte : UInt8) : Edit (front ++ back) (front ++ byte :: back)
  | delete (front back : Text) (byte : UInt8) : Edit (front ++ byte :: back) (front ++ back)
  | replace (front back : Text) (byte other : UInt8) :
      Edit (front ++ byte :: back) (front ++ other :: back)

/-- So many edits one after another. -/
inductive Edits : Nat → Text → Text → Prop where
  | none (a : Text) : Edits 0 a a
  | more {n : Nat} {a b c : Text} : Edit a b → Edits n b c → Edits (n + 1) a c

/-- A step from left to right over two texts: a byte stands against a byte, or against nothing. -/
inductive Step where
  | pass (byte other : UInt8)
  | leave (byte : UInt8)
  | enter (other : UInt8)

namespace Step

def source? : Step → Option UInt8
  | .pass byte _ => some byte
  | .leave byte => some byte
  | .enter _ => none

def target? : Step → Option UInt8
  | .pass _ other => some other
  | .leave _ => none
  | .enter other => some other

def cost : Step → Nat
  | .pass byte other => if byte = other then 0 else 1
  | .leave _ => 1
  | .enter _ => 1

end Step

def source (steps : List Step) : Text := steps.filterMap Step.source?

def target (steps : List Step) : Text := steps.filterMap Step.target?

def cost : List Step → Nat
  | [] => 0
  | step :: rest => step.cost + cost rest

@[simp]
theorem source_append (s t : List Step) : source (s ++ t) = source s ++ source t :=
  List.filterMap_append

@[simp]
theorem target_append (s t : List Step) : target (s ++ t) = target s ++ target t :=
  List.filterMap_append

@[simp]
theorem source_nil : source [] = [] := rfl

@[simp]
theorem target_nil : target [] = [] := rfl

@[simp]
theorem cost_nil : cost [] = 0 := rfl

theorem source_cons (step : Step) (steps : List Step) :
    source (step :: steps) = step.source?.toList ++ source steps := by
  cases step <;> rfl

theorem target_cons (step : Step) (steps : List Step) :
    target (step :: steps) = step.target?.toList ++ target steps := by
  cases step <;> rfl

@[simp]
theorem cost_cons (step : Step) (steps : List Step) : cost (step :: steps) = step.cost + cost steps := rfl

@[simp]
theorem cost_append (s t : List Step) : cost (s ++ t) = cost s + cost t := by
  induction s with
  | nil => simp
  | cons step rest ih => simp [ih, Nat.add_assoc]

theorem cost_map {step : UInt8 → Step} {each : Nat} (same : ∀ byte, (step byte).cost = each)
    (text : Text) : cost (text.map step) = text.length * each := by
  induction text with
  | nil => simp
  | cons byte rest ih => simp [same, ih, Nat.add_mul, Nat.add_comm]

section Order
variable {n : Nat} {a b c : Text} {steps : List Step}

theorem Edit.cons (edit : Edit a b) (byte : UInt8) : Edit (byte :: a) (byte :: b) := by
  cases edit with
  | insert front back new => exact .insert (byte :: front) back new
  | delete front back old => exact .delete (byte :: front) back old
  | replace front back old new => exact .replace (byte :: front) back old new

theorem Edits.cons (edits : Edits n a b) (byte : UInt8) : Edits n (byte :: a) (byte :: b) := by
  induction edits with
  | none a => exact .none _
  | more edit _ ih => exact .more (edit.cons byte) ih

/-- Steps from left to right are edits, those that cost something. -/
theorem edits_of_steps (steps : List Step) : Edits (cost steps) (source steps) (target steps) := by
  induction steps with
  | nil => exact .none []
  | cons step rest ih =>
    rw [cost_cons, Nat.add_comm]
    cases step with
    | pass byte other =>
      change Edits _ (byte :: source rest) (other :: target rest)
      by_cases same : byte = other
      · subst same
        simpa [Step.cost] using ih.cons byte
      · have replaced : Edit (byte :: source rest) (other :: source rest) :=
          .replace [] (source rest) byte other
        simpa [Step.cost, same] using Edits.more replaced (ih.cons other)
    | leave byte => exact .more (.delete [] (source rest) byte) ih
    | enter other => exact .more (.insert [] (source rest) other) (ih.cons other)

theorem exists_steps_around {front back : Text} (whole : source steps = front ++ back) :
    ∃ first last, steps = first ++ last ∧ source first = front ∧ source last = back :=
  List.filterMap_eq_append_iff.mp whole

theorem exists_step_at {front back : Text} {byte : UInt8}
    (whole : source steps = front ++ byte :: back) :
    ∃ first step last, steps = first ++ step :: last ∧ source first = front ∧
      step.source? = some byte ∧ source last = back := by
  obtain ⟨first, others, rfl, fronts, rest⟩ := exists_steps_around whole
  obtain ⟨skipped, step, last, rfl, none, here, backs⟩ := List.filterMap_eq_cons_iff.mp rest
  have silent : source skipped = [] := List.filterMap_eq_nil_iff.mpr none
  refine ⟨first ++ skipped, step, last, by simp, ?_, here, backs⟩
  rw [source_append, silent, List.append_nil]
  exact fronts

/-- The step that stands for a byte can stand for another one, for one more edit. -/
theorem exists_replaced {step : Step} {byte : UInt8} (here : step.source? = some byte)
    (other : UInt8) :
    ∃ replaced : Step, replaced.source? = some other ∧ replaced.target? = step.target? ∧
      replaced.cost ≤ step.cost + 1 := by
  cases step with
  | pass _ opposite =>
    refine ⟨.pass other opposite, rfl, rfl, ?_⟩
    simp only [Step.cost]
    split <;> omega
  | leave _ => exact ⟨.leave other, rfl, rfl, by simp [Step.cost]⟩
  | enter _ => cases here

/-- The step that stands for a byte can do without it, for one more edit. -/
theorem exists_dropped {step : Step} {byte : UInt8} (here : step.source? = some byte) :
    ∃ dropped : List Step, source dropped = [] ∧ target dropped = step.target?.toList ∧
      cost dropped ≤ step.cost + 1 := by
  cases step with
  | pass _ opposite => exact ⟨[.enter opposite], rfl, rfl, by simp [cost, Step.cost]⟩
  | leave _ => exact ⟨[], rfl, rfl, by simp [cost]⟩
  | enter _ => cases here

/-- An edit before steps from left to right makes them cost at most one more. -/
theorem Edit.exists_steps (edit : Edit a (source steps)) :
    ∃ more, source more = a ∧ target more = target steps ∧ cost more ≤ cost steps + 1 := by
  generalize whole : source steps = b at edit
  cases edit with
  | insert front back byte =>
    obtain ⟨first, step, last, rfl, rfl, here, rfl⟩ := exists_step_at whole
    obtain ⟨dropped, none, same, least⟩ := exists_dropped here
    refine ⟨first ++ dropped ++ last, by simp [none], ?_, ?_⟩
    · simp [same, target_cons]
    · simp only [cost_append, cost_cons]
      omega
  | delete front back byte =>
    obtain ⟨first, last, rfl, rfl, rfl⟩ := exists_steps_around whole
    refine ⟨first ++ .leave byte :: last, ?_, ?_, ?_⟩
    · simp [source_cons, Step.source?]
    · simp [target_cons, Step.target?]
    · simp only [cost_append, cost_cons, Step.cost]
      omega
  | replace front back byte other =>
    obtain ⟨first, step, last, rfl, rfl, here, rfl⟩ := exists_step_at whole
    obtain ⟨replaced, now, same, least⟩ := exists_replaced here byte
    refine ⟨first ++ replaced :: last, ?_, ?_, ?_⟩
    · simp [source_cons, now]
    · simp [target_cons, same]
    · simp only [cost_append, cost_cons]
      omega

theorem Edits.exists_steps (edits : Edits n a b) :
    ∃ steps, source steps = a ∧ target steps = b ∧ cost steps ≤ n := by
  induction edits with
  | none a =>
    refine ⟨a.map fun byte => .pass byte byte, ?_, ?_, ?_⟩
    · simp [source, Step.source?, Function.comp_def]
    · simp [target, Step.target?, Function.comp_def]
    · have each : ∀ byte, (Step.pass byte byte).cost = 0 := fun byte => if_pos rfl
      rw [cost_map each, Nat.mul_zero]
  | more edit _ ih =>
    obtain ⟨steps, rfl, rfl, least⟩ := ih
    obtain ⟨more, rfl, same, most⟩ := edit.exists_steps
    exact ⟨more, rfl, same, by omega⟩

end Order

/-- What steps from left to right may cost, from one text to another. -/
def Aligned (a b : Text) : Set Nat :=
  {n | ∃ steps, source steps = a ∧ target steps = b ∧ cost steps = n}

theorem isLeast_edits {a b : Text} {n : Nat} (least : IsLeast (Aligned a b) n) :
    IsLeast {n | Edits n a b} n := by
  obtain ⟨⟨steps, rfl, rfl, rfl⟩, below⟩ := least
  refine ⟨edits_of_steps steps, fun m edits => ?_⟩
  obtain ⟨others, starts, ends, cheap⟩ := Edits.exists_steps edits
  exact (below ⟨others, starts, ends, rfl⟩).trans cheap

section Recurrence
variable {a b : Text} {x y : UInt8} {up left diagonal : Nat}

/-- Each step makes a difference in length of at most what it costs. -/
theorem length_close (steps : List Step) :
    (target steps).length ≤ (source steps).length + cost steps ∧
      (source steps).length ≤ (target steps).length + cost steps := by
  induction steps with
  | nil => exact ⟨Nat.le_refl 0, Nat.le_refl 0⟩
  | cons step rest ih =>
    rw [source_cons, target_cons, cost_cons, List.length_append, List.length_append]
    cases step <;>
      simp only [Step.source?, Step.target?, Step.cost, Option.toList_some, Option.toList_none,
        List.length_singleton, List.length_nil] <;>
      omega

theorem isLeast_nil (b : Text) : IsLeast (Aligned [] b) b.length := by
  refine ⟨⟨b.map .enter, ?_, ?_, ?_⟩, ?_⟩
  · simp [source, Step.source?, Function.comp_def]
  · simp [target, Step.target?, Function.comp_def]
  · have each : ∀ byte, (Step.enter byte).cost = 1 := fun _ => rfl
    rw [cost_map each, Nat.mul_one]
  · rintro n ⟨steps, none, rfl, rfl⟩
    simpa [none] using (length_close steps).1

theorem isLeast_to_nil (a : Text) : IsLeast (Aligned a []) a.length := by
  refine ⟨⟨a.map .leave, ?_, ?_, ?_⟩, ?_⟩
  · simp [source, Step.source?, Function.comp_def]
  · simp [target, Step.target?, Function.comp_def]
  · have each : ∀ byte, (Step.leave byte).cost = 1 := fun _ => rfl
    rw [cost_map each, Nat.mul_one]
  · rintro n ⟨steps, rfl, none, rfl⟩
    simpa [none] using (length_close steps).2

theorem Aligned.concat {steps : List Step} (step : Step) (starts : source steps = a)
    (ends : target steps = b) :
    cost steps + step.cost ∈ Aligned (a ++ step.source?.toList) (b ++ step.target?.toList) := by
  refine ⟨steps ++ [step], ?_, ?_, ?_⟩
  · simp [source_cons, starts]
  · simp [target_cons, ends]
  · simp

theorem aligned_concat_iff {n : Nat} :
    n ∈ Aligned (a ++ [x]) (b ++ [y]) ↔
      (∃ m ∈ Aligned a (b ++ [y]), n = m + 1) ∨ (∃ m ∈ Aligned (a ++ [x]) b, n = m + 1) ∨
        ∃ m ∈ Aligned a b, n = m + if x = y then 0 else 1 := by
  constructor
  · rintro ⟨steps, starts, ends, rfl⟩
    obtain rfl | ⟨front, last, rfl⟩ := List.eq_nil_or_concat steps
    · simp at starts
    rw [List.concat_eq_append] at *
    rw [source_append, source_cons] at starts
    rw [target_append, target_cons] at ends
    rw [cost_append, cost_cons]
    cases last with
    | leave byte =>
      obtain ⟨fronts, -⟩ := List.append_inj' starts rfl
      refine .inl ⟨cost front, ⟨front, fronts, ?_, rfl⟩, rfl⟩
      simpa [Step.target?] using ends
    | enter other =>
      obtain ⟨fronts, -⟩ := List.append_inj' ends rfl
      refine .inr (.inl ⟨cost front, ⟨front, ?_, fronts, rfl⟩, rfl⟩)
      simpa [Step.source?] using starts
    | pass byte other =>
      obtain ⟨sources, byteIs⟩ := List.append_inj' starts rfl
      obtain ⟨targets, otherIs⟩ := List.append_inj' ends rfl
      cases byteIs
      cases otherIs
      exact .inr (.inr ⟨cost front, ⟨front, sources, targets, rfl⟩, rfl⟩)
  · rintro (⟨m, ⟨steps, starts, ends, rfl⟩, rfl⟩ | ⟨m, ⟨steps, starts, ends, rfl⟩, rfl⟩ |
      ⟨m, ⟨steps, starts, ends, rfl⟩, rfl⟩)
    · simpa [Step.source?, Step.target?, Step.cost] using Aligned.concat (.leave x) starts ends
    · simpa [Step.source?, Step.target?, Step.cost] using Aligned.concat (.enter y) starts ends
    · exact Aligned.concat (.pass x y) starts ends

theorem isLeast_concat (ups : IsLeast (Aligned a (b ++ [y])) up)
    (lefts : IsLeast (Aligned (a ++ [x]) b) left) (diagonals : IsLeast (Aligned a b) diagonal) :
    IsLeast (Aligned (a ++ [x]) (b ++ [y]))
      (min (min (up + 1) (left + 1)) (diagonal + if x = y then 0 else 1)) := by
  constructor
  · rw [aligned_concat_iff]
    generalize (if x = y then 0 else 1) = last
    obtain lowest | lowest | lowest : min (min (up + 1) (left + 1)) (diagonal + last) = up + 1 ∨
        min (min (up + 1) (left + 1)) (diagonal + last) = left + 1 ∨
        min (min (up + 1) (left + 1)) (diagonal + last) = diagonal + last := by omega
    · exact .inl ⟨up, ups.1, lowest⟩
    · exact .inr (.inl ⟨left, lefts.1, lowest⟩)
    · exact .inr (.inr ⟨diagonal, diagonals.1, lowest⟩)
  · intro n aligned
    rcases aligned_concat_iff.mp aligned with ⟨m, here, rfl⟩ | ⟨m, here, rfl⟩ | ⟨m, here, rfl⟩
    · have := ups.2 here
      omega
    · have := lefts.2 here
      omega
    · have := diagonals.2 here
      omega

end Recurrence

section Rows
variable {a target : Text} {row : Array Nat} {rows : Rows}

/-- Up to a column, the row holds the least costs to the prefixes of the second text. Nothing is said of
the cells behind. -/
structure Row (a target : Text) (column : Nat) (row : Array Nat) : Prop where
  size : row.size = target.length + 1
  least : ∀ k ≤ column, IsLeast (Aligned a (target.take k)) (row.getD k 0)

theorem Row.begin (a : Text) (size : row.size = target.length + 1) :
    Row a target 0 (row.setIfInBounds 0 a.length) where
  size := by simpa using size
  least k within := by
    obtain rfl : k = 0 := by omega
    simpa [size] using isLeast_to_nil a

theorem Row.write {column cell : Nat} (before : Row a target column row)
    (bound : column < target.length) (least : IsLeast (Aligned a (target.take (column + 1))) cell) :
    Row a target (column + 1) (row.setIfInBounds (column + 1) cell) where
  size := by simpa using before.size
  least k within := by
    have inside : column + 1 < row.size := by rw [before.size]; omega
    rcases Nat.lt_or_eq_of_le within with earlier | rfl
    · have other : column + 1 ≠ k := by omega
      simpa [Array.getD_eq_getD_getElem?, Array.getElem?_setIfInBounds_ne other]
        using before.least k (by omega)
    · simpa [Array.getD_eq_getD_getElem?, inside] using least

/-- Between two bytes of the first text the upper row is complete; of the lower row only the size
matters. -/
structure Rows.Complete (a target : Text) (rows : Rows) : Prop where
  upper : Row a target target.length rows.upper
  size : rows.lower.size = target.length + 1

theorem Rows.start_complete (target : Text) : (Rows.start target).Complete [] target where
  upper := {
    size := by simp [Rows.start]
    least k within := by
      have inside : k < target.length + 1 := by omega
      have first := isLeast_nil (target.take k)
      rw [List.length_take_of_le within] at first
      simpa [Rows.start, Array.getD_eq_getD_getElem?, inside] using first }
  size := by simp [Rows.start]

/-- Filling leaves the upper row alone and completes the lower one. -/
theorem Rows.fill_complete (rows : Rows) {byte : UInt8} {column : Nat} (done rest : Text)
    (whole : target = done ++ rest) (reached : column = done.length)
    (upper : Row a target target.length rows.upper)
    (lower : Row (a ++ [byte]) target column rows.lower) :
    (rows.fill byte column rest).upper = rows.upper ∧
      Row (a ++ [byte]) target target.length (rows.fill byte column rest).lower := by
  induction rest generalizing rows done column with
  | nil =>
    have all : column = target.length := by simp [whole, reached]
    exact ⟨rfl, all ▸ lower⟩
  | cons other rest ih =>
    have bound : column < target.length := by simp [whole, reached]
    have shorter : target.take column = done := by simp [whole, reached]
    have longer : target.take (column + 1) = done ++ [other] := by
      rw [List.take_add_one, shorter]
      simp [whole, reached]
    have ups := upper.least (column + 1) bound
    have lefts := lower.least column (Nat.le_refl _)
    have diagonals := upper.least column bound.le
    rw [longer] at ups
    rw [shorter] at lefts diagonals
    have cell := isLeast_concat ups lefts diagonals
    rw [← longer] at cell
    exact ih _ (done ++ [other]) (by simp [whole]) (by simp [reached]) upper (lower.write bound cell)

theorem Rows.Complete.turn (byte : UInt8) (complete : rows.Complete a target) :
    (rows.turn target a.length byte).Complete (a ++ [byte]) target := by
  have begun := Row.begin (a ++ [byte]) complete.size
  rw [List.length_append] at begun
  obtain ⟨same, filled⟩ :=
    Rows.fill_complete { rows with lower := rows.lower.setIfInBounds 0 (a.length + 1) }
      [] target rfl rfl complete.upper begun
  exact ⟨filled, (congrArg Array.size same).trans complete.upper.size⟩

theorem Rows.Complete.turns (rest : Text) (complete : rows.Complete a target) :
    (rows.turns target a.length rest).Complete (a ++ rest) target := by
  induction rest generalizing rows a with
  | nil => simpa [Rows.turns] using complete
  | cons byte rest ih => simpa [Rows.turns] using ih (complete.turn byte)

end Rows

theorem isLeast_aligned (a b : Text) : IsLeast (Aligned a b) (distance a b) := by
  unfold distance
  split
  next empty => exact empty ▸ isLeast_nil b
  next =>
    split
    next empty => exact empty ▸ isLeast_to_nil a
    next =>
      have last := ((Rows.start_complete b).turns a).upper.least b.length (Nat.le_refl _)
      simpa using last

/-- No fewer edits lead from one text to the other, and so many do. -/
theorem distance_least (a b : Text) : IsLeast {n | Edits n a b} (distance a b) :=
  isLeast_edits (isLeast_aligned a b)

example : distance (utf8 "kitten") (utf8 "sitting") = 3 := by decide +kernel

end Scriptlet.EditDistance
