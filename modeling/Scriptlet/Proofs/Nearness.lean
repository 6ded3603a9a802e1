import Scriptlet.Proofs.Editing
import Scriptlet.Proofs.Reordering
/-!
Nearness. Among the names that are declared, the suggestion is the one at the least distance, and of
those at that distance the first in bytewise order. A search that keeps the first of the nearest finds it
in a sorted list; since it is described by what the names are, neither their order nor how often each
occurs makes a difference.
-/
namespace Scriptlet

theorem Text.le_refl (a : Text) : Text.le a a = true := by
  simpa using Text.le_total a a

theorem Text.mem_sort {texts : List Text} {text : Text} : text ∈ Text.sort texts ↔ text ∈ texts :=
  List.mem_mergeSort

namespace Suggestion

section Search
variable {distance : Text → Nat} {candidates others done : List Text} {c other : Text}
  {best : Option (Text × Nat)}

/-- At the least distance, and of the candidates there the first in bytewise order. -/
structure Nearest (distance : Text → Nat) (candidates : List Text) (c : Text) : Prop where
  candidate : c ∈ candidates
  least : ∀ other ∈ candidates, distance c ≤ distance other
  first : ∀ other ∈ candidates, distance other = distance c → Text.le c other = true

theorem Nearest.unique (nearest : Nearest distance candidates c)
    (also : Nearest distance candidates other) : c = other := by
  have same : distance c = distance other :=
    Nat.le_antisymm (nearest.least other also.candidate) (also.least c nearest.candidate)
  exact Text.le_antisymm (nearest.first other also.candidate same.symm)
    (also.first c nearest.candidate same)

theorem Nearest.of_mem_iff (same : ∀ c, c ∈ others ↔ c ∈ candidates)
    (nearest : Nearest distance candidates c) : Nearest distance others c where
  candidate := (same c).mpr nearest.candidate
  least other member := nearest.least other ((same other).mp member)
  first other member := nearest.first other ((same other).mp member)

theorem Nearest.newcomer {candidate : Text}
    (nearer : ∀ other ∈ done, distance candidate < distance other) :
    Nearest distance (done ++ [candidate]) candidate where
  candidate := by simp
  least other member := by
    rcases List.mem_append.mp member with before | here
    · exact (nearer other before).le
    · rw [List.mem_singleton.mp here]
  first other member same := by
    rcases List.mem_append.mp member with before | here
    · exact absurd same (nearer other before).ne'
    · rw [List.mem_singleton.mp here]
      exact Text.le_refl candidate

theorem Nearest.stays {candidate : Text} (nearest : Nearest distance done c)
    (further : distance c ≤ distance candidate) (behind : Text.le c candidate = true) :
    Nearest distance (done ++ [candidate]) c where
  candidate := List.mem_append_left _ nearest.candidate
  least other member := by
    rcases List.mem_append.mp member with before | here
    · exact nearest.least other before
    · rwa [List.mem_singleton.mp here]
  first other member same := by
    rcases List.mem_append.mp member with before | here
    · exact nearest.first other before same
    · rwa [List.mem_singleton.mp here]

/-- What the search holds after some candidates: nothing before the first one, then the nearest of
them. -/
inductive Found (distance : Text → Nat) : List Text → Option (Text × Nat) → Prop where
  | nothing : Found distance [] none
  | nearest {candidates : List Text} {c : Text} (nearest : Nearest distance candidates c) :
      Found distance candidates (some (c, distance c))

/-- At the same distance a candidate that comes later does not take over, since it is behind. -/
theorem Found.step (found : Found distance done best) (candidate : Text)
    (behind : ∀ c ∈ done, Text.le c candidate = true) :
    Found distance (done ++ [candidate]) (nearer distance best candidate) := by
  cases found with
  | nothing => exact .nearest (.newcomer fun other member => absurd member List.not_mem_nil)
  | @nearest _ best nearest =>
    simp only [nearer]
    split
    next closer =>
      refine .nearest (.newcomer fun other member => ?_)
      exact closer.trans_le (nearest.least other member)
    next further =>
      exact .nearest (nearest.stays (Nat.le_of_not_lt further) (behind best nearest.candidate))

theorem Found.foldl (found : Found distance done best) (rest : List Text)
    (sorted : (done ++ rest).Pairwise fun a b => Text.le a b = true) :
    Found distance (done ++ rest) (rest.foldl (nearer distance) best) := by
  induction rest generalizing done best with
  | nil => simpa using found
  | cons candidate rest ih =>
    have behind : ∀ c ∈ done, Text.le c candidate = true := fun c member =>
      (List.pairwise_append.mp sorted).2.2 c member candidate List.mem_cons_self
    rw [List.append_cons] at sorted ⊢
    exact ih (found.step candidate behind) sorted

theorem Found.of_mem_iff (same : ∀ c, c ∈ others ↔ c ∈ candidates)
    (found : Found distance candidates best) : Found distance others best := by
  cases found with
  | nothing =>
    have none : others = [] := List.eq_nil_iff_forall_not_mem.mpr fun c member =>
      List.not_mem_nil ((same c).mp member)
    exact none ▸ .nothing
  | nearest nearest => exact .nearest (nearest.of_mem_iff same)

theorem found_nearest? (distance : Text → Nat) (candidates : List Text) :
    Found distance candidates (nearest? distance (Text.sort candidates)) := by
  have found : Found distance [] none := .nothing
  have sorted := found.foldl (Text.sort candidates) (Text.pairwise_sort candidates)
  exact sorted.of_mem_iff fun c => Text.mem_sort.symm

theorem exists_nearest (distance : Text → Nat) (member : c ∈ candidates) :
    ∃ best, Nearest distance candidates best := by
  have found := found_nearest? distance candidates
  generalize nearest? distance (Text.sort candidates) = best at found
  cases found with
  | nothing => exact absurd member List.not_mem_nil
  | @nearest _ best nearest => exact ⟨best, nearest⟩

end Search

variable {input : Text} {candidates others : List Text} {c : Text}

theorem closest?_eq_some_iff :
    closest? input candidates = some c ↔
      input ≠ [] ∧ Nearest (distance input) candidates c ∧
        1 ≤ distance input c ∧ distance input c ≤ threshold input.length := by
  have found := found_nearest? (distance input) candidates
  unfold closest?
  split
  next empty => simp [empty]
  next filled =>
    generalize nearest? (distance input) (Text.sort candidates) = best at found
    cases found with
    | nothing =>
      simp only [reduceCtorEq, false_iff]
      rintro ⟨-, nearest, -⟩
      exact List.not_mem_nil nearest.candidate
    | @nearest _ best nearest =>
      constructor
      · intro taken
        simp only [Bool.or_eq_true, decide_eq_true_eq, Option.ite_none_left_eq_some,
          Option.some.injEq, not_or, Nat.not_lt] at taken
        obtain ⟨⟨positive, within⟩, rfl⟩ := taken
        exact ⟨filled, nearest, Nat.pos_of_ne_zero positive, within⟩
      · rintro ⟨-, also, positive, within⟩
        obtain rfl := nearest.unique also
        have kept : ¬ (distance input best = 0 ∨ threshold input.length < distance input best) := by
          omega
        simp [kept]

/-- The order of the candidates makes no difference, nor does a candidate that occurs again. -/
theorem closest?_eq_of_mem_iff (same : ∀ c, c ∈ others ↔ c ∈ candidates) :
    closest? input others = closest? input candidates := by
  apply Option.ext
  intro c
  rw [closest?_eq_some_iff, closest?_eq_some_iff]
  constructor
  · rintro ⟨filled, nearest, near⟩
    exact ⟨filled, nearest.of_mem_iff fun c => (same c).symm, near⟩
  · rintro ⟨filled, nearest, near⟩
    exact ⟨filled, nearest.of_mem_iff same, near⟩

/-- The suggestion as a text, empty if there is none. -/
def closest (input : Text) (candidates : List Text) : Text := (closest? input candidates).getD []

theorem nearest_of_closest (suggested : closest input candidates ≠ []) :
    Nearest (distance input) candidates (closest input candidates) ∧
      1 ≤ distance input (closest input candidates) ∧
      distance input (closest input candidates) ≤ threshold input.length := by
  unfold closest at suggested ⊢
  cases taken : closest? input candidates with
  | none => simp [taken] at suggested
  | some c => exact (closest?_eq_some_iff.mp taken).2

theorem closest_eq_iff {least : Nat} (filled : input ≠ [])
    (lowest : IsLeast {n | ∃ c ∈ candidates, distance input c = n} least) (positive : 1 ≤ least)
    (within : least ≤ threshold input.length) :
    closest input candidates = c ↔ Nearest (distance input) candidates c := by
  obtain ⟨⟨candidate, member, rfl⟩, below⟩ := lowest
  obtain ⟨best, nearest⟩ := exists_nearest (distance input) member
  have same : distance input best = distance input candidate :=
    Nat.le_antisymm (nearest.least candidate member) (below ⟨best, nearest.candidate, rfl⟩)
  rw [← same] at positive within
  have suggested : closest input candidates = best := by
    rw [closest, closest?_eq_some_iff.mpr ⟨filled, nearest, positive, within⟩, Option.getD_some]
  rw [suggested]
  exact ⟨fun here => here ▸ nearest, nearest.unique⟩

/-- A suggestion is the nearest candidate and near enough; the nearest candidate is suggested if its
distance allows; it depends on nothing but what the candidates are; and the distances are least numbers
of edits. -/
theorem closest_nearest (input : Text) (candidates : List Text) :
    (closest input candidates ≠ [] →
      Nearest (distance input) candidates (closest input candidates) ∧
        1 ≤ distance input (closest input candidates) ∧
        distance input (closest input candidates) ≤ threshold input.length) ∧
    (input ≠ [] → ∀ least, IsLeast {n | ∃ c ∈ candidates, distance input c = n} least →
      1 ≤ least → least ≤ threshold input.length →
        ∀ c, closest input candidates = c ↔ Nearest (distance input) candidates c) ∧
    (∀ others, (∀ c, c ∈ others ↔ c ∈ candidates) → closest input others = closest input candidates) ∧
    ∀ c, IsLeast {n | EditDistance.Edits n input.toLower c.toLower} (distance input c) := by
  refine ⟨nearest_of_closest, ?_, ?_, ?_⟩
  · intro filled least lowest positive within c
    exact closest_eq_iff filled lowest positive within
  · intro others same
    rw [closest, closest, closest?_eq_of_mem_iff same]
  · intro c
    exact EditDistance.isLeast_edits (EditDistance.isLeast_aligned input.toLower c.toLower)

/-- Two at the same distance, one of them twice, and one that is further away. -/
def alike : List Text := [utf8 "print", utf8 "println", utf8 "Print", utf8 "print"]

theorem alike_closest :
    closest (utf8 "prnt") alike = utf8 "Print" ∧ closest (utf8 "prnt") alike.reverse = utf8 "Print" ∧
      distance (utf8 "prnt") (closest (utf8 "prnt") alike) ≤ 2 := by
  have positive : ∀ c ∈ alike, 1 ≤ distance (utf8 "prnt") c := by decide +kernel
  have lowest : IsLeast {n | ∃ c ∈ alike, distance (utf8 "prnt") c = n} 1 := by
    refine ⟨⟨utf8 "Print", by decide +kernel, by decide +kernel⟩, ?_⟩
    rintro n ⟨c, member, rfl⟩
    exact positive c member
  have nearest : Nearest (distance (utf8 "prnt")) alike (utf8 "Print") :=
    ⟨by decide +kernel, by decide +kernel, by decide +kernel⟩
  obtain ⟨near, finds, same, -⟩ := closest_nearest (utf8 "prnt") alike
  have suggested := (finds (by decide) 1 lowest (by decide) (by decide +kernel) (utf8 "Print")).mpr nearest
  have some : closest (utf8 "prnt") alike ≠ [] := by
    rw [suggested]
    decide
  exact ⟨suggested, (same alike.reverse fun c => List.mem_reverse).trans suggested, (near some).2.2⟩

end Suggestion

end Scriptlet
