import Scriptlet.Proofs.Nearness
/-!
Hints. The diagnostic of a name that is not declared gets a hint if a declared name is near enough,
unless some declared name differs from it in letter case only: that one is the nearest, at no distance,
and is not suggested, nor is any other in its place.
-/
namespace Scriptlet

theorem EditDistance.distance_eq_zero_iff {a b : Text} : distance a b = 0 ↔ a = b := by
  have least := isLeast_edits (isLeast_aligned a b)
  constructor
  · intro nothing
    rw [nothing] at least
    cases least.1
    rfl
  · rintro rfl
    exact Nat.le_zero.mp (least.2 (.none a))

namespace Suggestion

variable {name c : Text} {available : List Text}

/-- Few enough edits away for a name of that length, letter case aside. -/
def Near (name candidate : Text) : Prop := distance name candidate ≤ threshold name.length

/-- Two names that are the same but for letter case. -/
def CaseVariant (name candidate : Text) : Prop := name.toLower = candidate.toLower

/-- What is said for a suggestion. -/
def hint (suggestion : Text) : Text := utf8 "Did you mean `" ++ suggestion ++ utf8 "`?"

theorem distance_eq_zero_iff : distance name c = 0 ↔ CaseVariant name c :=
  EditDistance.distance_eq_zero_iff

/-- One case variant is enough to make the nearest candidate one. -/
theorem Nearest.positive_iff (nearest : Nearest (distance name) available c) :
    1 ≤ distance name c ↔ ∀ other ∈ available, ¬ CaseVariant name other := by
  constructor
  · intro positive other member same
    have below := nearest.least other member
    rw [distance_eq_zero_iff.mpr same] at below
    exact absurd (positive.trans below) (by decide)
  · intro none
    apply Nat.pos_of_ne_zero
    intro zero
    exact none c nearest.candidate (distance_eq_zero_iff.mp zero)

theorem Nearest.near_iff (nearest : Nearest (distance name) available c) :
    Near name c ↔ ∃ other ∈ available, Near name other :=
  ⟨fun near => ⟨c, nearest.candidate, near⟩,
    fun ⟨other, member, near⟩ => (nearest.least other member).trans near⟩

theorem exists_closest?_iff (named : name ≠ []) :
    (∃ c, closest? name available = some c) ↔
      (∃ other ∈ available, Near name other) ∧ ∀ other ∈ available, ¬ CaseVariant name other := by
  constructor
  · rintro ⟨c, found⟩
    obtain ⟨-, nearest, positive, near⟩ := closest?_eq_some_iff.mp found
    exact ⟨nearest.near_iff.mp near, nearest.positive_iff.mp positive⟩
  · rintro ⟨⟨other, member, near⟩, none⟩
    obtain ⟨c, nearest⟩ := exists_nearest (distance name) member
    refine ⟨c, closest?_eq_some_iff.mpr ⟨named, nearest, nearest.positive_iff.mpr none, ?_⟩⟩
    exact nearest.near_iff.mpr ⟨other, member, near⟩

/-- The catalogue has no hint of its own for a name that is not declared. -/
theorem hints_undeclared (filled : ∀ c ∈ available, c ≠ []) :
    (Diagnostic.undeclared name available).hints = ((closest? name available).map hint).toList := by
  have plain : (Fault.undeclaredName.about "Name" name).hints = [] := rfl
  unfold Diagnostic.undeclared
  split
  next none => rw [none]; exact plain
  next empty =>
    obtain ⟨-, nearest, -⟩ := closest?_eq_some_iff.mp empty
    exact absurd rfl (filled [] nearest.candidate)
  next found => rw [found]; rfl

/-- A hint is given, and names the nearest candidate, exactly if some candidate is near enough and none
differs in letter case only; otherwise there is no hint. -/
theorem hinted_iff (named : name ≠ []) (filled : ∀ c ∈ available, c ≠ []) :
    ((∃ c, Nearest (distance name) available c ∧
        (Diagnostic.undeclared name available).hints = [hint c]) ↔
      (∃ c ∈ available, Near name c) ∧ ∀ c ∈ available, ¬ CaseVariant name c) ∧
    ((Diagnostic.undeclared name available).hints = [] ↔
      (∀ c ∈ available, ¬ Near name c) ∨ ∃ c ∈ available, CaseVariant name c) := by
  have condition : (∃ c, closest? name available = some c) ↔ _ := exists_closest?_iff named
  rw [hints_undeclared filled]
  constructor
  · rw [← condition]
    constructor
    · rintro ⟨c, -, given⟩
      obtain ⟨found, taken, -⟩ := Option.map_eq_some_iff.mp (Option.toList_eq_singleton_iff.mp given)
      exact ⟨found, taken⟩
    · rintro ⟨c, taken⟩
      refine ⟨c, (closest?_eq_some_iff.mp taken).2.1, ?_⟩
      rw [taken]
      rfl
  · rw [Option.toList_eq_nil_iff, Option.map_eq_none_iff, Option.eq_none_iff_forall_ne_some,
      ← not_exists, condition, not_and_or]
    simp only [not_exists, not_and, not_forall, not_not, exists_prop]

/-- Two names that programs start with, and one that a program declared. -/
def printNames : List Text := [utf8 "print", utf8 "println", utf8 "Paint"]

/-- One letter is missing from `Prnt`; `Print` differs from a candidate in letter case only, which is why
`Paint`, one edit away, is no suggestion for it. -/
theorem printNames_hinted :
    (Diagnostic.undeclared (utf8 "Prnt") printNames).hints = [utf8 "Did you mean `print`?"] ∧
      (Diagnostic.undeclared (utf8 "Print") printNames).hints = [] := by
  have filled : ∀ c ∈ printNames, c ≠ [] := by decide +kernel
  have near : ∃ c ∈ printNames, Near (utf8 "Prnt") c := by
    unfold Near
    decide +kernel
  have plain : ∀ c ∈ printNames, ¬ CaseVariant (utf8 "Prnt") c := by
    unfold CaseVariant
    decide +kernel
  obtain ⟨c, nearest, given⟩ := (hinted_iff (by decide) filled).1.mpr ⟨near, plain⟩
  have print : Nearest (distance (utf8 "Prnt")) printNames (utf8 "print") :=
    ⟨by decide +kernel, by decide +kernel, by decide +kernel⟩
  obtain rfl := nearest.unique print
  refine ⟨given, (hinted_iff (by decide) filled).2.mpr (.inr ?_)⟩
  unfold CaseVariant
  decide +kernel

/-- A name that is near enough is not always suggested. -/
theorem near_not_always_hinted :
    ¬ ∀ name available, name ≠ [] → (∀ c ∈ available, c ≠ []) → name ∉ available →
      (∃ c ∈ available, Near name c) → (Diagnostic.undeclared name available).hints ≠ [] := by
  intro always
  have named : utf8 "Print" ≠ [] := by decide
  have filled : ∀ c ∈ printNames, c ≠ [] := by decide +kernel
  have near : ∃ c ∈ printNames, Near (utf8 "Print") c := by
    unfold Near
    decide +kernel
  have variant : CaseVariant (utf8 "Print") (utf8 "print") := by
    unfold CaseVariant
    decide +kernel
  apply always (utf8 "Print") printNames named filled (by decide +kernel) near
  rw [hints_undeclared filled, Option.toList_eq_nil_iff, Option.map_eq_none_iff,
    Option.eq_none_iff_forall_ne_some]
  intro c taken
  exact ((exists_closest?_iff named).mp ⟨c, taken⟩).2 (utf8 "print") List.mem_cons_self variant

end Suggestion

end Scriptlet
