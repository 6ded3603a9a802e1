import Scriptlet.Text.Basic
/-!
Patterns for texts, with groups that keep what they matched. Of several ways to match at one place the
first counts: a repetition takes as many bytes as it can and gives them back one by one, and a part that
may be left out is left out last. Of several places the leftmost counts.
-/
namespace Scriptlet

inductive Pattern where
  | exactly (bytes : Text)
  | one (accepts : UInt8 → Bool)
  | many (accepts : UInt8 → Bool)
  | followedBy (first second : Pattern)
  | optional (part : Pattern)
  /-- What the part matches is kept. -/
  | group (part : Pattern)

namespace Pattern

/-- What the groups of a pattern matched, in the order in which they begin; none for a group in a part
that was left out. -/
abbrev Groups := List (Option Text)

def groupCount : Pattern → Nat
  | .exactly _ | .one _ | .many _ => 0
  | .followedBy p q => p.groupCount + q.groupCount
  | .optional p => p.groupCount
  | .group p => p.groupCount + 1

def least : Pattern → Nat
  | .exactly bytes => bytes.length
  | .one _ => 1
  | .many _ | .optional _ => 0
  | .followedBy p q => p.least + q.least
  | .group p => p.least

/-- The pattern matches these bytes, in some way that leaves its groups so. -/
inductive Matches : Pattern → Text → Groups → Prop where
  | exactly (bytes : Text) : Matches (.exactly bytes) bytes []
  | one {accepts byte} : accepts byte = true → Matches (.one accepts) [byte] []
  | many {accepts taken} : (∀ byte ∈ taken, accepts byte = true) → Matches (.many accepts) taken []
  | followedBy {p q taken more groups others} : Matches p taken groups → Matches q more others →
      Matches (.followedBy p q) (taken ++ more) (groups ++ others)
  | present {p taken groups} : Matches p taken groups → Matches (.optional p) taken groups
  | absent {p} : Matches (.optional p) [] (List.replicate p.groupCount none)
  | group {p taken groups} : Matches p taken groups → Matches (.group p) taken (some taken :: groups)

theorem Matches.least_le {p : Pattern} {taken : Text} {groups : Groups}
    (matched : p.Matches taken groups) : p.least ≤ taken.length := by
  induction matched with
  | exactly bytes => exact Nat.le_refl _
  | one => exact Nat.le_refl _
  | many | present | absent => exact Nat.zero_le _
  | followedBy _ _ first second =>
    rw [List.length_append]
    exact Nat.add_le_add first second
  | group _ ih => exact ih

section Search
variable {α : Type} {next : Text → Option α}

/-- Takes bytes of a class before going on. If what is next fails, one byte fewer is taken. -/
def repeated (accepts : UInt8 → Bool) (next : Text → Option α) : Text → Option α
  | [] => next []
  | byte :: rest =>
    if accepts byte then
      match repeated accepts next rest with
      | some found => some found
      | none => next (byte :: rest)
    else next (byte :: rest)

/-- Matches at the beginning of a text and goes on behind it. If what is next fails there, the next way
to match is tried. -/
def run : Pattern → (Groups → Text → Option α) → Text → Option α
  | .exactly bytes, next, text =>
    if text.take bytes.length = bytes then next [] (text.drop bytes.length) else none
  | .one _, _, [] => none
  | .one accepts, next, byte :: rest => if accepts byte then next [] rest else none
  | .many accepts, next, text => repeated accepts (next []) text
  | .followedBy p q, next, text =>
    p.run (fun groups rest => q.run (fun others => next (groups ++ others)) rest) text
  | .optional p, next, text =>
    match p.run next text with
    | some found => some found
    | none => next (List.replicate p.groupCount none) text
  | .group p, next, text =>
    p.run
      (fun groups rest => next (some (text.take (text.length - rest.length)) :: groups) rest) text

theorem take_length_sub (taken rest : Text) :
    (taken ++ rest).take ((taken ++ rest).length - rest.length) = taken := by
  rw [List.length_append, Nat.add_sub_cancel, List.take_left]

theorem repeated_sound {accepts : UInt8 → Bool} {text : Text} {found : α}
    (here : repeated accepts next text = some found) :
    ∃ taken rest, text = taken ++ rest ∧ (∀ byte ∈ taken, accepts byte = true) ∧
      next rest = some found := by
  induction text with
  | nil => exact ⟨[], [], rfl, nofun, here⟩
  | cons byte rest ih =>
    rw [repeated] at here
    split at here
    next accepted =>
      split at here
      next same =>
        cases here
        obtain ⟨taken, last, rfl, all, ends⟩ := ih same
        exact ⟨byte :: taken, last, rfl, List.forall_mem_cons.mpr ⟨accepted, all⟩, ends⟩
      next => exact ⟨[], byte :: rest, rfl, nofun, here⟩
    next => exact ⟨[], byte :: rest, rfl, nofun, here⟩

theorem repeated_complete {accepts : UInt8 → Bool} {taken rest : Text}
    (all : ∀ byte ∈ taken, accepts byte = true) (ends : (next rest).isSome) :
    (repeated accepts next (taken ++ rest)).isSome := by
  induction taken with
  | nil =>
    cases rest with
    | nil => exact ends
    | cons byte rest =>
      rw [List.nil_append, repeated]
      split
      · split
        · rfl
        · exact ends
      · exact ends
  | cons byte taken ih =>
    obtain ⟨accepted, later⟩ := List.forall_mem_cons.mp all
    obtain ⟨found, here⟩ := Option.isSome_iff_exists.mp (ih later)
    rw [List.cons_append, repeated, if_pos accepted, here]
    rfl

theorem run_sound {p : Pattern} {next : Groups → Text → Option α} {text : Text} {found : α}
    (here : p.run next text = some found) :
    ∃ taken groups rest, text = taken ++ rest ∧ p.Matches taken groups ∧
      next groups rest = some found := by
  induction p generalizing next text found with
  | exactly bytes =>
    rw [run] at here
    split at here
    next same =>
      refine ⟨bytes, [], text.drop bytes.length, ?_, .exactly bytes, here⟩
      rw [← congrArg (· ++ _) same, List.take_append_drop]
    next => cases here
  | one accepts =>
    cases text with
    | nil => cases here
    | cons byte rest =>
      rw [run] at here
      split at here
      next accepted => exact ⟨[byte], [], rest, rfl, .one accepted, here⟩
      next => cases here
  | many accepts =>
    obtain ⟨taken, rest, whole, all, ends⟩ := repeated_sound here
    exact ⟨taken, [], rest, whole, .many all, ends⟩
  | followedBy p q first second =>
    obtain ⟨taken, groups, rest, rfl, matched, later⟩ := first here
    obtain ⟨more, others, last, rfl, also, ends⟩ := second later
    exact ⟨taken ++ more, groups ++ others, last, (List.append_assoc ..).symm, matched.followedBy also,
      ends⟩
  | optional p ih =>
    rw [run] at here
    split at here
    next same =>
      cases here
      obtain ⟨taken, groups, rest, whole, matched, ends⟩ := ih same
      exact ⟨taken, groups, rest, whole, matched.present, ends⟩
    next => exact ⟨[], _, text, rfl, .absent, here⟩
  | group p ih =>
    obtain ⟨taken, groups, rest, rfl, matched, ends⟩ := ih here
    rw [take_length_sub] at ends
    exact ⟨taken, _, rest, rfl, matched.group, ends⟩

theorem run_complete {p : Pattern} {next : Groups → Text → Option α} {taken rest : Text}
    {groups : Groups} (matched : p.Matches taken groups) (ends : (next groups rest).isSome) :
    (p.run next (taken ++ rest)).isSome := by
  induction matched generalizing next rest with
  | exactly bytes =>
    rw [run, List.take_left, if_pos rfl, List.drop_left]
    exact ends
  | one accepted =>
    rw [List.singleton_append, run, if_pos accepted]
    exact ends
  | many all => exact repeated_complete all ends
  | followedBy _ _ first second =>
    rw [List.append_assoc, run]
    exact first (second ends)
  | present _ ih =>
    obtain ⟨found, here⟩ := Option.isSome_iff_exists.mp (ih ends)
    rw [run, here]
    rfl
  | absent =>
    rw [List.nil_append, run]
    split
    · rfl
    · exact ends
  | group _ ih =>
    rw [run]
    apply ih
    rw [take_length_sub]
    exact ends

end Search

structure Occurrence where
  before : Text
  taken : Text
  groups : Groups
  after : Text

def atStart? (p : Pattern) (text : Text) : Option Occurrence :=
  p.run
    (fun groups after => some ⟨[], text.take (text.length - after.length), groups, after⟩) text

def find? (p : Pattern) : Text → Option Occurrence
  | [] => p.atStart? []
  | byte :: rest =>
    match p.atStart? (byte :: rest) with
    | some found => some found
    | none => (p.find? rest).map fun found => { found with before := byte :: found.before }

variable {p : Pattern} {text : Text} {found : Occurrence}

theorem atStart?_sound (here : p.atStart? text = some found) :
    found.before = [] ∧ text = found.taken ++ found.after ∧ p.Matches found.taken found.groups := by
  obtain ⟨taken, groups, rest, rfl, matched, ends⟩ := run_sound here
  rw [take_length_sub] at ends
  cases ends
  exact ⟨rfl, rfl, matched⟩

theorem atStart?_complete {taken : Text} {groups : Groups} (matched : p.Matches taken groups)
    (after : Text) : (p.atStart? (taken ++ after)).isSome :=
  run_complete matched rfl

theorem find?_sound (here : p.find? text = some found) :
    text = found.before ++ found.taken ++ found.after ∧ p.Matches found.taken found.groups := by
  induction text generalizing found with
  | nil =>
    obtain ⟨first, whole, matched⟩ := atStart?_sound here
    rw [first]
    exact ⟨whole, matched⟩
  | cons byte rest ih =>
    rw [find?] at here
    split at here
    next start =>
      cases here
      obtain ⟨first, whole, matched⟩ := atStart?_sound start
      rw [first]
      exact ⟨whole, matched⟩
    next =>
      obtain ⟨later, there, rfl⟩ := Option.map_eq_some_iff.mp here
      obtain ⟨whole, matched⟩ := ih there
      exact ⟨congrArg (byte :: ·) whole, matched⟩

theorem length_after (here : p.find? text = some found) :
    found.after.length + p.least ≤ text.length := by
  obtain ⟨whole, matched⟩ := find?_sound here
  have := matched.least_le
  have := congrArg List.length whole
  simp only [List.length_append] at this
  omega

/-- The matches in a text from left to right, each behind the one before, and what is left behind the
last. -/
def occurrences (p : Pattern) (consuming : 1 ≤ p.least) (text : Text) : List Occurrence × Text :=
  match _here : p.find? text with
  | none => ([], text)
  | some found =>
    let (later, last) := p.occurrences consuming found.after
    (found :: later, last)
termination_by text.length
decreasing_by
  have := length_after _here
  omega

def replaceAll (p : Pattern) (consuming : 1 ≤ p.least) (replacement : Text → Text) (text : Text) :
    Text :=
  let (found, last) := p.occurrences consuming text
  (found.flatMap fun occurrence => occurrence.before ++ replacement occurrence.taken) ++ last

end Pattern

end Scriptlet
