import Scriptlet.Config.Interpolation
/-!
Replacing references. A text is taken apart at its leftmost reference, then what is behind it at its
leftmost one, and so on; between references nothing is changed. At each place at most one reference
begins, so it makes no difference which way to match is tried first, and a reference that is matched on
its own is matched as a whole.
-/
namespace Scriptlet

namespace Pattern

variable {p : Pattern} {text : Text} {found : Occurrence}

theorem find?_of_atStart? (start : p.atStart? text = some found) : p.find? text = some found := by
  cases text with
  | nil => exact start
  | cons byte rest => rw [find?, start]

/-- If there is a match, one is found, and none begins before it. -/
theorem find?_complete {taken : Text} {groups : Groups} (matched : p.Matches taken groups)
    (front back : Text) :
    ∃ found, p.find? (front ++ taken ++ back) = some found ∧
      found.before.length ≤ front.length := by
  induction front with
  | nil =>
    obtain ⟨found, start⟩ := Option.isSome_iff_exists.mp (atStart?_complete matched back)
    refine ⟨found, find?_of_atStart? start, ?_⟩
    exact Nat.le_of_eq (congrArg List.length (atStart?_sound start).1)
  | cons byte front ih =>
    obtain ⟨later, there, within⟩ := ih
    rw [List.cons_append, List.cons_append, find?]
    split
    next found start =>
      refine ⟨found, rfl, ?_⟩
      rw [(atStart?_sound start).1]
      exact Nat.zero_le _
    next =>
      rw [there]
      exact ⟨_, rfl, Nat.succ_le_succ within⟩

theorem find?_leftmost (here : p.find? text = some found) {taken front back : Text} {groups : Groups}
    (matched : p.Matches taken groups) (whole : text = front ++ taken ++ back) :
    found.before.length ≤ front.length := by
  obtain ⟨other, there, within⟩ := find?_complete matched front back
  rw [← whole, here] at there
  cases there
  exact within

theorem not_infix_of_find? (nothing : p.find? text = none) {taken : Text} {groups : Groups}
    (matched : p.Matches taken groups) : ¬ taken <:+: text := by
  rintro ⟨front, back, rfl⟩
  obtain ⟨other, there, -⟩ := find?_complete matched front back
  rw [nothing] at there
  cases there

section Replacing
variable (consuming : 1 ≤ p.least) (replacement : Text → Text)

theorem occurrences_of_none (nothing : p.find? text = none) :
    p.occurrences consuming text = ([], text) := by
  rw [occurrences]
  split
  next => rfl
  next there => rw [nothing] at there; cases there

theorem occurrences_of_some (here : p.find? text = some found) :
    p.occurrences consuming text =
      (found :: (p.occurrences consuming found.after).1, (p.occurrences consuming found.after).2) := by
  rw [occurrences]
  split
  next there => rw [here] at there; cases there
  next there => rw [here] at there; cases there; rfl

theorem replaceAll_of_none (nothing : p.find? text = none) :
    p.replaceAll consuming replacement text = text := by
  rw [replaceAll, occurrences_of_none consuming nothing]
  rfl

theorem replaceAll_of_some (here : p.find? text = some found) :
    p.replaceAll consuming replacement text =
      found.before ++ replacement found.taken ++
        p.replaceAll consuming replacement found.after := by
  simp only [replaceAll, occurrences_of_some consuming here, List.flatMap_cons, List.append_assoc]

end Replacing

end Pattern

namespace Interpolation

/-- A name that is not empty, and a default or none. -/
structure Reference where
  name : Text
  default : Option Text
  named : name ≠ []
  inName : ∀ byte ∈ name, Interpolation.inName byte = true
  inDefault : ∀ text ∈ default, ∀ byte ∈ text, Interpolation.inDefault byte = true

namespace Reference

/-- What stands behind the name. -/
def ending (default : Option Text) : Text :=
  match default with
  | none => closing
  | some default => separator ++ default ++ closing

def text (r : Reference) : Text := opening ++ r.name ++ ending r.default

/-- The value of the variable, or the default if that is empty; without a default nothing. -/
def value (environment : Text → Text) (r : Reference) : Text :=
  if environment r.name = [] then r.default.getD [] else environment r.name

variable {r other : Reference}

theorem ext (names : r.name = other.name) (defaults : r.default = other.default) : r = other := by
  cases r
  cases other
  simp_all

/-- Where the bytes of a class end in both texts, they are the same bytes. -/
theorem eq_of_append_eq {accepts : UInt8 → Bool} {a b front back : Text} {x y : UInt8}
    (first : ∀ byte ∈ a, accepts byte = true) (second : ∀ byte ∈ b, accepts byte = true)
    (ends : accepts x = false) (stops : accepts y = false)
    (same : a ++ x :: front = b ++ y :: back) : a = b ∧ x :: front = y :: back := by
  have taken := congrArg (List.takeWhile accepts) same
  rw [List.takeWhile_append_of_pos first, List.takeWhile_append_of_pos second,
    List.takeWhile_cons_of_neg (by simp [ends]), List.takeWhile_cons_of_neg (by simp [stops]),
    List.append_nil, List.append_nil] at taken
  subst taken
  exact ⟨rfl, List.append_cancel_left same⟩

theorem ending_eq_cons (default : Option Text) (rest : Text) :
    ∃ x tail, ending default ++ rest = x :: tail ∧ Interpolation.inName x = false := by
  cases default with
  | none => exact ⟨125, rest, rfl, rfl⟩
  | some default => exact ⟨58, _, rfl, rfl⟩

theorem default_of_ending_eq {default more : Option Text} {front back : Text}
    (first : ∀ text ∈ default, ∀ byte ∈ text, Interpolation.inDefault byte = true)
    (second : ∀ text ∈ more, ∀ byte ∈ text, Interpolation.inDefault byte = true)
    (same : ending default ++ front = ending more ++ back) : default = more := by
  cases default with
  | none =>
    cases more with
    | none => rfl
    | some more => cases same
  | some default =>
    cases more with
    | none => cases same
    | some more =>
      rw [ending, ending, List.append_assoc, List.append_assoc, List.append_assoc,
        List.append_assoc] at same
      have inside := List.append_cancel_left same
      exact congrArg some (eq_of_append_eq (first _ rfl) (second _ rfl) rfl rfl inside).1

theorem eq_of_text_append_eq {front back : Text} (same : r.text ++ front = other.text ++ back) :
    r = other := by
  simp only [text, List.append_assoc] at same
  have inside := List.append_cancel_left same
  obtain ⟨x, tail, shape, ends⟩ := ending_eq_cons r.default front
  obtain ⟨y, rest, form, stops⟩ := ending_eq_cons other.default back
  rw [shape, form] at inside
  obtain ⟨names, endings⟩ := eq_of_append_eq r.inName other.inName ends stops inside
  rw [← shape, ← form] at endings
  exact ext names (default_of_ending_eq r.inDefault other.inDefault endings)

end Reference

theorem matches_namePattern {taken : Text} {groups : Pattern.Groups}
    (matched : namePattern.Matches taken groups) :
    taken ≠ [] ∧ (∀ byte ∈ taken, inName byte = true) ∧ groups = [some taken] := by
  cases matched with
  | group inside =>
    cases inside with
    | followedBy first rest =>
      cases first with
      | one accepted =>
        cases rest with
        | many all => exact ⟨by simp, List.forall_mem_cons.mpr ⟨accepted, all⟩, rfl⟩

theorem matches_defaultPattern {taken : Text} {groups : Pattern.Groups}
    (matched : defaultPattern.Matches taken groups) :
    ∃ default, taken = separator ++ default ∧ (∀ byte ∈ default, inDefault byte = true) ∧
      groups = [some default] := by
  cases matched with
  | followedBy first rest =>
    cases first with
    | exactly =>
      cases rest with
      | group inside =>
        cases inside with
        | many all => exact ⟨_, rfl, all, rfl⟩

theorem Reference.matches_name (r : Reference) : namePattern.Matches r.name [some r.name] := by
  obtain ⟨name, -, named, all, -⟩ := r
  cases name with
  | nil => contradiction
  | cons byte rest =>
    obtain ⟨first, later⟩ := List.forall_mem_cons.mp all
    exact .group (.followedBy (.one first) (.many later))

theorem Reference.matches_text (r : Reference) : pattern.Matches r.text [some r.name, r.default] := by
  have called := r.matches_name
  obtain ⟨_, default, _, _, bytes⟩ := r
  rw [text, List.append_assoc]
  refine .followedBy (.exactly opening) (.followedBy called ?_)
  cases default with
  | none => exact .followedBy .absent (.exactly closing)
  | some default =>
    have inside : defaultPattern.Matches (separator ++ default) [some default] :=
      .followedBy (.exactly separator) (.group (.many (bytes default rfl)))
    exact .followedBy (.present inside) (.exactly closing)

/-- What the pattern matches is the text of a reference, and the groups are its name and default. -/
theorem exists_reference_of_matches {taken : Text} {groups : Pattern.Groups}
    (matched : pattern.Matches taken groups) :
    ∃ r : Reference, taken = r.text ∧ groups = [some r.name, r.default] := by
  cases matched with
  | followedBy first rest =>
    cases first with
    | exactly =>
      cases rest with
      | followedBy name rest =>
        obtain ⟨named, all, rfl⟩ := matches_namePattern name
        cases rest with
        | followedBy default last =>
          cases last with
          | exactly =>
            cases default with
            | present inside =>
              obtain ⟨default, rfl, bytes, rfl⟩ := matches_defaultPattern inside
              refine ⟨⟨_, some default, named, all, ?_⟩, ?_, rfl⟩
              · rintro _ ⟨⟩
                exact bytes
              · simp [Reference.text, Reference.ending]
            | absent =>
              refine ⟨⟨_, none, named, all, nofun⟩, ?_, rfl⟩
              simp [Reference.text, Reference.ending]

/-- A reference that is matched on its own is matched as a whole. -/
theorem find?_text (r : Reference) :
    pattern.find? r.text = some ⟨[], r.text, [some r.name, r.default], []⟩ := by
  obtain ⟨found, here, within⟩ := Pattern.find?_complete r.matches_text [] []
  rw [List.nil_append, List.append_nil] at here
  obtain ⟨whole, matched⟩ := Pattern.find?_sound here
  obtain ⟨other, taken, groups⟩ := exists_reference_of_matches matched
  have first : found.before = [] := List.eq_nil_of_length_eq_zero (Nat.le_zero.mp within)
  rw [first, List.nil_append, taken, ← List.append_nil r.text] at whole
  obtain rfl := Reference.eq_of_text_append_eq whole
  have last := List.append_cancel_left whole
  obtain ⟨before, taken, groups, after⟩ := found
  simp_all

theorem substitute_text (environment : Text → Text) (r : Reference) :
    substitute environment r.text = r.value environment := by
  rw [substitute, find?_text, Reference.value]
  change (if environment r.name = [] && r.default.getD [] ≠ [] then r.default.getD []
    else environment r.name) = _
  by_cases unset : environment r.name = [] <;> by_cases empty : r.default.getD [] = [] <;>
    simp [unset, empty]

/-- What a text becomes: nothing changes if there is no reference in it; otherwise the leftmost one is
replaced, what is before it is kept, and what is behind it becomes what it becomes on its own. -/
inductive Becomes (environment : Text → Text) : Text → Text → Prop where
  | plain {text} : (∀ r : Reference, ¬ r.text <:+: text) → Becomes environment text text
  | replaced {before after result} (r : Reference) :
      (∀ (other : Reference) (front back : Text),
        before ++ r.text ++ after = front ++ other.text ++ back → before.length ≤ front.length) →
      Becomes environment after result →
      Becomes environment (before ++ r.text ++ after) (before ++ r.value environment ++ result)

variable {environment : Text → Text} {text result : Text}

theorem becomes_interpolate (environment : Text → Text) (text : Text) :
    Becomes environment text (interpolate environment text) := by
  induction size : text.length using Nat.strongRecOn generalizing text with
  | ind size ih =>
    unfold interpolate
    cases here : pattern.find? text with
    | none =>
      rw [Pattern.replaceAll_of_none _ _ here]
      exact .plain fun r => Pattern.not_infix_of_find? here r.matches_text
    | some found =>
      rw [Pattern.replaceAll_of_some _ _ here]
      have shorter := Pattern.length_after here
      have consuming := pattern_consuming
      obtain ⟨whole, matched⟩ := Pattern.find?_sound here
      obtain ⟨r, taken, -⟩ := exists_reference_of_matches matched
      have later := ih found.after.length (by omega) found.after rfl
      rw [taken] at whole ⊢
      rw [substitute_text]
      subst whole
      refine .replaced r ?_ later
      intro other front back same
      exact Pattern.find?_leftmost here other.matches_text same

theorem Becomes.unique {other : Text} (becomes : Becomes environment text result)
    (also : Becomes environment text other) : result = other := by
  induction becomes generalizing other with
  | plain none =>
    cases also with
    | plain => rfl
    | replaced r => exact absurd ⟨_, _, rfl⟩ (none r)
  | @replaced before after result r leftmost _ ih =>
    generalize whole : before ++ r.text ++ after = text at also
    cases also with
    | plain none => exact absurd ⟨_, _, whole⟩ (none r)
    | @replaced start rest last s first later =>
      -- of two leftmost references neither begins before the other
      have lengths : before.length = start.length :=
        Nat.le_antisymm (leftmost s start rest whole) (first r before after whole.symm)
      rw [List.append_assoc, List.append_assoc] at whole
      obtain ⟨rfl, behind⟩ := List.append_inj whole lengths
      obtain rfl := Reference.eq_of_text_append_eq behind
      obtain rfl := List.append_cancel_left behind
      rw [ih later]

/-- Exactly the leftmost references that do not overlap are replaced, and a text without one stays. -/
theorem leftmost_references_replaced (environment : Text → Text) (text : Text) :
    (∀ result, interpolate environment text = result ↔ Becomes environment text result) ∧
      ((∀ r : Reference, ¬ r.text <:+: text) → interpolate environment text = text) := by
  have becomes := becomes_interpolate environment text
  refine ⟨fun result => ⟨fun same => same ▸ becomes, becomes.unique⟩, fun none => ?_⟩
  exact becomes.unique (.plain none)

-- The first dollar sign begins no reference; what is put in for the second is not looked at again.
example : interpolate (fun name => opening ++ name ++ closing) (utf8 "$\x7bA:$\x7bB\x7d") =
    utf8 "$\x7bA:$\x7bB\x7d" := by
  decide_cbv

end Interpolation

end Scriptlet
