import Mathlib.Data.List.Nodup
import Scriptlet.Files.Basic
/-!
Entries of directories. The path of an entry is the path of its directory with its name behind it, and
cleaned: detours through directories that are left again are dropped. A path that leads somewhere
still leads there once it is cleaned, so the path of an entry leads to that entry.
-/
namespace Scriptlet

namespace Text

theorem splitOn_eq (mark : UInt8) (text : Text) : splitOn mark text = List.splitOn mark text := by
  induction text with
  | nil => rfl
  | cons byte rest ih =>
    rw [List.splitOn, List.splitOnP_cons_eq_if_modifyHead, splitOn, ih]
    by_cases same : byte = mark
    · simp [same, List.splitOn]
    · have some_ : List.splitOn mark rest ≠ [] := List.splitOn_ne_nil mark rest
      rcases pieces : List.splitOn mark rest with _ | ⟨piece, more⟩
      · exact absurd pieces some_
      · rw [List.splitOn] at pieces
        simp [same, pieces]

theorem join_eq (separator : Text) (texts : List Text) :
    join separator texts = separator.intercalate texts := by
  fun_induction join with
  | case1 => rfl
  | case2 => simp
  | case3 text rest some_ ih =>
    rw [List.intercalate_cons_of_ne_nil some_, ih]

theorem splitOn_join {mark : UInt8} {pieces : List Text} (unmarked : ∀ piece ∈ pieces, mark ∉ piece)
    (some_ : pieces ≠ []) : splitOn mark (join [mark] pieces) = pieces := by
  rw [splitOn_eq, join_eq, List.splitOn_intercalate mark unmarked some_]

theorem join_splitOn (mark : UInt8) (text : Text) : join [mark] (splitOn mark text) = text := by
  rw [splitOn_eq, join_eq, List.intercalate_splitOn]

theorem splitOn_append (mark : UInt8) (a b : Text) :
    splitOn mark (a ++ mark :: b) = splitOn mark a ++ splitOn mark b := by
  rw [splitOn_eq, splitOn_eq, splitOn_eq, List.splitOn_append_cons_self]

theorem mem_of_splitOn {mark : UInt8} {text piece : Text} (among : piece ∈ splitOn mark text) :
    ∀ byte ∈ piece, byte ∈ text ∧ byte ≠ mark := by
  induction text generalizing piece with
  | nil =>
    obtain rfl := List.mem_singleton.mp among
    simp
  | cons first rest ih =>
    have later : ∀ other ∈ splitOn mark rest, ∀ byte ∈ other, byte ∈ first :: rest ∧ byte ≠ mark :=
      fun other among byte inside => (ih among byte inside).imp_left (List.mem_cons_of_mem _)
    rw [splitOn] at among
    split at among
    · rcases List.mem_cons.mp among with rfl | among
      · simp
      · exact later piece among
    · rename_i different
      split at among
      · obtain rfl := List.mem_singleton.mp among
        simpa using different
      · rename_i front more pieces
        rcases List.mem_cons.mp among with rfl | among
        · intro byte inside
          rcases List.mem_cons.mp inside with rfl | inside
          · exact ⟨List.mem_cons_self, different⟩
          · exact later front (pieces ▸ List.mem_cons_self) byte inside
        · exact later piece (pieces ▸ List.mem_cons_of_mem _ among)

theorem mem_join {separator : Text} {texts : List Text} {byte : UInt8}
    (member : byte ∈ join separator texts) : byte ∈ separator ∨ ∃ text ∈ texts, byte ∈ text := by
  fun_induction join with
  | case1 => cases member
  | case2 text => exact .inr ⟨text, List.mem_singleton_self _, member⟩
  | case3 text rest _ ih =>
    rcases List.mem_append.mp member with front | behind
    · rcases List.mem_append.mp front with own | between
      · exact .inr ⟨text, List.mem_cons_self, own⟩
      · exact .inl between
    · rcases ih behind with between | ⟨other, among, inside⟩
      · exact .inl between
      · exact .inr ⟨other, List.mem_cons_of_mem _ among, inside⟩

theorem head?_join (separator : Text) (byte : UInt8) (rest : Text) (more : List Text) :
    (join separator ((byte :: rest) :: more)).head? = some byte := by
  cases more <;> rfl

end Text

namespace Path

/-- What an entry of a directory can be called. -/
structure IsName (name : Text) : Prop where
  nonempty : name ≠ []
  plain : slash ∉ name
  not_same : name ≠ same
  not_above : name ≠ above
  no_zero : 0 ∉ name
  short : name.length ≤ Files.nameLimit

instance (name : Text) : Decidable (IsName name) :=
  decidable_of_iff
    (name ≠ [] ∧ slash ∉ name ∧ name ≠ same ∧ name ≠ above ∧ 0 ∉ name ∧
      name.length ≤ Files.nameLimit)
    ⟨fun ⟨nonempty, plain, notSame, notAbove, noZero, short⟩ =>
      ⟨nonempty, plain, notSame, notAbove, noZero, short⟩,
    fun ⟨nonempty, plain, notSame, notAbove, noZero, short⟩ =>
      ⟨nonempty, plain, notSame, notAbove, noZero, short⟩⟩

variable {rooted : Bool} {kept comps : List Text} {name path : Text}

theorem simplify_concat (named : IsName name) (rooted : Bool) (kept comps : List Text) :
    simplify rooted kept (comps ++ [name]) = simplify rooted kept comps ++ [name] := by
  fun_induction simplify rooted kept comps
  all_goals simp_all [simplify, named.nonempty, named.not_same, named.not_above]

theorem mem_simplify {component : Text} (member : component ∈ simplify rooted kept comps) :
    component ∈ kept ∨ (component ∈ comps ∧ component ≠ [] ∧ component ≠ same) ∨
      component = above := by
  fun_induction simplify rooted kept comps <;> grind

theorem components_clean (path : Text) (some_ : simplify (isAbsolute path) [] (components path) ≠ []) :
    components (clean path) =
        (if isAbsolute path then [[]] else []) ++ simplify (isAbsolute path) [] (components path) ∧
      isAbsolute (clean path) = isAbsolute path := by
  have unmarked : ∀ component ∈ simplify (isAbsolute path) [] (components path),
      component ≠ [] ∧ slash ∉ component := by
    intro component member
    rcases mem_simplify member with kept | ⟨among, filled, -⟩ | rfl
    · cases kept
    · exact ⟨filled, fun inside => (Text.mem_of_splitOn among _ inside).2 rfl⟩
    · decide
  have parts := Text.splitOn_join (fun component member => (unmarked component member).2) some_
  obtain ⟨first, more, spelled⟩ := List.exists_cons_of_ne_nil some_
  obtain ⟨filled, plain⟩ := unmarked first (spelled ▸ List.mem_cons_self)
  obtain ⟨byte, rest, rfl⟩ := List.exists_cons_of_ne_nil filled
  have head := Text.head?_join [slash] byte rest more
  rw [spelled] at parts ⊢
  rcases rooted : isAbsolute path with _ | _
  · have visible : Text.join [slash] ((byte :: rest) :: more) ≠ [] := by
      intro none_
      rw [none_] at head
      cases head
    have cleaned : clean path = Text.join [slash] ((byte :: rest) :: more) := by
      simp only [clean, spelled]
      simp [rooted, visible]
    rw [cleaned]
    refine ⟨parts, ?_⟩
    have different : byte ≠ slash := fun leads => plain (leads ▸ List.mem_cons_self)
    simp [isAbsolute, head, different]
  · have cleaned : clean path = slash :: Text.join [slash] ((byte :: rest) :: more) := by
      simp only [clean, spelled]
      simp [rooted]
    rw [cleaned]
    refine ⟨?_, by simp [isAbsolute]⟩
    rw [components, Text.splitOn, if_pos rfl, parts]
    rfl

/-- The path of an entry is made of the components of its directory, cleaned, and its name. -/
theorem components_join (named : IsName name) (some_ : path ≠ []) :
    components (join [path, name]) = (if isAbsolute path then [[]] else []) ++
        (simplify (isAbsolute path) [] (components path) ++ [name]) ∧
      isAbsolute (join [path, name]) = isAbsolute path := by
  have joined : join [path, name] = clean (path ++ slash :: name) := by
    simp [join, some_, named.nonempty, Text.join]
  have rooted : isAbsolute (path ++ slash :: name) = isAbsolute path := by
    obtain ⟨byte, rest, rfl⟩ := List.exists_cons_of_ne_nil some_
    rfl
  have own : components name = [name] :=
    @Text.splitOn_join slash [name] (by simpa using named.plain) (by simp)
  have split : components (path ++ slash :: name) = components path ++ [name] := by
    rw [components, Text.splitOn_append]
    exact congrArg (components path ++ ·) own
  have parts := components_clean (path ++ slash :: name)
  rw [rooted, split, simplify_concat named] at parts
  rw [joined]
  exact parts (by simp)

theorem join_ne_nil (named : IsName name) (some_ : path ≠ []) : join [path, name] ≠ [] := by
  intro none_
  have last := congrArg List.getLast? (components_join named some_).1
  rw [none_] at last
  simp [components, Text.splitOn, ← List.append_assoc] at last
  exact named.nonempty last

theorem zero_not_mem_join (named : IsName name) (some_ : path ≠ []) (noZero : 0 ∉ path) :
    0 ∉ join [path, name] := by
  intro inside
  rw [← Text.join_splitOn slash (join [path, name])] at inside
  rcases Text.mem_join inside with between | ⟨component, among, held⟩
  · simp [slash] at between
  · rw [← components, (components_join named some_).1] at among
    simp only [List.mem_append, List.mem_singleton] at among
    rcases among with root | kept | rfl
    · obtain rfl : component = [] := by split at root <;> simp_all
      cases held
    · rcases mem_simplify kept with early | ⟨among, -, -⟩ | rfl
      · cases early
      · exact noZero (Text.mem_of_splitOn among 0 held).1
      · exact absurd held (by decide)
    · exact named.no_zero held

end Path

namespace Files
variable {files : Files} {start place here final : Place} {component name path : Text}
  {comps rest kept : List Text}

/-- The place one component further. -/
def enter (place : Place) (component : Text) : Place :=
  if component = [] ∨ component = Path.same then place
  else if component = Path.above then place.dropLast
  else place ++ [component]

theorem entryFault?_eq_none_iff :
    files.entryFault? place = none ↔ files.isDirectory place = true := by
  simp only [entryFault?]
  split
  · simp [*]
  · split <;> simp [*]

/-- A walk goes on from a directory, by a component that is not too long. -/
theorem walk_cons_eq_ok_iff :
    files.walk place (component :: rest) = .ok final ↔
      files.isDirectory place = true ∧ component.length ≤ nameLimit ∧
        files.walk (enter place component) rest = .ok final := by
  have short : component = [] ∨ component = Path.same ∨ component = Path.above →
      component.length ≤ nameLimit := by
    rintro (rfl | rfl | rfl) <;> decide
  rw [← entryFault?_eq_none_iff, walk.eq_def]
  simp only [enter]
  cases files.entryFault? place with
  | some fault => simp
  | none =>
    by_cases idle : component = [] ∨ component = Path.same
    · have fits := short (idle.imp_right .inl)
      simp [idle, fits]
    · by_cases up : component = Path.above
      · have fits := short (.inr (.inr up))
        simp_all
      · rcases Nat.lt_or_ge nameLimit component.length with long | fits
        · simp [idle, up, long, Nat.not_le.mpr long]
        · simp [idle, up, fits, Nat.not_lt.mpr fits]

theorem walk_append_eq_ok_iff :
    files.walk place (comps ++ rest) = .ok final ↔
      ∃ here, files.walk place comps = .ok here ∧ files.walk here rest = .ok final := by
  induction comps generalizing place with
  | nil => simp [walk]
  | cons component comps ih =>
    simp only [List.cons_append, walk_cons_eq_ok_iff, ih]
    grind

theorem walk_dropLast (named : component ≠ [] ∧ component ≠ Path.same ∧ component ≠ Path.above)
    (reached : files.walk start (comps ++ [component]) = .ok here) :
    files.walk start comps = .ok here.dropLast := by
  obtain ⟨before, walked, last⟩ := walk_append_eq_ok_iff.mp reached
  obtain ⟨-, -, same⟩ := walk_cons_eq_ok_iff.mp last
  obtain rfl := Except.ok.inj same
  simpa [enter, named] using walked

theorem walk_push (before : files.walk start kept.reverse = .ok here)
    (after : files.walk here (component :: rest) = .ok final) :
    files.walk start (component :: kept).reverse = .ok (enter here component) ∧
      files.walk (enter here component) rest = .ok final := by
  obtain ⟨open_, fits, goesOn⟩ := walk_cons_eq_ok_iff.mp after
  rw [List.reverse_cons]
  refine ⟨walk_append_eq_ok_iff.mpr ⟨here, before, ?_⟩, goesOn⟩
  exact walk_cons_eq_ok_iff.mpr ⟨open_, fits, rfl⟩

/-- A path still leads where it leads when its detours are dropped. -/
theorem walk_simplify {rooted : Bool} (top : rooted = true → start = [])
    (plain : ∀ component ∈ kept, component ≠ [] ∧ component ≠ Path.same)
    (before : files.walk start kept.reverse = .ok here) (after : files.walk here comps = .ok final) :
    files.walk start (Path.simplify rooted kept comps) = .ok final := by
  have aboveFilled : Path.above ≠ [] := by decide
  have aboveElsewhere : Path.above ≠ Path.same := by decide
  have up (place : Place) : enter place Path.above = place.dropLast := by
    simp [enter, aboveFilled, aboveElsewhere]
  fun_induction Path.simplify rooted kept comps generalizing here with
  | case1 kept =>
    obtain rfl := Except.ok.inj after
    exact before
  | case2 kept component rest idle ih =>
    have still : enter here component = here := by
      rw [enter, if_pos (by simpa using idle)]
    obtain ⟨-, goesOn⟩ := walk_push before after
    exact ih plain before (still ▸ goesOn)
  | case3 rest root _ ih =>
    -- above the root is the root
    obtain rfl := top root
    obtain rfl := Except.ok.inj before
    obtain ⟨-, goesOn⟩ := walk_push before after
    rw [up] at goesOn
    exact ih plain rfl goesOn
  | case4 rest _ _ ih =>
    obtain ⟨pushed, goesOn⟩ := walk_push before after
    exact ih (by simp [aboveFilled, aboveElsewhere]) pushed goesOn
  | case5 rest front _ ih =>
    obtain ⟨pushed, goesOn⟩ := walk_push before after
    exact ih (by simpa [aboveFilled, aboveElsewhere] using plain) pushed goesOn
  | case6 rest last front down _ ih =>
    obtain ⟨-, goesOn⟩ := walk_push before after
    obtain ⟨filled, elsewhere⟩ := plain last List.mem_cons_self
    rw [List.reverse_cons] at before
    rw [up] at goesOn
    exact ih (fun component member => plain component (List.mem_cons_of_mem _ member))
      (walk_dropLast ⟨filled, elsewhere, down⟩ before) goesOn
  | case7 kept component rest busy down ih =>
    obtain ⟨pushed, goesOn⟩ := walk_push before after
    exact ih (by simp_all) pushed goesOn

theorem locate_eq_ok_iff :
    files.locate path = .ok place ↔ path ≠ [] ∧ 0 ∉ path ∧ path.length ≤ pathLimit ∧
      files.walk (if Path.isAbsolute path then [] else files.here) (Path.components path) =
        .ok place := by
  unfold locate
  split
  · simp [*]
  · split
    · simp_all
    · rw [← Nat.not_lt]
      split <;> simp_all

/-- The path of an entry leads to the entry, if it is not too long. -/
theorem locate_join (located : files.locate path = .ok place) (directory : files.isDirectory place = true)
    (named : Path.IsName name) (fits : (Path.join [path, name]).length ≤ pathLimit) :
    files.locate (Path.join [path, name]) = .ok (place ++ [name]) := by
  obtain ⟨some_, noZero, -, walked⟩ := locate_eq_ok_iff.mp located
  obtain ⟨parts, rooted⟩ := Path.components_join named some_
  have start : files.walk (if Path.isAbsolute path then [] else files.here)
      (Path.simplify (Path.isAbsolute path) [] (Path.components path) ++ [name]) =
        .ok (place ++ [name]) := by
    refine walk_append_eq_ok_iff.mpr ⟨place, ?_, ?_⟩
    · exact walk_simplify (by simp +contextual) (by simp) rfl walked
    · exact walk_cons_eq_ok_iff.mpr ⟨directory, named.short, by
        simp [enter, walk, named.nonempty, named.not_same, named.not_above]⟩
  refine locate_eq_ok_iff.mpr
    ⟨Path.join_ne_nil named some_, Path.zero_not_mem_join named some_ noZero, fits, ?_⟩
  rw [parts, rooted]
  rcases absolute : Path.isAbsolute path with _ | _
  all_goals rw [absolute] at start
  · exact start
  · exact walk_cons_eq_ok_iff.mpr ⟨rfl, Nat.zero_le _, start⟩

/-- What holds of files and directories: a place has one content, is not a directory as well, and is
reached by names. -/
structure Sound (files : Files) : Prop where
  distinct : (files.contents.map Prod.fst).Nodup
  apart : ∀ place, (files.content? place).isSome → files.isDirectory place = false
  named : ∀ entry ∈ files.contents, ∀ name ∈ entry.1, Path.IsName name

theorem mem_of_content? {content : Text} (held : files.content? place = some content) :
    (place, content) ∈ files.contents := by
  obtain ⟨before, after, split, -⟩ := List.lookup_eq_some_iff.mp held
  simp [split]

/-- The entry of a directory is found by its path, if that is not too long. -/
theorem Sound.find_join (sound : files.Sound) {content : Text} (found : files.find path = .ok place)
    (directory : files.isDirectory place = true)
    (held : files.content? (place ++ [name]) = some content)
    (fits : (Path.join [path, name]).length ≤ pathLimit) :
    files.find (Path.join [path, name]) = .ok (place ++ [name]) := by
  have located : files.locate path = .ok place := by
    unfold find at found
    split at found
    · cases found
    · split at found <;> simp_all
  have named : Path.IsName name := sound.named _ (mem_of_content? held) name (by simp)
  rw [find, locate_join located directory named fits]
  simp [occupied, held]

theorem Sound.read_join (sound : files.Sound) {content : Text} (found : files.find path = .ok place)
    (directory : files.isDirectory place = true)
    (held : files.content? (place ++ [name]) = some content)
    (fits : (Path.join [path, name]).length ≤ pathLimit) :
    files.read (Path.join [path, name]) = .ok content := by
  rw [read, sound.find_join found directory held fits]
  simp [held]

theorem mem_fileNames_iff {directory : Place} :
    name ∈ files.fileNames directory ↔ (files.content? (directory ++ [name])).isSome = true := by
  have held : (files.content? (directory ++ [name])).isSome = true ↔
      ∃ content, (directory ++ [name], content) ∈ files.contents := by
    simp [content?, List.lookup_isSome_iff]
  simp only [held, fileNames, List.mem_filterMap, Option.ite_none_right_eq_some]
  constructor
  · rintro ⟨⟨place, content⟩, member, ⟨-, rfl⟩, last⟩
    exact ⟨content, by rwa [List.dropLast_append_getLast? name last]⟩
  · rintro ⟨content, member⟩
    exact ⟨_, member, by simp⟩

/-- The files in a directory are its entries that are no directories. -/
theorem Sound.mem_fileNames (sound : files.Sound) {directory : Place} :
    name ∈ files.fileNames directory ↔ files.occupied (directory ++ [name]) = true ∧
      files.isDirectory (directory ++ [name]) = false := by
  rw [mem_fileNames_iff, occupied]
  constructor
  · intro held
    simp [held, sound.apart _ held]
  · rintro ⟨there, file⟩
    simpa [file] using there

theorem Sound.nodup_fileNames (sound : files.Sound) (directory : Place) :
    (files.fileNames directory).Nodup := by
  have places : files.fileNames directory = (files.contents.map Prod.fst).filterMap fun place =>
      if place ≠ [] ∧ place.dropLast = directory then place.getLast? else none := by
    rw [List.filterMap_map]
    rfl
  rw [places]
  apply sound.distinct.filterMap
  intro one other name first second
  simp only [Option.mem_def, Option.ite_none_right_eq_some] at first second
  obtain ⟨⟨-, rfl⟩, first⟩ := first
  obtain ⟨⟨-, same⟩, second⟩ := second
  rw [← List.dropLast_append_getLast? name first, ← List.dropLast_append_getLast? name second, same]

end Files

end Scriptlet
