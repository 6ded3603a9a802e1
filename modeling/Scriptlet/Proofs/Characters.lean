import Scriptlet.Proofs.Refusal
import Scriptlet.Proofs.Trimming
/-!
Characters of a source. A text falls into the same characters on both sides of an ASCII byte, and gaps and
lexemes end with one; so where a source in UTF-8 cannot be scanned there stands a whole character. The
fault is about its first byte, and names the character that has this byte as its code point.
-/
namespace Scriptlet

namespace Text

/-- The last byte, if there is one, is a character on its own. -/
def EndsAscii (text : Text) : Prop := ∀ byte ∈ text.getLast?, byte < 0x80

theorem endsAscii_nil : EndsAscii [] := by simp [EndsAscii]

theorem endsAscii_concat {text : Text} {byte : UInt8} : EndsAscii (text ++ [byte]) ↔ byte < 0x80 := by
  simp [EndsAscii]

theorem endsAscii_of_all {text : Text} (all : ∀ byte ∈ text, byte < 0x80) : EndsAscii text :=
  fun byte last => all byte (List.mem_of_getLast? last)

theorem EndsAscii.append {a b : Text} (first : EndsAscii a) (second : EndsAscii b) :
    EndsAscii (a ++ b) := by
  rcases List.eq_nil_or_concat' b with rfl | ⟨front, byte, rfl⟩
  · rwa [List.append_nil]
  · rw [← List.append_assoc, endsAscii_concat]
    exact endsAscii_concat.mp second

theorem EndsAscii.behind {b : Text} (ends : EndsAscii b) (some_ : b ≠ []) (a : Text) :
    EndsAscii (a ++ b) := by
  obtain ⟨front, byte, rfl⟩ := (List.eq_nil_or_concat' b).resolve_left some_
  rw [← List.append_assoc, endsAscii_concat]
  exact endsAscii_concat.mp ends

section Pieces
variable {byte lead : UInt8} {rest : Text}

theorem not_isTail_of_ascii (low : byte < 0x80) : isTail byte = false := by
  simp only [UInt8.lt_iff_toNat_lt, UInt8.reduceToNat] at low
  simp only [isTail, Bool.and_eq_false_iff, decide_eq_false_iff_not, UInt8.le_iff_toNat_le,
    UInt8.reduceToNat]
  omega

theorem not_secondOfThree_of_ascii (low : byte < 0x80) : secondOfThree lead byte = false := by
  rw [← Bool.not_eq_true]
  intro second
  have bounds := bounds_of_secondOfThree second
  simp only [UInt8.lt_iff_toNat_lt, UInt8.reduceToNat] at low
  omega

theorem not_secondOfFour_of_ascii (low : byte < 0x80) : secondOfFour lead byte = false := by
  rw [← Bool.not_eq_true]
  intro second
  have bounds := bounds_of_secondOfFour second
  simp only [UInt8.lt_iff_toNat_lt, UInt8.reduceToNat] at low
  omega

theorem firstPiece_append (low : byte < 0x80) (lead : UInt8) (rest more : Text) :
    firstPiece lead (rest ++ byte :: more) = firstPiece lead rest := by
  have tail := not_isTail_of_ascii low
  have third : secondOfThree lead byte = false := not_secondOfThree_of_ascii low
  have fourth : secondOfFour lead byte = false := not_secondOfFour_of_ascii low
  rcases rest with _ | ⟨b, _ | ⟨c, _ | ⟨d, rest⟩⟩⟩
  · rcases more with _ | ⟨c, _ | ⟨d, more⟩⟩ <;> simp [firstPiece, tail, third, fourth]
  · rcases more with _ | ⟨d, more⟩ <;> simp [firstPiece, tail]
  · simp [firstPiece, tail]
  · rfl

theorem firstPiece_le (lead : UInt8) (rest : Text) : (firstPiece lead rest).2 ≤ rest.length := by
  unfold firstPiece
  repeat' split
  all_goals simp

theorem pieces_append_cons (low : byte < 0x80) (before after : Text) :
    pieces (before ++ byte :: after) = pieces before ++ .scalar byte.toNat :: pieces after := by
  fun_induction pieces before with
  | case1 =>
    have first : firstPiece byte after = (.scalar byte.toNat, 0) := if_pos low
    rw [List.nil_append, List.nil_append, pieces, first, List.drop_zero]
  | case2 lead rest ih =>
    rw [List.cons_append, pieces, firstPiece_append low,
      List.drop_append_of_le_length (firstPiece_le lead rest), ih, List.cons_append]

theorem EndsAscii.pieces_append {before : Text} (ends : EndsAscii before) (after : Text) :
    pieces (before ++ after) = pieces before ++ pieces after := by
  rcases List.eq_nil_or_concat' before with rfl | ⟨front, byte, rfl⟩
  · rw [pieces.eq_1]
    rfl
  · have low := endsAscii_concat.mp ends
    rw [List.append_assoc, List.singleton_append, pieces_append_cons low, pieces_append_cons low,
      pieces.eq_1, List.append_assoc, List.singleton_append]

theorem Piece.bytes_ne_nil (piece : Piece) : piece.bytes ≠ [] := by
  cases piece with
  | stray => exact List.cons_ne_nil _ _
  | scalar code =>
    unfold Piece.bytes encode
    repeat' split
    all_goals exact List.cons_ne_nil _ _

end Pieces

theorem length_encode_le {code : Nat} (small : code < 0x800) : (encode code).length ≤ 2 := by
  unfold encode
  split <;> simp

theorem le_length_encode {code : Nat} (large : 0x800 ≤ code) : 3 ≤ (encode code).length := by
  rw [encode, if_neg (by omega), if_neg (by omega)]
  split <;> simp

/-- The byte with which a character starts is the code point of that character if this is an ASCII one,
and once besides. -/
theorem encode_lead_iff {code : Nat} {lead : UInt8} {tail : Text}
    (spelled : encode code = lead :: tail) :
    encode lead.toNat = encode code ↔ code < 0x80 ∨ code = 0xC3 := by
  have byte := lead.toNat_lt
  rcases Nat.lt_or_ge code 0x80 with ascii | notAscii
  · rw [encode, if_pos ascii] at spelled
    injection spelled with first
    have same : lead.toNat = code := by
      rw [← first, Nat.toUInt8, UInt8.toNat_ofNat', Nat.mod_eq_of_lt (by omega)]
    simp [same, ascii]
  rcases Nat.lt_or_ge code 0x800 with two | more
  · have whole : code = code / 64 * 64 + code % 64 := by omega
    have form := encode_two (code / 64) (code % 64) (by omega) (by omega) (by omega)
    rw [← whole] at form
    have first : lead.toNat = 3 * 64 + code / 64 := by
      rw [form] at spelled
      injection spelled with first
      rw [← first, Nat.toUInt8, UInt8.toNat_ofNat', Nat.mod_eq_of_lt (by omega)]
    have lone := encode_two 3 (code / 64) (by omega) (by omega) (by omega)
    rw [first, lone, form]
    simp only [List.cons.injEq, ← UInt8.toNat_inj, Nat.toUInt8, UInt8.toNat_ofNat', and_true]
    omega
  · have long := le_length_encode more
    have short : (encode lead.toNat).length ≤ 2 := length_encode_le (by omega)
    constructor
    · intro same
      rw [same] at short
      omega
    · omega

end Text

namespace Position

theorem column_after_of_not_mem {text : Text} (none : Text.lineFeed ∉ text) (p : Position) :
    (p.after text).column = p.column + text.length := by
  induction text generalizing p with
  | nil => simp
  | cons byte rest ih =>
    rw [List.mem_cons, not_or] at none
    rw [after_cons, ih none.2, next, if_neg (Ne.symm none.1), List.length_cons]
    dsimp only
    omega

theorem eq_nil_of_after {p : Position} {text : Text} (same : p.after text = p) : text = [] := by
  have line := line_after p text
  rw [same] at line
  have none : Text.lineFeed ∉ text := List.count_eq_zero.mp (by omega)
  have column := column_after_of_not_mem none p
  rw [same] at column
  exact List.length_eq_zero_iff.mp (by omega)

theorem eq_of_ofOffset {source : Text} {n m : Nat} (same : ofOffset source n = ofOffset source m)
    (insideN : n ≤ source.length) (insideM : m ≤ source.length) : n = m := by
  wlog order : n ≤ m generalizing n m
  · exact (this same.symm insideM insideN (Nat.le_of_not_le order)).symm
  · have whole : source.take m = source.take n ++ (source.drop n).take (m - n) := by
      rw [← List.take_add, Nat.add_sub_cancel' order]
    rw [← start_after_take, ← start_after_take, whole, after_append] at same
    have none := congrArg List.length (eq_nil_of_after same.symm)
    simp only [List.length_take, List.length_drop, List.length_nil] at none
    omega

end Position

/-- At a place of a text in UTF-8 stands this character. -/
def CharacterAt (source : Text) (place : Position) (code : Nat) : Prop :=
  ∃ before after : List Text.Piece, Text.pieces source = before ++ .scalar code :: after ∧
    place = Position.ofOffset source (before.flatMap Text.Piece.bytes).length

theorem length_le_of_pieces {source : Text} {before after : List Text.Piece} {piece : Text.Piece}
    (whole : Text.pieces source = before ++ piece :: after) :
    (before.flatMap Text.Piece.bytes).length ≤ source.length := by
  have bytes := Text.bytes_pieces source
  rw [whole, List.flatMap_append] at bytes
  rw [← bytes, List.length_append]
  exact Nat.le_add_right _ _

theorem CharacterAt.unique {source : Text} {place : Position} {a b : Nat}
    (first : CharacterAt source place a) (second : CharacterAt source place b) : a = b := by
  obtain ⟨before, after, whole, rfl⟩ := first
  obtain ⟨earlier, later, again, same⟩ := second
  have offsets : (before.flatMap Text.Piece.bytes).length = (earlier.flatMap Text.Piece.bytes).length :=
    Position.eq_of_ofOffset same (length_le_of_pieces whole) (length_le_of_pieces again)
  wlog shorter : before <+: earlier generalizing a b before after earlier later
  · have either := List.prefix_or_prefix_of_prefix ⟨_, whole.symm⟩ ⟨_, again.symm⟩
    exact (this earlier later again before after whole same.symm offsets.symm
      (either.resolve_left shorter)).symm
  · obtain ⟨between, rfl⟩ := shorter
    have none : between = [] := by
      rw [List.flatMap_append, List.length_append] at offsets
      have empty : between.flatMap Text.Piece.bytes = [] := List.length_eq_zero_iff.mp (by omega)
      rw [List.flatMap_eq_nil_iff] at empty
      exact List.eq_nil_iff_forall_not_mem.mpr fun piece member =>
        piece.bytes_ne_nil (empty piece member)
    rw [whole, none, List.append_nil] at again
    have heads := List.append_cancel_left again
    injection heads with head
    injection head

namespace Lexeme

theorem ascii_of_letter {byte : UInt8} (member : (Text.isLetter byte || Text.isDigit byte) = true) :
    byte < 0x80 := by
  simp only [Text.isLetter, Text.isDigit, Bool.or_eq_true, Bool.and_eq_true, decide_eq_true_eq,
    beq_iff_eq, UInt8.le_iff_toNat_le, ← UInt8.toNat_inj, UInt8.reduceToNat] at member
  simp only [UInt8.lt_iff_toNat_lt, UInt8.reduceToNat]
  omega

theorem Lexical.endsAscii {lexeme : Lexeme} (lexical : lexeme.Lexical) : lexeme.raw.EndsAscii := by
  cases lexical with
  | symbol listed =>
    have all : ∀ entry ∈ symbols, ∀ byte ∈ entry.1, byte < 0x80 := by decide +kernel
    exact Text.endsAscii_of_all (all _ listed)
  | @word first rest letter inside =>
    refine Text.endsAscii_of_all fun byte member => ascii_of_letter ?_
    rcases List.mem_cons.mp member with rfl | later
    · rw [letter, Bool.true_or]
    · exact inside byte later
  | digits digits =>
    refine Text.endsAscii_of_all fun byte member => ascii_of_letter ?_
    rw [digits.2 byte member, Bool.or_true]
  | @quoted mark body value quote means =>
    rw [raw, Text.endsAscii_concat]
    rcases quote with rfl | rfl <;> decide

/-- A gap before something that is outside gaps ends with a blank. -/
theorem Gap.endsAscii {gap rest : Text} (before : Gap gap rest) (outside : Solid rest)
    (some_ : rest ≠ []) : gap.EndsAscii := by
  induction before with
  | nothing => exact Text.endsAscii_nil
  | @blank byte gap rest blank _ ih =>
    have low : byte < 0x80 := by
      simp only [isBlank, Bool.or_eq_true, beq_iff_eq] at blank
      rcases blank with ((rfl | rfl) | rfl) | rfl <;> decide
    have alone : Text.EndsAscii [byte] := Text.endsAscii_of_all (by simpa using low)
    exact alone.append (ih outside some_)
  | @comment text gap rest inside ended _ ih =>
    have more : gap ≠ [] := by
      rintro rfl
      rcases ended with none | feed
      · exact some_ none
      · exact absurd (outside _ feed).1 (by decide)
    rw [← List.cons_append]
    exact (ih outside some_).behind more _

end Lexeme

theorem Cut.Precedes.endsAscii {cut : Cut} {before rest : Text} (precedes : cut.Precedes before rest)
    (outside : Lexeme.Solid rest) (some_ : rest ≠ []) : before.EndsAscii := by
  induction precedes with
  | last gap => exact gap.endsAscii outside some_
  | @piece gap lexeme before rest pieces last gapped longest _ ih =>
    obtain ⟨byte, tail, raw⟩ := longest.lexical.raw_cons
    have inner := longest.lexical.endsAscii.append (ih outside some_)
    exact inner.behind (by simp [raw]) gap

/-- What a fault about the byte with which a character starts tells. -/
structure AboutLead (source : Text) (fault : Diagnostic) (code : Nat) : Prop where
  stands : CharacterAt source fault.position code
  alone : ∀ other, CharacterAt source fault.position other → other = code
  tells : ∃ kind lead tail, Text.encode code = lead :: tail ∧
    fault = (Fault.about kind "Char" (Text.encode lead.toNat)).placedAt fault.position
  right_iff : fault.details = some [(utf8 "Char", .text (Text.encode code))] ↔
    code < 0x80 ∨ code = 0xC3

theorem aboutLead {source before after : Text} {lead : UInt8} {fault : Diagnostic} (kind : Fault)
    (valid : source.isUtf8 = true) (whole : source = before ++ lead :: after)
    (ends : before.EndsAscii)
    (told : fault = (kind.about "Char" (Text.encode lead.toNat)).placedAt
      (Position.start.after before)) :
    ∃ code, AboutLead source fault code := by
  have place : fault.position = Position.ofOffset source before.length := by
    rw [← Position.start_after_take, whole, List.take_left, told]
    rfl
  have cut := ends.pieces_append (lead :: after)
  rw [← whole, Text.pieces] at cut
  have bytes := Text.bytes_firstPiece lead after
  rcases first : (Text.firstPiece lead after).1 with code | byte
  · rw [first] at cut bytes
    have stands : CharacterAt source fault.position code :=
      ⟨_, _, cut, by rw [Text.bytes_pieces, place]⟩
    refine ⟨code, stands, fun other there => there.unique stands, ?_, ?_⟩
    · exact ⟨kind, lead, _, bytes, told ▸ rfl⟩
    · rw [← Text.encode_lead_iff bytes, told]
      simp [Fault.about, Fault.diagnose, Diagnostic.placedAt]
  · rw [Text.isUtf8, cut, first] at valid
    simp [Text.Piece.isScalar] at valid

/-- The codes of the faults that are about one byte. -/
def byteFaults : List Text := [utf8 "LEX-0001", utf8 "LEX-0004", utf8 "LEX-0005"]

/-- Where a fault is about one byte of a source in UTF-8, a character starts there. The fault tells the
character whose code point that byte is, which is the one that stands there exactly if that is an ASCII
character or U+00C3. -/
theorem byte_faults_about_lead {keywords : Keywords} {source : Text} {fault : Diagnostic}
    (valid : source.isUtf8 = true) (failed : scan keywords source = .error fault)
    (which : fault.code ∈ byteFaults) : ∃ code, AboutLead source fault code := by
  obtain ⟨cut, before, rest, kind, n, details, ⟨whole, precedes, outside, -, refused⟩, told⟩ :=
    exists_firstFault_of_scanFrom failed
  have listed : kind.entry.code ∈ byteFaults := by
    rw [told] at which
    exact which
  cases refused with
  | unrecognized =>
    have ends := precedes.endsAscii outside (List.cons_ne_nil _ _)
    rw [List.take_zero, List.append_nil] at told
    exact aboutLead .unrecognizedCharacter valid whole ends told
  | half =>
    have ends := precedes.endsAscii outside (List.cons_ne_nil _ _)
    rw [List.take_zero, List.append_nil] at told
    exact aboutLead .loneOperatorHalf valid whole ends told
  | @escape mark body value letter rest =>
    have split : mark :: (body ++ Text.backslash :: letter :: rest) =
        mark :: (body ++ [Text.backslash]) ++ letter :: rest := by simp
    have ends : (before ++ mark :: (body ++ [Text.backslash])).EndsAscii := by
      rw [← List.cons_append, ← List.append_assoc, Text.endsAscii_concat]
      decide
    have taken : (mark :: (body ++ Text.backslash :: letter :: rest)).take (body.length + 2) =
        mark :: (body ++ [Text.backslash]) := by rw [split, List.take_left' (by simp)]
    rw [split, ← List.append_assoc] at whole
    rw [taken] at told
    exact aboutLead .unknownEscape valid whole ends told
  | mismatch => exact absurd listed (by decide)
  | unterminated => exact absurd listed (by decide)

/-- A comment and a string with characters of two bytes, one of them behind a backslash. -/
def accented : Text := utf8 "# ü\n'ü\\é'"

def accentedFault : Diagnostic := (Fault.unknownEscape.about "Char" (utf8 "Ã")).placedAt ⟨2, 5⟩

theorem accented_about_lead :
    accented.isUtf8 = true ∧ scan Keywords.default accented = .error accentedFault ∧
      accentedFault.code ∈ byteFaults ∧ ∃ code, AboutLead accented accentedFault code := by
  have valid : accented.isUtf8 = true := by decide +kernel
  have failed : scan Keywords.default accented = .error accentedFault := by decide +kernel
  have which : accentedFault.code ∈ byteFaults := by decide +kernel
  exact ⟨valid, failed, which, byte_faults_about_lead valid failed which⟩

/-- A letter that is not ASCII is told as another one. -/
theorem character_not_always_told :
    ¬ ∀ (keywords : Keywords) (source : Text) (fault : Diagnostic), source.isUtf8 = true →
      scan keywords source = .error fault → fault.code ∈ byteFaults →
        ∃ code, CharacterAt source fault.position code ∧
          fault.details = some [(utf8 "Char", .text (Text.encode code))] := by
  intro always
  have failed : scan Keywords.default (utf8 "é") =
      .error ((Fault.unrecognizedCharacter.about "Char" (utf8 "Ã")).placedAt ⟨1, 1⟩) := by
    decide +kernel
  obtain ⟨code, ⟨before, after, whole, -⟩, told⟩ :=
    always _ _ _ (by decide +kernel) failed (by decide +kernel)
  have one : Text.pieces (utf8 "é") = [.scalar 0xE9] := by decide +kernel
  rw [one] at whole
  obtain rfl : code = 0xE9 := by
    have member : Text.Piece.scalar code ∈ [Text.Piece.scalar 0xE9] := whole ▸ by simp
    simpa using member
  exact absurd told (by decide +kernel)

end Scriptlet
