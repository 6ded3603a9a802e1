import Scriptlet.Text.Space
/-!
Trimming. The pieces of a text lose none of its bytes, so a trimmed text is what stands between the
white space at both ends.
-/
namespace Scriptlet.Text

section Encoding

theorem encode_two (first second : Nat) (low : 2 ≤ first) (high : first < 32) (tail : second < 64) :
    encode (first * 64 + second) = [(0xC0 + first).toUInt8, (0x80 + second).toUInt8] := by
  have lead : (first * 64 + second) / 64 = first := by omega
  have last : (first * 64 + second) % 64 = second := by omega
  rw [encode, if_neg (by omega), if_pos (by omega), lead, last]

theorem encode_three (first second third : Nat) (low : 32 ≤ first * 64 + second) (high : first < 16)
    (middle : second < 64) (tail : third < 64) :
    encode (first * 4096 + second * 64 + third) =
      [(0xE0 + first).toUInt8, (0x80 + second).toUInt8, (0x80 + third).toUInt8] := by
  have lead : (first * 4096 + second * 64 + third) / 4096 = first := by omega
  have inner : (first * 4096 + second * 64 + third) / 64 % 64 = second := by omega
  have last : (first * 4096 + second * 64 + third) % 64 = third := by omega
  rw [encode, if_neg (by omega), if_neg (by omega), if_pos (by omega), lead, inner, last]

theorem encode_four (first second third fourth : Nat) (low : 16 ≤ first * 64 + second)
    (middle : second < 64) (inner : third < 64) (tail : fourth < 64) :
    encode (first * 262144 + second * 4096 + third * 64 + fourth) =
      [(0xF0 + first).toUInt8, (0x80 + second).toUInt8, (0x80 + third).toUInt8,
        (0x80 + fourth).toUInt8] := by
  have lead : (first * 262144 + second * 4096 + third * 64 + fourth) / 262144 = first := by omega
  have upper : (first * 262144 + second * 4096 + third * 64 + fourth) / 4096 % 64 = second := by
    omega
  have lower : (first * 262144 + second * 4096 + third * 64 + fourth) / 64 % 64 = third := by omega
  have last : (first * 262144 + second * 4096 + third * 64 + fourth) % 64 = fourth := by omega
  rw [encode, if_neg (by omega), if_neg (by omega), if_neg (by omega), lead, upper, lower, last]

variable {base : Nat} {byte lead b c d : UInt8}

theorem toUInt8_payload (marked : base ≤ byte.toNat) : (base + (byte.toNat - base)).toUInt8 = byte := by
  rw [Nat.add_sub_cancel' marked]
  exact UInt8.ofNat_toNat

theorem isTail_iff : isTail byte = true ↔ 0x80 ≤ byte.toNat ∧ byte.toNat ≤ 0xBF := by
  simp [isTail, UInt8.le_iff_toNat_le]

theorem tailBits_eq (byte : UInt8) : tailBits byte = byte.toNat - 0x80 := rfl

theorem encode_two_bytes (low : 0xC2 ≤ lead.toNat) (high : lead.toNat ≤ 0xDF)
    (tail : isTail b = true) : encode ((lead.toNat - 0xC0) * 64 + tailBits b) = [lead, b] := by
  rw [isTail_iff] at tail
  have marked : 0xC0 ≤ lead.toNat := by omega
  rw [tailBits_eq, encode_two (lead.toNat - 0xC0) (b.toNat - 0x80) (by omega) (by omega) (by omega),
    toUInt8_payload marked, toUInt8_payload tail.1]

theorem bounds_of_secondOfThree (second : secondOfThree lead b = true) :
    0x80 ≤ b.toNat ∧ b.toNat ≤ 0xBF ∧ (lead.toNat = 0xE0 → 0xA0 ≤ b.toNat) := by
  simp only [secondOfThree, isTail, beq_iff_eq, ← UInt8.toNat_inj] at second
  repeat' split at second
  all_goals
    simp only [Bool.and_eq_true, decide_eq_true_eq, UInt8.le_iff_toNat_le] at second
    simp only [UInt8.reduceToNat] at *
    omega

theorem bounds_of_secondOfFour (second : secondOfFour lead b = true) :
    0x80 ≤ b.toNat ∧ b.toNat ≤ 0xBF ∧ (lead.toNat = 0xF0 → 0x90 ≤ b.toNat) := by
  simp only [secondOfFour, isTail, beq_iff_eq, ← UInt8.toNat_inj] at second
  repeat' split at second
  all_goals
    simp only [Bool.and_eq_true, decide_eq_true_eq, UInt8.le_iff_toNat_le] at second
    simp only [UInt8.reduceToNat] at *
    omega

theorem encode_three_bytes (low : 0xE0 ≤ lead.toNat) (high : lead.toNat ≤ 0xEF)
    (second : secondOfThree lead b = true) (tail : isTail c = true) :
    encode ((lead.toNat - 0xE0) * 4096 + tailBits b * 64 + tailBits c) = [lead, b, c] := by
  rw [isTail_iff] at tail
  have bounds := bounds_of_secondOfThree second
  rw [tailBits_eq, tailBits_eq, encode_three (lead.toNat - 0xE0) (b.toNat - 0x80) (c.toNat - 0x80)
      (by omega) (by omega) (by omega) (by omega),
    toUInt8_payload low, toUInt8_payload bounds.1, toUInt8_payload tail.1]

theorem encode_four_bytes (low : 0xF0 ≤ lead.toNat) (high : lead.toNat ≤ 0xF4)
    (second : secondOfFour lead b = true) (third : isTail c = true) (tail : isTail d = true) :
    encode ((lead.toNat - 0xF0) * 262144 + tailBits b * 4096 + tailBits c * 64 + tailBits d) =
      [lead, b, c, d] := by
  rw [isTail_iff] at third tail
  have bounds := bounds_of_secondOfFour second
  rw [tailBits_eq, tailBits_eq, tailBits_eq, encode_four (lead.toNat - 0xF0) (b.toNat - 0x80)
      (c.toNat - 0x80) (d.toNat - 0x80) (by omega) (by omega) (by omega) (by omega),
    toUInt8_payload low, toUInt8_payload bounds.1, toUInt8_payload third.1, toUInt8_payload tail.1]

end Encoding

theorem bytes_firstPiece (lead : UInt8) (rest : Text) :
    (firstPiece lead rest).1.bytes = lead :: rest.take (firstPiece lead rest).2 := by
  unfold firstPiece
  split
  · rename_i low
    have one : lead.toNat < 0x80 := by simpa [UInt8.lt_iff_toNat_lt] using low
    simp [Piece.bytes, encode, one]
  split
  · rename_i lead_
    have two : 0xC2 ≤ lead.toNat ∧ lead.toNat ≤ 0xDF := by
      simpa [UInt8.le_iff_toNat_le] using lead_
    split
    · split
      · rename_i tail
        exact encode_two_bytes two.1 two.2 tail
      · rfl
    · rfl
  split
  · rename_i lead_
    have three : 0xE0 ≤ lead.toNat ∧ lead.toNat ≤ 0xEF := by
      simpa [UInt8.le_iff_toNat_le] using lead_
    split
    · split
      · rename_i tails
        rw [Bool.and_eq_true] at tails
        exact encode_three_bytes three.1 three.2 tails.1 tails.2
      · rfl
    · rfl
  split
  · rename_i lead_
    have four : 0xF0 ≤ lead.toNat ∧ lead.toNat ≤ 0xF4 := by
      simpa [UInt8.le_iff_toNat_le] using lead_
    split
    · split
      · rename_i tails
        rw [Bool.and_eq_true, Bool.and_eq_true] at tails
        exact encode_four_bytes four.1 four.2 tails.1.1 tails.1.2 tails.2
      · rfl
    · rfl
  · rfl

theorem bytes_pieces (text : Text) : (pieces text).flatMap Piece.bytes = text := by
  fun_induction pieces text with
  | case1 => rfl
  | case2 lead rest ih =>
    rw [List.flatMap_cons, ih, bytes_firstPiece, List.cons_append, List.take_append_drop]

theorem exists_trim (text : Text) :
    ∃ before after : List Piece,
      text = before.flatMap Piece.bytes ++ text.trim ++ after.flatMap Piece.bytes ∧
        (∀ piece ∈ before, piece.isSpace = true) ∧ ∀ piece ∈ after, piece.isSpace = true := by
  let started := (pieces text).dropWhile Piece.isSpace
  refine ⟨(pieces text).takeWhile Piece.isSpace, (started.reverse.takeWhile Piece.isSpace).reverse,
    ?_, ?_, ?_⟩
  · have ended : (started.reverse.dropWhile Piece.isSpace).reverse ++
        (started.reverse.takeWhile Piece.isSpace).reverse = started := by
      rw [← List.reverse_append, List.takeWhile_append_dropWhile, List.reverse_reverse]
    rw [trim, List.append_assoc, ← List.flatMap_append, ended, ← List.flatMap_append,
      List.takeWhile_append_dropWhile, bytes_pieces]
  · exact fun piece member => List.all_eq_true.mp List.all_takeWhile piece member
  · intro piece member
    exact List.all_eq_true.mp List.all_takeWhile piece (List.mem_reverse.mp member)

/-- The white space characters, one by one. -/
def whiteSpaces : List Nat :=
  [9, 10, 11, 12, 13, 0x20, 0x85, 0xA0, 0x1680, 0x2000, 0x2001, 0x2002, 0x2003, 0x2004, 0x2005, 0x2006,
    0x2007, 0x2008, 0x2009, 0x200A, 0x2028, 0x2029, 0x202F, 0x205F, 0x3000]

theorem mem_whiteSpaces {code : Nat} (space : isWhiteSpace code = true) : code ∈ whiteSpaces := by
  simp only [isWhiteSpace, Bool.or_eq_true, Bool.and_eq_true, decide_eq_true_eq, beq_iff_eq] at space
  simp only [whiteSpaces, List.mem_cons, List.not_mem_nil, or_false]
  omega

end Scriptlet.Text
