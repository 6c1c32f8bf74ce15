import HelpDesk.Proofs.DigitTexts
import HelpDesk.Uuid

/-! The text of an identifier is read back as the identifier: each half of the format, the digits and the hyphens
between their groups, undoes what the other one does. -/

namespace HelpDesk

namespace Uuid

@[simp] theorem length_hexPadded (width n : Nat) : (hexPadded width n).length = width := by
  induction width generalizing n with
  | zero => rfl
  | succ width ih => simp [hexPadded, ih]

theorem hexFrom?_append (value : Nat) (cs ds : List Char) :
    hexFrom? value (cs ++ ds) = (hexFrom? value cs).bind (hexFrom? · ds) := by
  induction cs generalizing value with
  | nil => rfl
  | cons c cs ih =>
    simp only [List.cons_append, hexFrom?]
    cases Text.hexValue? c with
    | none => rfl
    | some d => exact ih _

/-- The digits of a number denote it, or what is left of it in so many digits. -/
theorem hexFrom?_hexPadded (value width n : Nat) :
    hexFrom? value (hexPadded width n) = some (value * 16 ^ width + n % 16 ^ width) := by
  induction width generalizing n with
  | zero => simp [hexPadded, hexFrom?, Nat.mod_one]
  | succ width ih =>
    have low : n % 16 ^ (width + 1) = 16 * (n / 16 % 16 ^ width) + n % 16 := by
      rw [Nat.pow_succ', Nat.mod_mul]
      omega
    simp only [hexPadded, hexFrom?_append, ih, Option.bind_some, hexFrom?, Text.hexValue?_hexDigit_mod]
    rw [low, Nat.pow_succ', Nat.mul_add, Nat.mul_left_comm, Nat.add_assoc]

theorem ofDigits?_hexPadded (u : Uuid) : ofDigits? (hexPadded 32 u.bits.toNat) = some u := by
  have fits : 0 * 16 ^ 32 + u.bits.toNat % 16 ^ 32 = u.bits.toNat := by
    rw [Nat.zero_mul, Nat.zero_add]
    exact Nat.mod_eq_of_lt u.bits.isLt
  have read : hexFrom? 0 (hexPadded 32 u.bits.toNat) = some u.bits.toNat := by rw [hexFrom?_hexPadded, fits]
  simp [ofDigits?, read, ofNat]

/-- Cutting digits into groups loses none of them. -/
theorem unhyphenate?_hyphenate (first : Nat) (more : List Nat) (cs : List Char)
    (whole : cs.length = first + more.sum) : unhyphenate? (first :: more) (hyphenate (first :: more) cs) = some cs := by
  induction more generalizing first cs with
  | nil =>
    have all : cs.take first = cs := List.take_of_length_le (by simp at whole; omega)
    simp only [hyphenate, unhyphenate?, all]
    simpa using whole
  | cons second more ih =>
    have group : (cs.take first).length = first := by simp [whole]
    have rest := ih second (cs.drop first) (by simp at whole ⊢; omega)
    have front : (cs.take first ++ '-' :: hyphenate (second :: more) (cs.drop first)).take first = cs.take first := by
      rw [List.take_append_of_le_length (by omega), List.take_of_length_le (by omega)]
    have back : (cs.take first ++ '-' :: hyphenate (second :: more) (cs.drop first)).drop first =
        '-' :: hyphenate (second :: more) (cs.drop first) := by
      simp [group]
    simp only [hyphenate, unhyphenate?, front, back, rest, Option.map_some, List.take_append_drop]

theorem length_hyphenate (first : Nat) (more : List Nat) (cs : List Char) (whole : cs.length = first + more.sum) :
    (hyphenate (first :: more) cs).length = cs.length + more.length := by
  induction more generalizing first cs with
  | nil => simp [hyphenate] at whole ⊢; omega
  | cons second more ih =>
    have rest := ih second (cs.drop first) (by simp at whole ⊢; omega)
    simp only [hyphenate, List.length_append, List.length_cons, rest, List.length_take, List.length_drop]
    simp at whole
    omega

@[simp] theorem ofString?_toString (u : Uuid) : ofString? u.toString = some u := by
  have whole : (hexPadded 32 u.bits.toNat).length = 8 + [4, 4, 4, 12].sum := by simp
  have length : u.toChars.length = 36 := by
    simp [toChars, groups, length_hyphenate 8 [4, 4, 4, 12] _ whole]
  have digits : unhyphenate? groups u.toChars = some (hexPadded 32 u.bits.toNat) :=
    unhyphenate?_hyphenate 8 [4, 4, 4, 12] _ whole
  simp [ofString?, toString, ofChars?, length, ofHyphenated?, digits, ofDigits?_hexPadded]

end Uuid

end HelpDesk
