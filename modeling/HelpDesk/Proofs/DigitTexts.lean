import HelpDesk.Text.Decimal
import HelpDesk.Text.Hexadecimal
import Mathlib.Algebra.Ring.Nat

/-! The digits of a number denote it: what is written with so many digits is read back, and so many digits never
denote a number that would take more. -/

namespace HelpDesk.Text

theorem hexDigit_mod (n : Nat) : hexDigit (n % 16) = hexDigit n := by
  simp [hexDigit]

theorem hexValue?_hexDigit_mod (n : Nat) : hexValue? (hexDigit n) = some (n % 16) := by
  rw [← hexDigit_mod]
  exact hexValue?_hexDigit (Nat.mod_lt n (by decide))

theorem digit?_digitChar_mod (n : Nat) : digit? (digitChar n) = some (n % 10) := by
  have same : digitChar n = digitChar (n % 10) := by simp [digitChar]
  rw [same]
  exact digit?_digitChar (Nat.mod_lt n (by decide))

theorem isDigit_digitChar (n : Nat) : (digitChar n).isDigit = true := by
  have known := digit?_digitChar_mod n
  unfold digit? at known
  split at known
  next digit => exact digit
  next => cases known

theorem isDigit_of_mem_padded (width n : Nat) {c : Char} (mem : c ∈ padded width n) : c.isDigit = true := by
  induction width generalizing n with
  | zero => simp [padded] at mem
  | succ width ih =>
    rcases List.mem_append.mp mem with before | last
    · exact ih _ before
    · rw [List.mem_singleton.mp last]
      exact isDigit_digitChar n

theorem digitsFrom?_append (value : Nat) (cs ds : List Char) :
    digitsFrom? value (cs ++ ds) = (digitsFrom? value cs).bind (digitsFrom? · ds) := by
  induction cs generalizing value with
  | nil => rfl
  | cons c cs ih =>
    simp only [List.cons_append, digitsFrom?]
    cases digit? c with
    | none => rfl
    | some d => exact ih _

theorem digitsFrom?_padded (value width n : Nat) :
    digitsFrom? value (padded width n) = some (value * 10 ^ width + n % 10 ^ width) := by
  induction width generalizing n with
  | zero => simp [padded, digitsFrom?, Nat.mod_one]
  | succ width ih =>
    have low : n % 10 ^ (width + 1) = 10 * (n / 10 % 10 ^ width) + n % 10 := by
      rw [Nat.pow_succ', Nat.mod_mul]
      omega
    simp only [padded, digitsFrom?_append, ih, Option.bind_some, digitsFrom?, digit?_digitChar_mod]
    rw [low, Nat.pow_succ', Nat.mul_add, Nat.mul_left_comm, Nat.add_assoc]

/-- A number that fits into the digits is read back from them. -/
theorem digits?_padded {width n : Nat} (some_digit : 0 < width) (fits : n < 10 ^ width) :
    digits? (padded width n) = some n := by
  have nonempty : padded width n ≠ [] := by
    intro empty
    have := congrArg List.length empty
    simp at this
    omega
  simp [digits?, nonempty, digitsFrom?_padded, Nat.mod_eq_of_lt fits]

theorem digit?_lt {c : Char} {d : Nat} (read : digit? c = some d) : d < 10 := by
  unfold digit? at read
  split at read
  next digit =>
    simp only [Char.isDigit, Bool.and_eq_true, decide_eq_true_eq, ge_iff_le, UInt32.le_iff_toNat_le] at digit
    simp only [Option.some.injEq] at read
    have bounds : 48 ≤ c.toNat ∧ c.toNat ≤ 57 := digit
    have zero : '0'.toNat = 48 := rfl
    omega
  next => simp at read

theorem digitsFrom?_lt {value result : Nat} {cs : List Char} (read : digitsFrom? value cs = some result) :
    result < (value + 1) * 10 ^ cs.length := by
  induction cs generalizing value with
  | nil =>
    simp only [digitsFrom?, Option.some.injEq] at read
    simp [read]
  | cons c cs ih =>
    simp only [digitsFrom?] at read
    split at read
    next d digit =>
      have small := digit?_lt digit
      have rest := ih read
      calc result < (10 * value + d + 1) * 10 ^ cs.length := rest
        _ ≤ ((value + 1) * 10) * 10 ^ cs.length := Nat.mul_le_mul_right _ (by omega)
        _ = (value + 1) * 10 ^ (c :: cs).length := by rw [List.length_cons, Nat.pow_succ', Nat.mul_assoc]
    next => simp at read

theorem digits?_lt {cs : List Char} {n : Nat} (read : digits? cs = some n) : n < 10 ^ cs.length := by
  unfold digits? at read
  split at read
  next => simp at read
  next => simpa using digitsFrom?_lt read

end HelpDesk.Text
