import HelpDesk.Text.Decimal
import Mathlib.Data.Nat.Digits.Defs

/-! Whole numbers in decimal text: which texts are read, and as which number. -/

namespace HelpDesk.Text
variable {value n bits : Nat} {cs : List Char} {s : String}

def digitValue (c : Char) : Nat :=
  c.toNat - '0'.toNat

/-- The text of a number: decimal digits, at least one, with a plus sign before them or none. -/
def Denotes (s : String) (n : Nat) : Prop :=
  ∃ digits : List Char, (s.toList = digits ∨ s.toList = '+' :: digits) ∧ digits ≠ [] ∧
    (∀ c ∈ digits, c.isDigit = true) ∧ n = Nat.ofDigits 10 (digits.map digitValue).reverse

theorem digitsFrom?_eq_some_iff : digitsFrom? value cs = some n ↔
    (∀ c ∈ cs, c.isDigit = true) ∧ n = value * 10 ^ cs.length + Nat.ofDigits 10 (cs.map digitValue).reverse := by
  induction cs generalizing value with
  | nil =>
    rw [digitsFrom?, Option.some.injEq, eq_comm]
    simp
  | cons c cs ih =>
    by_cases digit : c.isDigit = true
    · have shifted : (10 * value + digitValue c) * 10 ^ cs.length + Nat.ofDigits 10 (cs.map digitValue).reverse =
          value * 10 ^ (cs.length + 1) + (Nat.ofDigits 10 (cs.map digitValue).reverse + 10 ^ cs.length * digitValue c) := by
        ring
      rw [digitsFrom?, digit?, if_pos digit, List.forall_mem_cons, and_iff_right digit, List.map_cons,
        Nat.ofDigits_reverse_cons, List.length_map, List.length_cons, ← shifted]
      exact ih
    · simp [digitsFrom?, digit?, digit]

theorem digits?_eq_some_iff : digits? cs = some n ↔
    cs ≠ [] ∧ (∀ c ∈ cs, c.isDigit = true) ∧ n = Nat.ofDigits 10 (cs.map digitValue).reverse := by
  cases cs with
  | nil => simp [digits?]
  | cons c cs => simp [digits?, digitsFrom?_eq_some_iff]

/-- The numbers that are read are those that a text denotes and that fit. A plus sign is no digit, so it cannot be taken for
one of them. -/
theorem unsigned?_eq_some_iff : unsigned? bits s = some n ↔ Denotes s n ∧ n < 2 ^ bits := by
  simp only [unsigned?, Option.filter_eq_some_iff, decide_eq_true_eq]
  refine and_congr_left fun _ => ?_
  constructor
  · intro denoted
    split at denoted
    next rest signed => exact ⟨rest, .inr signed, digits?_eq_some_iff.mp denoted⟩
    next => exact ⟨s.toList, .inl rfl, digits?_eq_some_iff.mp denoted⟩
  · rintro ⟨digits, text | text, denoted⟩
    · split
      next rest signed =>
        have plus := denoted.2.1 '+' (text ▸ signed ▸ List.mem_cons_self)
        cases plus
      next =>
        rw [text]
        exact digits?_eq_some_iff.mpr denoted
    · rw [text]
      exact digits?_eq_some_iff.mpr denoted

end HelpDesk.Text
