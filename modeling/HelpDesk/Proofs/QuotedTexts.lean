import HelpDesk.Json.Quoted
import HelpDesk.Proofs.DigitTexts
import Mathlib.Tactic.SplitIfs

/-! A quoted string is read back whatever characters are in it: each of them is undone by the machine that reads
strings, from the plain state to the plain state. -/

namespace HelpDesk.Json

private theorem textFrom_named {c d : Char} (letter : TextState.escaped? c = some d) (plain : c ≠ 'u')
    (done : List Char) (rest : Input) :
    textFrom .plain done (some '\\' :: some c :: rest) = textFrom .plain (d :: done) rest := by
  simp [textFrom, TextState.step, letter, plain]

/-- A control character is written as its code, of which only the last two digits count. -/
private theorem textFrom_control {c : Char} (control : c.toNat < 0x20) (done : List Char) (rest : Input) :
    textFrom .plain done (some '\\' :: some 'u' :: some '0' :: some '0' :: some (Text.hexDigit (c.toNat / 16)) ::
      some (Text.hexDigit c.toNat) :: rest) = textFrom .plain (c :: done) rest := by
  have zero : Text.hexValue? '0' = some 0 := by decide
  have high : Text.hexValue? (Text.hexDigit (c.toNat / 16)) = some (c.toNat / 16) := Text.hexValue?_hexDigit (by omega)
  have low : Text.hexValue? (Text.hexDigit c.toNat) = some (c.toNat % 16) := Text.hexValue?_hexDigit_mod _
  have code : TextState.ofCode none (16 * (c.toNat / 16) + c.toNat % 16) = some (.plain, some c) := by
    have whole : 16 * (c.toNat / 16) + c.toNat % 16 = c.toNat := by omega
    have neither : TextState.isLow c.toNat = false ∧ TextState.isHigh c.toNat = false := by
      simp only [TextState.isLow, TextState.isHigh, Bool.and_eq_false_iff, decide_eq_false_iff_not]
      omega
    simp [TextState.ofCode, whole, neither]
  simp [textFrom, TextState.step, zero, high, low, code]

/-- A character is written in one of three ways. -/
theorem escape_cases (c : Char) :
    (escape c = [c] ∧ c ≠ '"' ∧ c ≠ '\\' ∧ ¬c.toNat < 0x20) ∨
    (∃ letter, escape c = ['\\', letter] ∧ TextState.escaped? letter = some c ∧ letter ≠ 'u') ∨
    (escape c = ['\\', 'u', '0', '0', Text.hexDigit (c.toNat / 16), Text.hexDigit c.toNat] ∧ c.toNat < 0x20) := by
  unfold escape
  split_ifs with quote backslash line carriage tab back feed control
  case neg => exact .inl ⟨rfl, quote, backslash, control⟩
  rotate_right
  · exact .inr (.inr ⟨rfl, control⟩)
  all_goals
    subst c
    exact .inr (.inl ⟨_, rfl, by decide, by decide⟩)

/-- What a character is written as stands for the character. -/
theorem textFrom_escape (c : Char) (done : List Char) (rest : Input) :
    textFrom .plain done ((escape c).map some ++ rest) = textFrom .plain (c :: done) rest := by
  rcases escape_cases c with ⟨itself, quote, backslash, control⟩ | ⟨letter, named, stands, plain⟩ | ⟨code, control⟩
  · have step : TextState.plain.step c = some (.plain, some c) := by
      simp [TextState.step, backslash, control]
    simp [itself, textFrom, quote, step]
  · rw [named]
    exact textFrom_named stands plain done rest
  · rw [code]
    exact textFrom_control control done rest

theorem textFrom_escaped (cs done : List Char) (rest : Input) :
    textFrom .plain done ((cs.flatMap escape).map some ++ some '"' :: rest) = .ok (done.reverse ++ cs, rest) := by
  induction cs generalizing done with
  | nil => simp [textFrom]
  | cons c cs ih =>
    rw [List.flatMap_cons, List.map_append, List.append_assoc, textFrom_escape, ih]
    simp

/-- A string is read back from between its quotes, and what follows is left. -/
theorem readQuoted_escaped (s : String) (rest : Input) :
    readQuoted ((s.toList.flatMap escape).map some ++ some '"' :: rest) = .ok (s, rest) := by
  simp [readQuoted, textFrom_escaped]

end HelpDesk.Json
