import HelpDesk.Proofs.JsonTexts

/-! Strings are read exactly if they are strings of the grammar, and as what they spell. The machine that reads them is taken
from one character of the string to the next, so both directions are inductions on the characters. -/

namespace HelpDesk.Json

theorem hexValue?_eq_some_iff {c : Char} {value : Nat} : Text.hexValue? c = some value ↔ HexDigit value c := by
  constructor
  · intro read
    have numerals : ∀ n < 10, HexDigit n (Char.ofNat (48 + n)) := by
      unfold HexDigit
      decide
    have letters : ∀ n < 6, HexDigit (10 + n) (Char.ofNat (97 + n)) ∧ HexDigit (10 + n) (Char.ofNat (65 + n)) := by
      unfold HexDigit
      decide
    have at_code {n code : Nat} (digit : HexDigit n (Char.ofNat code)) (same : c.toNat = code) : HexDigit n c := by
      rwa [← same, Char.ofNat_toNat] at digit
    simp only [Text.hexValue?] at read
    split_ifs at read with numeral small capital
    all_goals obtain rfl := Option.some.inj read
    · exact at_code (numerals (c.toNat - 48) (by omega)) (by omega)
    · rw [show c.toNat - 87 = 10 + (c.toNat - 97) by omega]
      exact at_code (letters (c.toNat - 97) (by omega)).1 (by omega)
    · rw [show c.toNat - 55 = 10 + (c.toNat - 65) by omega]
      exact at_code (letters (c.toNat - 65) (by omega)).2 (by omega)
  · have table : ∀ digits ∈ ["0123456789abcdef", "0123456789ABCDEF"], ∀ value < digits.toList.length,
        digits.toList[value]?.bind Text.hexValue? = some value := by
      decide
    have reads {digits : String} (one : digits ∈ ["0123456789abcdef", "0123456789ABCDEF"])
        (there : digits.toList[value]? = some c) : Text.hexValue? c = some value := by
      have found := table digits one value (List.getElem?_eq_some_iff.mp there).1
      rwa [there, Option.bind_some] at found
    rintro (small | capital)
    · exact reads (by simp) small
    · exact reads (by simp) capital

theorem HexDigit.lt {c : Char} {value : Nat} (digit : HexDigit value c) : value < 16 := by
  rcases digit with small | capital
  · exact (List.getElem?_eq_some_iff.mp small).1
  · exact (List.getElem?_eq_some_iff.mp capital).1

theorem CodeUnit.lt {n : Nat} {text : List Char} (unit : CodeUnit n text) : n < 0x10000 := by
  cases unit with
  | digits first second third last =>
    have bounds := And.intro (And.intro first.lt second.lt) (And.intro third.lt last.lt)
    omega

theorem CodeUnit.ne_nil {n : Nat} {text : List Char} (unit : CodeUnit n text) : text ≠ [] := by
  cases unit
  exact List.cons_ne_nil _ _

theorem escaped?_eq_some_iff {letter c : Char} : TextState.escaped? letter = some c ↔ (letter, c) ∈ shorthands := by
  unfold TextState.escaped?
  split_ifs <;> simp_all [shorthands, eq_comm]

namespace TextState

theorem toNat_ofNat_of_valid {n : Nat} (valid : n.isValidChar) : (Char.ofNat n).toNat = n := by
  rw [Char.ofNat, dif_pos valid]
  rfl

theorem ofCode_char (c : Char) : ofCode none c.toNat = some (.plain, some c) := by
  have valid : c.toNat < 0xD800 ∨ 0xDFFF < c.toNat := by
    rcases c.valid with low | ⟨high, -⟩
    · exact .inl low
    · exact .inr high
  have neither : isLow c.toNat = false ∧ isHigh c.toNat = false := by
    simp only [isLow, isHigh, Bool.and_eq_false_iff, decide_eq_false_iff_not]
    omega
  simp [ofCode, neither]

theorem ofCode_high {n : Nat} (half : 0xD800 ≤ n ∧ n < 0xDC00) : ofCode none n = some (.pair n, none) := by
  have high : isLow n = false ∧ isHigh n = true := by
    simp only [isLow, isHigh, Bool.and_eq_false_iff, Bool.and_eq_true, decide_eq_false_iff_not, decide_eq_true_eq]
    omega
  simp [ofCode, high]

theorem ofCode_low {high low : Nat} {c : Char} (half : 0xDC00 ≤ low ∧ low < 0xE000)
    (whole : c.toNat = 0x10000 + 0x400 * (high - 0xD800) + (low - 0xDC00)) :
    ofCode (some high) low = some (.plain, some c) := by
  have isLow : isLow low = true := by
    simp only [TextState.isLow, Bool.and_eq_true, decide_eq_true_eq]
    omega
  have char : joined high low = c := by
    rw [joined, Nat.mul_comm, ← whole, Char.ofNat_toNat]
  simp [ofCode, isLow, char]

/-- A code that stands alone is that of a character, or the first half of a pair. -/
theorem ofCode_none {n : Nat} {next : TextState} {written : Option Char} (small : n < 0x10000)
    (read : ofCode none n = some (next, written)) :
    (∃ c : Char, c.toNat = n ∧ next = .plain ∧ written = some c) ∨
    (0xD800 ≤ n ∧ n < 0xDC00 ∧ next = .pair n ∧ written = none) := by
  simp only [ofCode] at read
  split at read
  next => cases read
  next notLow =>
    split at read
    next isHigh =>
      obtain ⟨rfl, rfl⟩ := Prod.mk.inj (Option.some.inj read)
      simp only [TextState.isHigh, Bool.and_eq_true, decide_eq_true_eq] at isHigh
      exact .inr ⟨by omega, by omega, rfl, rfl⟩
    next notHigh =>
      obtain ⟨rfl, rfl⟩ := Prod.mk.inj (Option.some.inj read)
      simp only [isLow, isHigh, Bool.and_eq_true, decide_eq_true_eq] at notLow notHigh
      have valid : n.isValidChar := by
        unfold Nat.isValidChar
        omega
      exact .inl ⟨Char.ofNat n, toNat_ofNat_of_valid valid, rfl, rfl⟩

theorem ofCode_some {high low : Nat} {next : TextState} {written : Option Char}
    (isHigh : 0xD800 ≤ high ∧ high < 0xDC00) (read : ofCode (some high) low = some (next, written)) :
    0xDC00 ≤ low ∧ low < 0xE000 ∧ next = .plain ∧
      ∃ c : Char, written = some c ∧ c.toNat = 0x10000 + 0x400 * (high - 0xD800) + (low - 0xDC00) := by
  simp only [ofCode] at read
  split at read
  next isLow =>
    obtain ⟨rfl, rfl⟩ := Prod.mk.inj (Option.some.inj read)
    simp only [TextState.isLow, Bool.and_eq_true, decide_eq_true_eq] at isLow
    have valid : (0x10000 + (high - 0xD800) * 0x400 + (low - 0xDC00)).isValidChar := by
      unfold Nat.isValidChar
      omega
    refine ⟨by omega, by omega, rfl, joined high low, rfl, ?_⟩
    rw [joined, toNat_ofNat_of_valid valid]
    omega
  next => cases read

end TextState

section Machine
variable {state next : TextState} {done : List Char} {input rest : Input} {written : Option Char} {c : Char}
  {out : List Char × Input}

theorem textFrom_step (opens : ¬(state = .plain ∧ c = '"')) (steps : state.step c = some (next, written)) :
    textFrom state done (some c :: rest) = textFrom next (written.toList ++ done) rest := by
  simp only [textFrom, if_neg opens, steps]
  cases written <;> rfl

/-- The reading ends with the next quote, or goes on after the next character. -/
theorem textFrom_cases (read : textFrom state done input = .ok out) :
    (state = .plain ∧ ∃ rest, input = some '"' :: rest ∧ out = (done.reverse, rest)) ∨
    ∃ c rest next written, input = some c :: rest ∧ ¬(state = .plain ∧ c = '"') ∧
      state.step c = some (next, written) ∧ textFrom next (written.toList ++ done) rest = .ok out := by
  cases input with
  | nil => cases read
  | cons item rest =>
    cases item with
    | none => cases read
    | some c =>
      by_cases closes : state = .plain ∧ c = '"'
      · simp only [textFrom, if_pos closes, Except.ok.injEq] at read
        obtain ⟨plain, rfl⟩ := closes
        exact .inl ⟨plain, rest, rfl, read.symm⟩
      · refine .inr ⟨c, rest, ?_⟩
        cases steps : state.step c with
        | none =>
          simp only [textFrom, if_neg closes, steps] at read
          cases read
        | some result =>
          obtain ⟨next, written⟩ := result
          rw [textFrom_step closes steps] at read
          exact ⟨next, written, rfl, closes, rfl, read⟩

section Code
variable {high : Option Nat} {left value d n : Nat}

theorem textFrom_digit (digit : HexDigit d c) (done : List Char) (rest : Input) :
    textFrom (.code high (left + 1) value) done (some c :: rest) = textFrom (.code high left (16 * value + d)) done rest := by
  have steps : (TextState.code high (left + 1) value).step c = some (.code high left (16 * value + d), none) := by
    rw [TextState.step, hexValue?_eq_some_iff.mpr digit]
    rfl
  exact textFrom_step (by simp) steps

/-- The digits of a code unit lead to what the unit means. -/
theorem textFrom_unit {text : List Char} (unit : CodeUnit n text)
    (means : TextState.ofCode high n = some (next, written)) (done : List Char) (rest : Input) :
    ∃ digits, text = '\\' :: 'u' :: digits ∧
      textFrom (.code high 3 0) done (digits.map some ++ rest) = textFrom next (written.toList ++ done) rest := by
  cases unit with
  | @digits a b c d w x y z first second third last =>
    refine ⟨_, rfl, ?_⟩
    have sum : 16 * (16 * (16 * (16 * 0 + a) + b) + c) + d = 0x1000 * a + 0x100 * b + 0x10 * c + d := by omega
    have steps : (TextState.code high 0 (16 * (16 * (16 * 0 + a) + b) + c)).step z = some (next, written) := by
      rw [TextState.step, hexValue?_eq_some_iff.mpr last, Option.bind_some, sum, means]
    simp only [List.map_cons, List.map_nil, List.cons_append, List.nil_append]
    rw [textFrom_digit first, textFrom_digit second, textFrom_digit third]
    exact textFrom_step (by simp) steps

theorem digit_of_textFrom (read : textFrom (.code high (left + 1) value) done input = .ok out) :
    ∃ c d rest, input = some c :: rest ∧ HexDigit d c ∧ textFrom (.code high left (16 * value + d)) done rest = .ok out := by
  rcases textFrom_cases read with ⟨plain, -⟩ | ⟨c, rest, next, written, rfl, -, steps, read⟩
  · cases plain
  · obtain ⟨d, digit, same⟩ := Option.map_eq_some_iff.mp steps
    obtain ⟨rfl, rfl⟩ := Prod.mk.inj same
    exact ⟨c, d, rest, rfl, hexValue?_eq_some_iff.mp digit, read⟩

theorem unit_of_textFrom (read : textFrom (.code high 3 0) done input = .ok out) :
    ∃ n digits rest next written, CodeUnit n ('\\' :: 'u' :: digits) ∧ input = digits.map some ++ rest ∧
      TextState.ofCode high n = some (next, written) ∧ textFrom next (written.toList ++ done) rest = .ok out := by
  obtain ⟨w, a, _, rfl, first, read⟩ := digit_of_textFrom read
  obtain ⟨x, b, _, rfl, second, read⟩ := digit_of_textFrom read
  obtain ⟨y, c, _, rfl, third, read⟩ := digit_of_textFrom read
  rcases textFrom_cases read with ⟨plain, -⟩ | ⟨z, rest, next, written, rfl, -, steps, read⟩
  · cases plain
  · obtain ⟨d, last, means⟩ := Option.bind_eq_some_iff.mp steps
    have sum : 16 * (16 * (16 * (16 * 0 + a) + b) + c) + d = 0x1000 * a + 0x100 * b + 0x10 * c + d := by omega
    rw [sum] at means
    exact ⟨_, _, rest, next, written, .digits first second third (hexValue?_eq_some_iff.mp last), rfl, means, read⟩

end Code

/-- What a character is written as stands for the character. -/
theorem textFrom_spelling {part : List Char} (spelling : Spelling c part) (done : List Char) (rest : Input) :
    textFrom .plain done (part.map some ++ rest) = textFrom .plain (c :: done) rest := by
  have backslash : TextState.plain.step '\\' = some (.escape, none) := rfl
  have code : TextState.escape.step 'u' = some (.code none 3 0, none) := rfl
  cases spelling with
  | raw raw =>
    have steps : TextState.plain.step c = some (.plain, some c) := by
      simp [TextState.step, raw.backslash, not_lt.mpr raw.visible]
    exact textFrom_step (fun quote => raw.quote quote.2) steps
  | @short letter stands =>
    have other : letter ≠ 'u' := by
      rintro rfl
      revert stands
      simp [shorthands]
    have steps : TextState.escape.step letter = some (.plain, some c) := by
      rw [TextState.step, if_neg other, escaped?_eq_some_iff.mpr stands]
      rfl
    exact (textFrom_step (by decide) backslash).trans (textFrom_step (by simp) steps)
  | code unit =>
    obtain ⟨digits, rfl, reads⟩ := textFrom_unit unit (TextState.ofCode_char c) done rest
    exact ((textFrom_step (by decide) backslash).trans (textFrom_step (by simp) code)).trans reads
  | @pair high low first second one other isHigh isLow joined =>
    have half : TextState.ofCode none high = some (.pair high, none) := TextState.ofCode_high isHigh
    have whole : TextState.ofCode (some high) low = some (.plain, some c) := TextState.ofCode_low isLow joined
    obtain ⟨back, rfl, more⟩ := textFrom_unit other whole done rest
    obtain ⟨front, rfl, reads⟩ := textFrom_unit one half done (('\\' :: 'u' :: back).map some ++ rest)
    have backslash' : (TextState.pair high).step '\\' = some (.pairEscape high, none) := rfl
    have code' : (TextState.pairEscape high).step 'u' = some (.code (some high) 3 0, none) := rfl
    rw [List.map_append, List.append_assoc]
    calc textFrom .plain done (('\\' :: 'u' :: front).map some ++ (('\\' :: 'u' :: back).map some ++ rest))
        = textFrom (.code none 3 0) done (front.map some ++ (('\\' :: 'u' :: back).map some ++ rest)) :=
          (textFrom_step (by decide) backslash).trans (textFrom_step (by simp) code)
      _ = textFrom (.pair high) done (('\\' :: 'u' :: back).map some ++ rest) := reads
      _ = textFrom (.code (some high) 3 0) done (back.map some ++ rest) :=
          (textFrom_step (by simp) backslash').trans (textFrom_step (by simp) code')
      _ = textFrom .plain (c :: done) rest := more

/-- After the first half of a pair nothing but the second is read. -/
theorem half_of_textFrom {high : Nat} (isHigh : 0xD800 ≤ high ∧ high < 0xDC00)
    (read : textFrom (.pair high) done input = .ok out) :
    ∃ low c text rest, CodeUnit low text ∧ (0xDC00 ≤ low ∧ low < 0xE000) ∧
      Char.toNat c = 0x10000 + 0x400 * (high - 0xD800) + (low - 0xDC00) ∧ input = text.map some ++ rest ∧
      textFrom .plain (c :: done) rest = .ok out := by
  rcases textFrom_cases read with ⟨plain, -⟩ | ⟨backslash, rest, next, written, rfl, -, steps, read⟩
  · cases plain
  obtain ⟨rfl, same⟩ := Option.ite_none_right_eq_some.mp steps
  obtain ⟨rfl, rfl⟩ := Prod.mk.inj (Option.some.inj same)
  rcases textFrom_cases read with ⟨plain, -⟩ | ⟨letter, rest, next, written, rfl, -, steps, read⟩
  · cases plain
  obtain ⟨rfl, same⟩ := Option.ite_none_right_eq_some.mp steps
  obtain ⟨rfl, rfl⟩ := Prod.mk.inj (Option.some.inj same)
  obtain ⟨low, digits, rest, next, written, unit, rfl, means, read⟩ := unit_of_textFrom read
  obtain ⟨least, most, rfl, c, rfl, joined⟩ := TextState.ofCode_some isHigh means
  exact ⟨low, c, _, rest, unit, ⟨least, most⟩, joined, rfl, read⟩

/-- Between two characters a string ends or goes on with something that stands for a character. -/
theorem spelling_of_textFrom (read : textFrom .plain done input = .ok out) :
    (∃ rest, input = some '"' :: rest ∧ out = (done.reverse, rest)) ∨
    ∃ c part rest, Spelling c part ∧ input = part.map some ++ rest ∧ textFrom .plain (c :: done) rest = .ok out := by
  rcases textFrom_cases read with ⟨-, closed⟩ | ⟨c, rest, next, written, rfl, opens, steps, read⟩
  · exact .inl closed
  refine .inr ?_
  by_cases backslash : c = '\\'
  · subst backslash
    obtain ⟨rfl, rfl⟩ := Prod.mk.inj (Option.some.inj steps)
    rcases textFrom_cases read with ⟨plain, -⟩ | ⟨letter, rest, next, written, rfl, -, steps, read⟩
    · cases plain
    by_cases code : letter = 'u'
    · subst code
      obtain ⟨rfl, rfl⟩ := Prod.mk.inj (Option.some.inj steps)
      obtain ⟨n, digits, rest, next, written, unit, rfl, means, read⟩ := unit_of_textFrom read
      rcases TextState.ofCode_none unit.lt means with ⟨c, rfl, rfl, rfl⟩ | ⟨least, most, rfl, rfl⟩
      · exact ⟨c, _, rest, .code unit, rfl, read⟩
      · obtain ⟨low, c, text, rest, other, isLow, joined, rfl, more⟩ := half_of_textFrom ⟨least, most⟩ read
        refine ⟨c, _, rest, .pair unit other ⟨least, most⟩ isLow joined, ?_, more⟩
        simp
    · rw [TextState.step, if_neg code] at steps
      obtain ⟨c, stands, same⟩ := Option.map_eq_some_iff.mp steps
      obtain ⟨rfl, rfl⟩ := Prod.mk.inj same
      exact ⟨c, _, rest, .short (escaped?_eq_some_iff.mp stands), rfl, read⟩
  · rw [TextState.step, if_neg backslash] at steps
    split at steps
    · cases steps
    next visible =>
      obtain ⟨rfl, rfl⟩ := Prod.mk.inj (Option.some.inj steps)
      exact ⟨c, _, rest, .raw ⟨not_lt.mp visible, fun quote => opens ⟨rfl, quote⟩, backslash⟩, rfl, read⟩

theorem textFrom_literal {cs : List Char} {parts : List (List Char)} (spelled : List.Forall₂ Spelling cs parts)
    (done : List Char) (rest : Input) :
    textFrom .plain done (parts.flatten.map some ++ some '"' :: rest) = .ok (done.reverse ++ cs, rest) := by
  induction spelled generalizing done with
  | nil => simp [textFrom]
  | @cons c part cs parts spelling _ ih =>
    rw [List.flatten_cons, List.map_append, List.append_assoc, textFrom_spelling spelling, ih, List.reverse_cons,
      List.append_assoc, List.singleton_append]

theorem Spelling.ne_nil {part : List Char} (spelling : Spelling c part) : part ≠ [] := by
  cases spelling with
  | raw | short => exact List.cons_ne_nil _ _
  | code unit => exact unit.ne_nil
  | pair one other => exact List.append_ne_nil_of_left_ne_nil one.ne_nil _

theorem literal_of_textFrom (read : textFrom .plain done input = .ok out) : ∃ cs parts rest,
    List.Forall₂ Spelling cs parts ∧ input = parts.flatten.map some ++ some '"' :: rest ∧
      out = (done.reverse ++ cs, rest) := by
  induction size : input.length using Nat.strong_induction_on generalizing input done with
  | h n ih =>
    subst size
    rcases spelling_of_textFrom read with ⟨rest, rfl, rfl⟩ | ⟨c, part, rest, spelling, rfl, more⟩
    · exact ⟨[], [], rest, .nil, rfl, by rw [List.append_nil]⟩
    · have shorter : rest.length < (part.map some ++ rest).length := by
        have some := List.length_pos_iff.mpr spelling.ne_nil
        rw [List.length_append, List.length_map]
        omega
      obtain ⟨cs, parts, rest, spelled, rfl, rfl⟩ := ih _ shorter more rfl
      exact ⟨c :: cs, part :: parts, rest, .cons spelling spelled, by simp, by simp⟩

end Machine

theorem Literal.front {s : String} {text : List Char} (literal : Literal s text) : ∃ rest, text = '"' :: rest := by
  obtain ⟨parts, -, same⟩ := literal
  exact ⟨_, same⟩

/-- What is read as a string after its first quote is what spells it, up to the closing quote. -/
theorem readQuoted_eq_ok_iff {s : String} {input rest : Input} : readQuoted input = .ok (s, rest) ↔
    ∃ text, Literal s ('"' :: text) ∧ input = text.map some ++ rest := by
  unfold readQuoted
  constructor
  · intro read
    split at read
    next inner =>
      obtain ⟨rfl, rfl⟩ := Prod.mk.inj (Except.ok.inj read)
      obtain ⟨cs, parts, rest, spelled, rfl, same⟩ := literal_of_textFrom inner
      obtain ⟨rfl, rfl⟩ := Prod.mk.inj same
      exact ⟨parts.flatten ++ ['"'], ⟨parts, by simpa using spelled, rfl⟩, by simp⟩
    next => cases read
  · rintro ⟨text, ⟨parts, spelled, same⟩, rfl⟩
    obtain rfl : text = parts.flatten ++ ['"'] := (List.cons.inj same).2
    have read := textFrom_literal spelled [] rest
    have whole : (parts.flatten ++ ['"']).map some ++ rest = parts.flatten.map some ++ some '"' :: rest := by
      rw [List.map_append, List.append_assoc]
      rfl
    simp only [whole, read, List.reverse_nil, List.nil_append, String.ofList_toList]

end HelpDesk.Json
