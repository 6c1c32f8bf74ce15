import HelpDesk.Proofs.JsonTexts

/-! Numbers are read exactly if they are numbers of the grammar. For each state of the machine there is a language of what may
still come; a character takes the machine to the state whose language is that of the rest. -/

namespace HelpDesk.Json

section Products
variable {l m n : Language Char} {c : Char} {cs : List Char}

theorem mem_singleton {text : List Char} : cs ∈ ({text} : Language Char) ↔ cs = text :=
  Iff.rfl

theorem cons_mem_singleton {d : Char} : c :: cs ∈ ({[d]} : Language Char) ↔ c = d ∧ cs ∈ (1 : Language Char) := by
  rw [mem_singleton, List.cons.injEq, Language.mem_one]

theorem nil_mem_mul : [] ∈ l * m ↔ [] ∈ l ∧ [] ∈ m := by
  simp [Language.mem_mul, List.append_eq_nil_iff]

/-- A product begins as its first factor does, or as its second where the first may be empty. -/
theorem cons_mem_mul {begins : Prop} (front : ∀ a, c :: a ∈ l ↔ begins ∧ a ∈ n) :
    c :: cs ∈ l * m ↔ begins ∧ cs ∈ n * m ∨ [] ∈ l ∧ c :: cs ∈ m := by
  constructor
  · rintro ⟨a, left, b, right, whole⟩
    cases a with
    | nil =>
      obtain rfl : b = c :: cs := whole
      exact .inr ⟨left, right⟩
    | cons d a =>
      obtain ⟨rfl, rfl⟩ := List.cons.inj whole
      obtain ⟨begin, rest⟩ := (front a).mp left
      exact .inl ⟨begin, a, rest, b, right, rfl⟩
  · rintro (⟨begin, a, rest, b, right, rfl⟩ | ⟨left, right⟩)
    · exact ⟨c :: a, (front a).mpr ⟨begin, rest⟩, b, right, rfl⟩
    · exact ⟨[], left, c :: cs, right, rfl⟩

end Products

namespace Number
variable {c : Char} {cs : List Char}

@[simp] theorem nil_mem_digits : [] ∈ digits :=
  fun _ none => absurd none List.not_mem_nil

@[simp] theorem cons_mem_digits : c :: cs ∈ digits ↔ c.isDigit = true ∧ cs ∈ digits :=
  List.forall_mem_cons

@[simp] theorem nil_mem_someDigits : [] ∉ someDigits :=
  fun some => some.1 rfl

@[simp] theorem cons_mem_someDigits : c :: cs ∈ someDigits ↔ c.isDigit = true ∧ cs ∈ digits :=
  (and_iff_right (List.cons_ne_nil c cs)).trans cons_mem_digits

theorem cons_mem_leading : c :: cs ∈ leading ↔ (c.isDigit = true ∧ c ≠ '0') ∧ cs ∈ (1 : Language Char) := by
  constructor
  · rintro ⟨d, same, kind⟩
    obtain ⟨rfl, rfl⟩ := List.cons.inj same
    exact ⟨kind, rfl⟩
  · rintro ⟨kind, rfl⟩
    exact ⟨c, rfl, kind⟩

theorem nil_mem_leading : [] ∉ leading := by
  rintro ⟨d, same, -⟩
  cases same

theorem nil_mem_whole : [] ∉ whole := by
  rintro (zero | other)
  · cases zero
  · exact nil_mem_leading (nil_mem_mul.mp other).1

/-- A number without its sign, up to what follows the first digit. -/
theorem cons_mem_whole_mul {l : Language Char} : c :: cs ∈ whole * l ↔
    c = '0' ∧ cs ∈ l ∨ (c.isDigit = true ∧ c ≠ '0') ∧ cs ∈ digits * l := by
  rw [whole, add_mul, mul_assoc, Language.mem_add, cons_mem_mul fun _ => cons_mem_singleton,
    cons_mem_mul fun _ => cons_mem_leading, one_mul, one_mul]
  simp [mem_singleton, nil_mem_leading]

@[simp] theorem nil_mem_fraction : [] ∈ fraction :=
  .inl rfl

@[simp] theorem cons_mem_fraction : c :: cs ∈ fraction ↔ c = '.' ∧ cs ∈ someDigits := by
  rw [fraction, Language.mem_add, cons_mem_mul fun _ => cons_mem_singleton, one_mul]
  simp [mem_singleton]

@[simp] theorem nil_mem_power : [] ∉ power := by
  simp [power, nil_mem_mul]

theorem cons_mem_power : c :: cs ∈ power ↔ (c = '+' ∨ c = '-') ∧ cs ∈ someDigits ∨ c.isDigit = true ∧ cs ∈ digits := by
  have sign (a : List Char) : c :: a ∈ 1 + {['+']} + ({['-']} : Language Char) ↔
      (c = '+' ∨ c = '-') ∧ a ∈ (1 : Language Char) := by
    simp [Language.mem_add, cons_mem_singleton, or_and_right]
  rw [power, cons_mem_mul sign, one_mul]
  simp [Language.mem_add]

@[simp] theorem nil_mem_exponent : [] ∈ exponent :=
  .inl rfl

@[simp] theorem cons_mem_exponent : c :: cs ∈ exponent ↔ (c = 'e' ∨ c = 'E') ∧ cs ∈ power := by
  have letter (a : List Char) : c :: a ∈ {['e']} + ({['E']} : Language Char) ↔
      (c = 'e' ∨ c = 'E') ∧ a ∈ (1 : Language Char) := by
    simp [Language.mem_add, cons_mem_singleton, or_and_right]
  rw [exponent, Language.mem_add, cons_mem_mul letter, one_mul]
  simp [Language.mem_add, mem_singleton]

/-- What may follow in each state of the reader, up to the end of the number. -/
def ending : NumberState → Language Char
  | .minus => whole * (fraction * exponent)
  | .zero => fraction * exponent
  | .padded => 0
  | .whole => digits * (fraction * exponent)
  | .point => someDigits * exponent
  | .fraction => digits * exponent
  | .exponent => power
  | .exponentSign => someDigits
  | .exponentDigits => digits

theorem nil_mem_ending (state : NumberState) : [] ∈ ending state ↔ state.isComplete = true := by
  cases state <;> simp [ending, NumberState.isComplete, nil_mem_mul, nil_mem_whole]

theorem cons_mem_ending {state : NumberState} :
    c :: cs ∈ ending state ↔ ∃ next, state.step c = some next ∧ cs ∈ ending next := by
  have fractional : c :: cs ∈ fraction * exponent ↔
      c = '.' ∧ cs ∈ someDigits * exponent ∨ (c = 'e' ∨ c = 'E') ∧ cs ∈ power := by
    simp [cons_mem_mul fun _ => cons_mem_fraction]
  have decimal (l : Language Char) : c :: cs ∈ digits * l ↔ c.isDigit = true ∧ cs ∈ digits * l ∨ c :: cs ∈ l := by
    simp [cons_mem_mul fun _ => cons_mem_digits]
  have other : c.isDigit = true → c ≠ '.' ∧ ¬(c = 'e' ∨ c = 'E') ∧ ¬(c = '+' ∨ c = '-') := by
    intro digit
    refine ⟨?_, ?_, ?_⟩
    · rintro rfl
      cases digit
    · rintro (rfl | rfl) <;> cases digit
    · rintro (rfl | rfl) <;> cases digit
  cases state with
  | minus =>
    rw [ending, cons_mem_whole_mul]
    by_cases zero : c = '0'
    · simp [zero, NumberState.step, ending]
    · by_cases digit : c.isDigit = true <;> simp [zero, digit, NumberState.step, ending]
  | padded => exact iff_of_false (Language.notMem_zero _) (by simp [NumberState.step])
  | zero =>
    rw [ending, fractional]
    by_cases digit : c.isDigit = true
    · simp [digit, other digit, NumberState.step, ending]
    · by_cases point : c = '.'
      · simp [point, NumberState.step, ending]
      · by_cases letter : c = 'e' ∨ c = 'E' <;> simp [digit, point, letter, NumberState.step, ending]
  | whole =>
    rw [ending, decimal, fractional]
    by_cases digit : c.isDigit = true
    · simp [digit, other digit, NumberState.step, ending]
    · by_cases point : c = '.'
      · simp [point, NumberState.step, ending]
      · by_cases letter : c = 'e' ∨ c = 'E' <;> simp [digit, point, letter, NumberState.step, ending]
  | point =>
    rw [ending, cons_mem_mul fun _ => cons_mem_someDigits]
    by_cases digit : c.isDigit = true <;> simp [digit, NumberState.step, ending]
  | fraction =>
    rw [ending, decimal, cons_mem_exponent]
    by_cases digit : c.isDigit = true
    · simp [digit, other digit, NumberState.step, ending]
    · by_cases letter : c = 'e' ∨ c = 'E' <;> simp [digit, letter, NumberState.step, ending]
  | exponent =>
    rw [ending, cons_mem_power]
    by_cases digit : c.isDigit = true
    · simp [digit, other digit, NumberState.step, ending]
    · by_cases sign : c = '+' ∨ c = '-' <;> simp [digit, sign, NumberState.step, ending]
  | exponentSign | exponentDigits =>
    by_cases digit : c.isDigit = true <;> simp [digit, NumberState.step, ending]

theorem cons_mem_texts : c :: cs ∈ texts ↔ ∃ state, NumberState.start? c = some state ∧ cs ∈ ending state := by
  have minus (a : List Char) : c :: a ∈ 1 + ({['-']} : Language Char) ↔ c = '-' ∧ a ∈ (1 : Language Char) := by
    simp [Language.mem_add, cons_mem_singleton]
  have empty : [] ∈ 1 + ({['-']} : Language Char) := .inl rfl
  rw [texts, cons_mem_mul minus, one_mul, and_iff_right empty, cons_mem_whole_mul]
  by_cases sign : c = '-'
  · simp [sign, NumberState.start?, ending]
  · by_cases zero : c = '0'
    · simp [zero, NumberState.start?, ending]
    · by_cases digit : c.isDigit = true <;> simp [sign, zero, digit, NumberState.start?, ending]

theorem nil_mem_texts : [] ∉ texts := by
  simp [texts, nil_mem_mul, nil_mem_whole]

end Number

/-- What may stand right after a value, if anything does: a blank, a comma or a closing bracket. -/
def Follows (rest : Input) : Prop :=
  ∀ c, rest.head? = some (some c) → isSpace c = true ∨ c = ',' ∨ c = ']' ∨ c = '\x7d'

section Reading
variable {state : NumberState} {done digits front : List Char} {input rest : Input}

theorem step_of_follows (complete : state.isComplete = true) {c : Char}
    (follows : isSpace c = true ∨ c = ',' ∨ c = ']' ∨ c = '\x7d') : state.step c = none := by
  have each : c = ' ' ∨ c = '\t' ∨ c = '\n' ∨ c = '\r' ∨ c = ',' ∨ c = ']' ∨ c = '\x7d' := by
    simpa [isSpace, or_assoc] using follows
  cases state <;> cases complete <;> rcases each with rfl | rfl | rfl | rfl | rfl | rfl | rfl <;> rfl

theorem numberFrom_of_ending (may : front ∈ Number.ending state) (follows : Follows rest) :
    numberFrom state done (front.map some ++ rest) = .ok (done.reverse ++ front, rest) := by
  induction front generalizing state done with
  | nil =>
    have complete := (Number.nil_mem_ending state).mp may
    rw [List.append_nil]
    cases rest with
    | nil => exact if_pos complete
    | cons item rest =>
      cases item with
      | none => exact if_pos complete
      | some c =>
        have stops := step_of_follows complete (follows c rfl)
        simp [numberFrom, stops, complete]
  | cons c front ih =>
    obtain ⟨next, step, may⟩ := Number.cons_mem_ending.mp may
    simp [numberFrom, step, ih may]

theorem ending_of_numberFrom (read : numberFrom state done input = .ok (digits, rest)) :
    ∃ front ∈ Number.ending state, input = front.map some ++ rest := by
  induction input generalizing state done with
  | nil =>
    unfold numberFrom at read
    split at read
    next complete =>
      obtain ⟨-, rfl⟩ := Prod.mk.inj (Except.ok.inj read)
      exact ⟨[], (Number.nil_mem_ending state).mpr complete, rfl⟩
    next => cases read
  | cons item input ih =>
    unfold numberFrom at read
    split at read
    next next c goes =>
      obtain ⟨d, rfl, here⟩ := Option.bind_eq_some_iff.mp goes
      obtain ⟨_, step, same⟩ := Option.map_eq_some_iff.mp here
      obtain ⟨rfl, rfl⟩ := Prod.mk.inj same
      obtain ⟨front, may, rfl⟩ := ih read
      exact ⟨d :: front, Number.cons_mem_ending.mpr ⟨_, step, may⟩, rfl⟩
    next =>
      split at read
      next complete =>
        obtain ⟨-, rfl⟩ := Prod.mk.inj (Except.ok.inj read)
        exact ⟨[], (Number.nil_mem_ending state).mpr complete, rfl⟩
      next => cases read

end Reading

end HelpDesk.Json
