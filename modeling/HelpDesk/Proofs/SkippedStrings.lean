import HelpDesk.Proofs.LiteralTexts

/-! Passing over a value that nobody asked for: the machine's single steps, and its way through a string, which is the same
whether the string is a value or a name. It is passed over exactly if it is a string of the grammar. -/

namespace HelpDesk.Json

/-- Goes on after a value, inside of the brackets that are open. -/
def resume (stack : List Bracket) (rest : Input) : Except Fault Input :=
  match stack with
  | [] => .ok rest
  | bracket :: stack => skipFrom .after (bracket :: stack) rest

section Steps
variable {mode next : SkipMode} {stack below : List Bracket} {item : Option Char} {c : Char} {rest input : Input}

theorem skipFrom_go (step : SkipStep.of mode stack item = .go next below) :
    skipFrom mode stack (item :: rest) = skipFrom next below rest := by
  rw [skipFrom, step]

theorem skipFrom_congr (same : SkipStep.of mode stack item = SkipStep.of next below item) :
    skipFrom mode stack (item :: rest) = skipFrom next below (item :: rest) := by
  rw [skipFrom, skipFrom, same]

theorem skipFrom_ended (step : SkipStep.of mode stack item = SkipStep.ended below) :
    skipFrom mode stack (item :: rest) = resume below rest := by
  rw [skipFrom, step]
  cases below <;> rfl

/-- Between two tokens blanks change nothing. -/
def SkipMode.Waits (mode : SkipMode) : Prop :=
  ∀ stack c, SkipStep.of mode stack (some c) = if isSpace c = true then .go mode stack else SkipStep.token c mode stack

theorem SkipMode.Waits.token (waits : mode.Waits) (solid : isSpace c = false) (stack : List Bracket) :
    SkipStep.of mode stack (some c) = SkipStep.token c mode stack :=
  (waits stack c).trans (if_neg (by rw [solid]; decide))

theorem skipFrom_spaces (waits : mode.Waits) {blanks : List Char} (spaces : Spaces blanks) :
    skipFrom mode stack (blanks.map some ++ rest) = skipFrom mode stack rest := by
  induction blanks with
  | nil => rfl
  | cons c blanks ih =>
    obtain ⟨space, spaces⟩ := List.forall_mem_cons.mp spaces
    have step : SkipStep.of mode stack (some c) = .go mode stack := (waits stack c).trans (if_pos space)
    exact (skipFrom_go step).trans (ih spaces)

end Steps

/-- What follows a string that is passed over. -/
def passString : SkipText → Input → Option Input
  | _, [] => none
  | state, item :: rest =>
    if state = .plain ∧ item = some '"' then some rest
    else (state.step item).bind fun next => passString next rest

section Strings
variable {state next : SkipText} {stack : List Bracket} {c : Char} {input rest : Input}

/-- The two modes of a string go through it alike; they differ in what comes then. -/
theorem skipFrom_string {text : SkipText → SkipMode} {after : Input → Except Fault Input}
    (ends : ∀ rest, skipFrom (text .plain) stack (some '"' :: rest) = after rest)
    (goes : ∀ state item, ¬(state = .plain ∧ item = some '"') → SkipStep.of (text state) stack item =
      (state.step item).elim .fail fun next => .go (text next) stack)
    (needs : ∀ state, skipFrom (text state) stack [] = .error .malformed) (state : SkipText) (input : Input) :
    skipFrom (text state) stack input = (passString state input).elim (.error .malformed) after := by
  induction input generalizing state with
  | nil => exact needs state
  | cons item rest ih =>
    by_cases closes : state = .plain ∧ item = some '"'
    · rw [passString, if_pos closes]
      obtain ⟨rfl, rfl⟩ := closes
      exact ends rest
    · rw [passString, if_neg closes]
      have step := goes state item closes
      cases steps : state.step item with
      | none =>
        rw [steps] at step
        rw [skipFrom, step]
        rfl
      | some next =>
        rw [steps] at step
        exact (skipFrom_go step).trans (ih next)

theorem skipFrom_text (state : SkipText) (stack : List Bracket) (input : Input) :
    skipFrom (.text state) stack input = (passString state input).elim (.error .malformed) (resume stack) := by
  refine skipFrom_string (fun rest => skipFrom_ended rfl) (fun state item opens => ?_) (fun state => ?_) state input
  · simp only [SkipStep.of, if_neg opens]
    cases state.step item <;> rfl
  · cases stack <;> rfl

theorem skipFrom_nameText (state : SkipText) (stack : List Bracket) (input : Input) :
    skipFrom (.nameText state) stack input = (passString state input).elim (.error .malformed) (skipFrom .colon stack) := by
  refine skipFrom_string (fun rest => skipFrom_go rfl) (fun state item opens => ?_) (fun state => ?_) state input
  · simp only [SkipStep.of, if_neg opens]
    cases state.step item <;> rfl
  · cases stack <;> rfl

theorem passString_step (opens : ¬(state = .plain ∧ c = '"')) (steps : state.step (some c) = some next) :
    passString state (some c :: rest) = passString next rest := by
  rw [passString, if_neg (by simpa using opens), steps]
  rfl

theorem passString_cases (clean : none ∉ input) (pass : passString state input = some rest) :
    (state = .plain ∧ input = some '"' :: rest) ∨
    ∃ c more next, input = some c :: more ∧ none ∉ more ∧ ¬(state = .plain ∧ c = '"') ∧
      state.step (some c) = some next ∧ passString next more = some rest := by
  cases input with
  | nil => cases pass
  | cons item more =>
    obtain ⟨solid, others⟩ := not_or.mp (mt List.mem_cons.mpr clean)
    obtain ⟨c, rfl⟩ := Option.ne_none_iff_exists'.mp (Ne.symm solid)
    rw [passString] at pass
    split at pass
    next closes =>
      obtain ⟨rfl, quote⟩ := closes
      obtain rfl := Option.some.inj pass
      exact .inl ⟨rfl, by rw [quote]⟩
    next opens =>
      obtain ⟨next, steps, pass⟩ := Option.bind_eq_some_iff.mp pass
      exact .inr ⟨c, more, next, rfl, others, by simpa using opens, steps, pass⟩

theorem step_code {left d : Nat} (digit : HexDigit d c) : (SkipText.code (left + 1)).step (some c) = some (.code left) := by
  rw [SkipText.step, hexValue?_eq_some_iff.mpr digit]
  rfl

theorem step_lastCode {d : Nat} (digit : HexDigit d c) : (SkipText.code 0).step (some c) = some .plain := by
  rw [SkipText.step, hexValue?_eq_some_iff.mpr digit]
  rfl

theorem passString_piece {piece : List Char} (isPiece : Piece piece) (rest : Input) :
    passString .plain (piece.map some ++ rest) = passString .plain rest := by
  have backslash : SkipText.plain.step (some '\\') = some .escape := rfl
  cases isPiece with
  | @raw c raw =>
    have steps : SkipText.plain.step (some c) = some .plain := by
      simp [SkipText.step, raw.backslash, not_lt.mpr raw.visible]
    exact passString_step (fun quote => raw.quote quote.2) steps
  | @short letter c stands =>
    have steps : SkipText.escape.step (some letter) = some .plain := by
      simp only [shorthands, List.mem_cons, Prod.mk.injEq, List.not_mem_nil, or_false] at stands
      rcases stands with ⟨rfl, -⟩ | ⟨rfl, -⟩ | ⟨rfl, -⟩ | ⟨rfl, -⟩ | ⟨rfl, -⟩ | ⟨rfl, -⟩ | ⟨rfl, -⟩ | ⟨rfl, -⟩ <;> rfl
    exact (passString_step (by decide) backslash).trans (passString_step (by simp) steps)
  | code unit =>
    cases unit with
    | @digits _ _ _ _ w x y z first second third last =>
      have code : SkipText.escape.step (some 'u') = some (.code 3) := rfl
      simp only [List.map_cons, List.map_nil, List.cons_append, List.nil_append]
      rw [passString_step (by decide) backslash, passString_step (by simp) code, passString_step (by simp) (step_code first),
        passString_step (by simp) (step_code second), passString_step (by simp) (step_code third),
        passString_step (by simp) (step_lastCode last)]

theorem digit_of_passString {left : Nat} (clean : none ∉ input) (pass : passString (.code left) input = some rest) :
    ∃ d c more next, input = some c :: more ∧ none ∉ more ∧ HexDigit d c ∧ (SkipText.code left).step (some c) = some next ∧
      passString next more = some rest := by
  rcases passString_cases clean pass with ⟨plain, -⟩ | ⟨c, more, next, rfl, others, -, steps, pass⟩
  · cases plain
  · obtain ⟨d, digit, -⟩ := Option.map_eq_some_iff.mp steps
    exact ⟨d, c, more, next, rfl, others, hexValue?_eq_some_iff.mp digit, steps, pass⟩

theorem unit_of_passString (clean : none ∉ input) (pass : passString (.code 3) input = some rest) :
    ∃ n digits more, CodeUnit n ('\\' :: 'u' :: digits) ∧ input = digits.map some ++ more ∧ none ∉ more ∧
      passString .plain more = some rest := by
  obtain ⟨a, w, more, next, rfl, clean, first, steps, pass⟩ := digit_of_passString clean pass
  obtain rfl := Option.some.inj ((step_code first).symm.trans steps)
  obtain ⟨b, x, more, next, rfl, clean, second, steps, pass⟩ := digit_of_passString clean pass
  obtain rfl := Option.some.inj ((step_code second).symm.trans steps)
  obtain ⟨c, y, more, next, rfl, clean, third, steps, pass⟩ := digit_of_passString clean pass
  obtain rfl := Option.some.inj ((step_code third).symm.trans steps)
  obtain ⟨d, z, more, next, rfl, clean, last, steps, pass⟩ := digit_of_passString clean pass
  obtain rfl := Option.some.inj ((step_lastCode last).symm.trans steps)
  exact ⟨_, [w, x, y, z], more, .digits first second third last, rfl, clean, pass⟩

/-- Between two characters a string ends or goes on with one of its pieces. -/
theorem piece_of_passString (clean : none ∉ input) (pass : passString .plain input = some rest) :
    input = some '"' :: rest ∨
    ∃ piece more, Piece piece ∧ input = piece.map some ++ more ∧ none ∉ more ∧ passString .plain more = some rest := by
  rcases passString_cases clean pass with ⟨-, closed⟩ | ⟨c, more, next, rfl, others, opens, steps, pass⟩
  · exact .inl closed
  refine .inr ?_
  by_cases backslash : c = '\\'
  · subst backslash
    obtain rfl := Option.some.inj steps
    rcases passString_cases others pass with ⟨plain, -⟩ | ⟨letter, more, next, rfl, inside, -, steps, pass⟩
    · cases plain
    by_cases code : letter = 'u'
    · subst code
      obtain rfl := Option.some.inj steps
      obtain ⟨n, digits, more, unit, rfl, outside, pass⟩ := unit_of_passString inside pass
      exact ⟨_, more, .code unit, rfl, outside, pass⟩
    · rw [SkipText.step, if_neg code] at steps
      obtain ⟨known, same⟩ := Option.ite_none_right_eq_some.mp steps
      obtain rfl := Option.some.inj same
      obtain ⟨c, stands⟩ : ∃ c, (letter, c) ∈ shorthands := by
        rcases known with rfl | rfl | rfl | rfl | rfl | rfl | rfl | rfl <;> simp [shorthands]
      exact ⟨_, more, .short stands, rfl, inside, pass⟩
  · rw [SkipText.step, if_neg backslash] at steps
    split at steps
    · cases steps
    next visible =>
      obtain rfl := Option.some.inj steps
      exact ⟨_, more, .raw ⟨not_lt.mp visible, fun quote => opens ⟨rfl, quote⟩, backslash⟩, rfl, others, pass⟩

theorem Piece.ne_nil {piece : List Char} (isPiece : Piece piece) : piece ≠ [] := by
  cases isPiece with
  | raw | short => exact List.cons_ne_nil _ _
  | code unit => exact unit.ne_nil

/-- What is passed over after a first quote is the rest of a string. -/
theorem quoted_of_passString (clean : none ∉ input) (pass : passString .plain input = some rest) :
    ∃ text, Quoted ('"' :: text) ∧ input = text.map some ++ rest := by
  induction size : input.length using Nat.strong_induction_on generalizing input with
  | h n ih =>
    subst size
    rcases piece_of_passString clean pass with rfl | ⟨piece, more, isPiece, rfl, others, further⟩
    · exact ⟨['"'], ⟨[], by simp, rfl⟩, rfl⟩
    · have shorter : more.length < (piece.map some ++ more).length := by
        have some := List.length_pos_iff.mpr isPiece.ne_nil
        rw [List.length_append, List.length_map]
        omega
      obtain ⟨text, ⟨pieces, all, same⟩, rfl⟩ := ih _ shorter others further rfl
      obtain rfl : text = pieces.flatten ++ ['"'] := (List.cons.inj same).2
      exact ⟨piece ++ (pieces.flatten ++ ['"']), ⟨piece :: pieces, List.forall_mem_cons.mpr ⟨isPiece, all⟩, by simp⟩,
        by simp⟩

theorem Quoted.passString {text : List Char} (quoted : Quoted ('"' :: text)) (rest : Input) :
    passString .plain (text.map some ++ rest) = some rest := by
  obtain ⟨pieces, all, same⟩ := quoted
  obtain rfl : text = pieces.flatten ++ ['"'] := (List.cons.inj same).2
  clear same
  induction pieces with
  | nil => rfl
  | cons piece pieces ih =>
    obtain ⟨isPiece, all⟩ := List.forall_mem_cons.mp all
    rw [List.flatten_cons, List.append_assoc, List.map_append, List.append_assoc, passString_piece isPiece, ih all]

theorem Quoted.front {text : List Char} (quoted : Quoted text) : ∃ rest, text = '"' :: rest := by
  obtain ⟨pieces, -, same⟩ := quoted
  exact ⟨_, same⟩

end Strings

end HelpDesk.Json
