import HelpDesk.Proofs.CodecLaws
import HelpDesk.Proofs.NumberTexts
import HelpDesk.Proofs.SkippedStrings

/-! A value that nobody asked for is passed over exactly if it is a value of the grammar, nested to any depth. The machine
keeps the open brackets on a stack; after a value it goes on in the innermost of them. -/

namespace HelpDesk.Json

section Steps
variable {mode : SkipMode} {stack : List Bracket} {bracket : Bracket} {c : Char} {rest : Input}

theorem skipFrom_number (state : NumberState) (done : List Char) (stack : List Bracket) (input : Input) :
    skipFrom (.number state) stack input = (numberFrom state done input).bind fun read => resume stack read.2 := by
  induction input generalizing state done with
  | nil =>
    rw [numberFrom]
    cases state <;> cases stack <;> rfl
  | cons item rest ih =>
    cases goes : item.bind state.step with
    | some next =>
      have step : SkipStep.of (.number state) stack item = .go (.number next) stack := by
        simp only [SkipStep.of, goes]
      obtain ⟨c, rfl, steps⟩ := Option.bind_eq_some_iff.mp goes
      rw [skipFrom_go step, ih next (c :: done)]
      simp [numberFrom, steps]
    | none =>
      have same : (item.bind fun c => (state.step c).map (·, c)) = none := by
        cases item with
        | none => rfl
        | some c => exact Option.map_eq_none_iff.mpr goes
      rw [numberFrom, same]
      cases complete : state.isComplete with
      | false =>
        have step : SkipStep.of (.number state) stack item = .fail := by
          simp only [SkipStep.of, goes, complete]
          rfl
        rw [skipFrom, step]
        rfl
      | true =>
        cases stack with
        | nil =>
          have step : SkipStep.of (.number state) [] item = .finishBefore := by
            simp only [SkipStep.of, goes, complete]
            rfl
          rw [skipFrom, step]
          rfl
        | cons bracket stack =>
          have step : SkipStep.of (.number state) (bracket :: stack) item = SkipStep.of .after (bracket :: stack) item := by
            simp only [SkipStep.of, goes, complete]
            cases item <;> rfl
          rw [skipFrom, step]
          rfl

theorem skipFrom_word {word : List Char} (some : word ≠ []) :
    skipFrom (.word word) stack (word.map Option.some ++ rest) = resume stack rest := by
  induction word with
  | nil => exact absurd rfl some
  | cons c word ih =>
    cases word with
    | nil =>
      have step : SkipStep.of (.word [c]) stack (Option.some c) = SkipStep.ended stack := if_pos rfl
      exact skipFrom_ended step
    | cons d word =>
      have step : SkipStep.of (.word (c :: d :: word)) stack (Option.some c) = .go (.word (d :: word)) stack := if_pos rfl
      exact (skipFrom_go step).trans (ih (List.cons_ne_nil _ _))

end Steps

/-- What may follow a value, after blanks. -/
theorem Follows.spaces {blanks : List Char} (spaces : Spaces blanks) {rest : Input} (follows : Follows rest) :
    Follows (blanks.map some ++ rest) := by
  cases blanks with
  | nil => exact follows
  | cons c blanks =>
    intro d first
    obtain rfl : c = d := by simpa using first
    exact .inl (spaces c List.mem_cons_self)

/-- The text is passed over as a value, and is not taken for the end of an array. -/
structure Skips (text : List Char) : Prop where
  begins : Begins text
  skip : ∀ stack rest, Follows rest → skipFrom .value stack (text.map some ++ rest) = resume stack rest

theorem skips_word {text : List Char} (one : text ∈ ["null".toList, "true".toList, "false".toList]) : Skips text := by
  simp only [List.mem_cons, List.not_mem_nil, or_false] at one
  rcases one with rfl | rfl | rfl
  · refine ⟨⟨'n', _, rfl, by decide, by decide⟩, fun stack rest _ => ?_⟩
    have start : SkipStep.of .value stack (some 'n') = .go (.word "ull".toList) stack := rfl
    exact (skipFrom_go start).trans (skipFrom_word (by decide))
  · refine ⟨⟨'t', _, rfl, by decide, by decide⟩, fun stack rest _ => ?_⟩
    have start : SkipStep.of .value stack (some 't') = .go (.word "rue".toList) stack := rfl
    exact (skipFrom_go start).trans (skipFrom_word (by decide))
  · refine ⟨⟨'f', _, rfl, by decide, by decide⟩, fun stack rest _ => ?_⟩
    have start : SkipStep.of .value stack (some 'f') = .go (.word "alse".toList) stack := rfl
    exact (skipFrom_go start).trans (skipFrom_word (by decide))

theorem skips_number {text : List Char} (number : text ∈ Number.texts) : Skips text := by
  cases text with
  | nil => exact absurd number Number.nil_mem_texts
  | cons c cs =>
    obtain ⟨state, start, may⟩ := Number.cons_mem_texts.mp number
    have other (d : Char) (none : NumberState.start? d = none) : c ≠ d := by
      rintro rfl
      cases none.symm.trans start
    have solid : isSpace c = false := by
      simp [isSpace, other ' ' rfl, other '\t' rfl, other '\n' rfl, other '\r' rfl]
    refine ⟨⟨c, cs, rfl, solid, other ']' rfl⟩, fun stack rest follows => ?_⟩
    have first : SkipStep.of .value stack (some c) = .go (.number state) stack := by
      simp [SkipStep.of, SkipStep.token, SkipStep.start, solid, start, other '"' rfl, other '[' rfl, other '\x7b' rfl,
        other 'n' rfl, other 't' rfl, other 'f' rfl]
    rw [List.map_cons, List.cons_append, skipFrom_go first, skipFrom_number state [c], numberFrom_of_ending may follows]
    rfl

theorem skips_quoted {text : List Char} (quoted : Quoted text) : Skips text := by
  obtain ⟨text, rfl⟩ := quoted.front
  refine ⟨⟨'"', text, rfl, by decide, by decide⟩, fun stack rest _ => ?_⟩
  have first : SkipStep.of .value stack (some '"') = .go (.text .plain) stack := rfl
  rw [List.map_cons, List.cons_append, skipFrom_go first, skipFrom_text, quoted.passString]
  rfl

/-- How the machine goes through a list of items or members: a bracket opens it, its first part may be read in a mode of its
own, commas separate the others, and another bracket closes it. -/
structure Delimited (bracket : Bracket) (first mode : SkipMode) (close : Char) : Prop where
  firstWaits : first.Waits
  waits : mode.Waits
  closing : close = ']' ∨ close = '\x7d'
  starts : ∀ c stack, SkipStep.token c first (bracket :: stack) =
    if c = close then SkipStep.ended stack else SkipStep.token c mode (bracket :: stack)
  separates : ∀ c stack, SkipStep.separator c (bracket :: stack) =
    if c = ',' then .go mode (bracket :: stack) else if c = close then SkipStep.ended stack else .fail

theorem delimited_array : Delimited .array .firstItem .value ']' :=
  ⟨fun _ _ => rfl, fun _ _ => rfl, .inl rfl, fun _ _ => rfl, fun _ _ => rfl⟩

theorem delimited_object : Delimited .object .firstName .name '\x7d' :=
  ⟨fun _ _ => rfl, fun _ _ => rfl, .inr rfl, fun _ _ => rfl, fun _ _ => rfl⟩

theorem waits_after : SkipMode.after.Waits :=
  fun _ _ => rfl

section Lists
variable {first mode : SkipMode} {stack : List Bracket} {bracket : Bracket} {close : Char}

theorem Delimited.solid (list : Delimited bracket first mode close) : isSpace close = false := by
  rcases list.closing with rfl | rfl <;> rfl

theorem Delimited.comma (list : Delimited bracket first mode close) (stack : List Bracket) :
    SkipStep.of .after (bracket :: stack) (some ',') = .go mode (bracket :: stack) :=
  (waits_after.token (by decide) _).trans ((list.separates _ _).trans (if_pos rfl))

theorem Delimited.closes (list : Delimited bracket first mode close) (stack : List Bracket) :
    SkipStep.of .after (bracket :: stack) (some close) = SkipStep.ended stack := by
  have other : close ≠ ',' := by
    rcases list.closing with rfl | rfl <;> decide
  exact (waits_after.token list.solid _).trans ((list.separates _ _).trans ((if_neg other).trans (if_pos rfl)))

/-- An empty list. -/
theorem Delimited.skip_empty (list : Delimited bracket first mode close) {blanks : List Char} (spaces : Spaces blanks)
    (rest : Input) : skipFrom first (bracket :: stack) ((blanks ++ [close]).map some ++ rest) = resume stack rest := by
  have closed : SkipStep.of first (bracket :: stack) (some close) = SkipStep.ended stack :=
    (list.firstWaits.token list.solid _).trans ((list.starts _ _).trans (if_pos rfl))
  rw [List.map_append, List.append_assoc, skipFrom_spaces list.firstWaits spaces]
  exact skipFrom_ended closed

theorem Delimited.follows (list : Delimited bracket first mode close) (texts : List (List Char)) (rest : Input) :
    Follows ((texts.flatMap (',' :: ·)).map some ++ some close :: rest) := by
  intro c front
  cases texts with
  | nil =>
    obtain rfl : close = c := by simpa using front
    exact .inr (.inr list.closing)
  | cons text texts =>
    obtain rfl : ',' = c := by simpa using front
    exact .inr (.inl rfl)

/-- What comes after the first part: each of the others with its comma, and the closing bracket. -/
theorem Delimited.skip_others (list : Delimited bracket first mode close) {texts : List (List Char)}
    (skip : ∀ text ∈ texts, ∀ rest, Follows rest →
      skipFrom mode (bracket :: stack) (text.map some ++ rest) = skipFrom .after (bracket :: stack) rest) (rest : Input) :
    skipFrom .after (bracket :: stack) ((texts.flatMap (',' :: ·)).map some ++ some close :: rest) = resume stack rest := by
  induction texts with
  | nil => exact skipFrom_ended (list.closes stack)
  | cons text texts ih =>
    obtain ⟨here, others⟩ := List.forall_mem_cons.mp skip
    rw [List.flatMap_cons, List.cons_append, List.map_cons, List.cons_append, skipFrom_go (list.comma stack),
      List.map_append, List.append_assoc, here _ (list.follows texts rest), ih others]

/-- The first part is read as the others are, unless it begins like the end of the list. -/
theorem Delimited.skip_first (list : Delimited bracket first mode close) {item : Padded} {c : Char} {cs : List Char}
    (core : item.core = c :: cs) (solid : isSpace c = false) (other : c ≠ close) (rest : Input) :
    skipFrom first (bracket :: stack) (item.text.map some ++ rest) =
      skipFrom mode (bracket :: stack) (item.text.map some ++ rest) := by
  obtain ⟨before, _, after, spaces⟩ := item
  obtain rfl : _ = c :: cs := core
  obtain ⟨early, -⟩ := List.forall_mem_append.mp spaces
  have step : SkipStep.of first (bracket :: stack) (some c) = SkipStep.of mode (bracket :: stack) (some c) := by
    rw [list.firstWaits.token solid, list.waits.token solid, list.starts, if_neg other]
  rw [Padded.text, List.map_append, List.append_assoc, List.map_append, List.append_assoc,
    skipFrom_spaces list.firstWaits early, skipFrom_spaces list.waits early, List.map_cons, List.cons_append,
    skipFrom_congr step]

theorem Delimited.skip_list (list : Delimited bracket first mode close) {text : List Char} {texts : List (List Char)}
    (skip : ∀ t ∈ text :: texts, ∀ rest, Follows rest →
      skipFrom mode (bracket :: stack) (t.map some ++ rest) = skipFrom .after (bracket :: stack) rest)
    (begins : ∀ rest, skipFrom first (bracket :: stack) (text.map some ++ rest) =
      skipFrom mode (bracket :: stack) (text.map some ++ rest)) (rest : Input) :
    skipFrom first (bracket :: stack) ((Codec.commas (text :: texts) ++ [close]).map some ++ rest) = resume stack rest := by
  obtain ⟨here, others⟩ := List.forall_mem_cons.mp skip
  rw [Codec.commas_cons, List.append_assoc, List.map_append, List.append_assoc, begins, List.map_append, List.append_assoc]
  exact (here _ (list.follows texts rest)).trans (list.skip_others others rest)

end Lists

section Values
variable {stack : List Bracket} {bracket : Bracket}

theorem Skips.padded {item : Padded} (skips : Skips item.core) (rest : Input) (follows : Follows rest) :
    skipFrom .value (bracket :: stack) (item.text.map some ++ rest) = skipFrom .after (bracket :: stack) rest := by
  obtain ⟨before, core, after, spaces⟩ := item
  obtain ⟨early, late⟩ := List.forall_mem_append.mp spaces
  rw [Padded.text, List.map_append, List.append_assoc, List.map_append, List.append_assoc,
    skipFrom_spaces delimited_array.waits early, skips.skip _ _ (follows.spaces late)]
  exact skipFrom_spaces waits_after late

theorem skip_member {m : MemberText} (named : Quoted m.name.core) (skips : Skips m.value.core) (rest : Input)
    (follows : Follows rest) : skipFrom .name (.object :: stack) (m.text.map some ++ rest) =
      skipFrom .after (.object :: stack) rest := by
  obtain ⟨⟨before, name, after, spaces⟩, value⟩ := m
  obtain ⟨text, rfl⟩ := named.front
  obtain ⟨early, late⟩ := List.forall_mem_append.mp spaces
  have quote : SkipStep.of .name (.object :: stack) (some '"') = .go (.nameText .plain) (.object :: stack) := rfl
  have colon : SkipStep.of .colon (.object :: stack) (some ':') = .go .value (.object :: stack) := rfl
  have waits : SkipMode.colon.Waits := fun _ _ => rfl
  have parts : MemberText.text ⟨⟨before, '"' :: text, after, spaces⟩, value⟩ =
      before ++ '"' :: (text ++ (after ++ ':' :: value.text)) := by
    simp [MemberText.text, Padded.text]
  rw [parts, List.map_append, List.append_assoc, skipFrom_spaces delimited_object.waits early, List.map_cons,
    List.cons_append, skipFrom_go quote, skipFrom_nameText, List.map_append, List.append_assoc, named.passString,
    Option.elim_some, List.map_append, List.append_assoc, skipFrom_spaces waits late, List.map_cons, List.cons_append,
    skipFrom_go colon, skips.padded rest follows]

/-- Once the bracket is open, what follows up to the other one is passed over. -/
theorem skips_of_open {opening : Char} {first : SkipMode} {text : List Char} (front : isSpace opening = false ∧ opening ≠ ']')
    (opens : ∀ stack, SkipStep.of .value stack (some opening) = .go first (bracket :: stack))
    (skip : ∀ stack rest, skipFrom first (bracket :: stack) (text.map some ++ rest) = resume stack rest) :
    Skips (opening :: text) := by
  refine ⟨⟨opening, text, rfl, front⟩, fun stack rest _ => ?_⟩
  rw [List.map_cons, List.cons_append, skipFrom_go (opens stack), skip]

theorem skips_array {first : Padded} {others : List Padded} (skips : ∀ item ∈ first :: others, Skips item.core) :
    Skips ('[' :: Codec.commas ((first :: others).map Padded.text) ++ [']']) := by
  refine skips_of_open (by decide) (fun _ => rfl) fun stack => delimited_array.skip_list ?_ ?_
  · exact List.forall_mem_map.mpr fun item there => (skips item there).padded
  · obtain ⟨c, cs, core, solid, other⟩ := (skips first List.mem_cons_self).begins
    exact delimited_array.skip_first core solid other

theorem skips_object {first : MemberText} {others : List MemberText} (named : ∀ m ∈ first :: others, Quoted m.name.core)
    (skips : ∀ m ∈ first :: others, Skips m.value.core) :
    Skips ('\x7b' :: Codec.commas ((first :: others).map MemberText.text) ++ ['\x7d']) := by
  refine skips_of_open (by decide) (fun _ => rfl) fun stack => delimited_object.skip_list ?_ fun rest => ?_
  · exact List.forall_mem_map.mpr fun m there => skip_member (named m there) (skips m there)
  · obtain ⟨text, core⟩ := (named first List.mem_cons_self).front
    rw [MemberText.text, List.map_append, List.append_assoc]
    exact delimited_object.skip_first core (by decide) (by decide) _

end Values

/-- Every value of the grammar is passed over, however deep it is nested. -/
theorem Value.skips {text : List Char} (value : Value text) : Skips text := by
  induction value with
  | word one => exact skips_word one
  | number number => exact skips_number number
  | quoted quoted => exact skips_quoted quoted
  | emptyArray spaces => exact skips_of_open (by decide) (fun _ => rfl) fun _ => delimited_array.skip_empty spaces
  | array values skips => exact skips_array skips
  | emptyObject spaces => exact skips_of_open (by decide) (fun _ => rfl) fun _ => delimited_object.skip_empty spaces
  | object names values skips => exact skips_object names skips

end HelpDesk.Json
