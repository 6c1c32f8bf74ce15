import HelpDesk.Proofs.SkippedValues

/-! The converse: an input from which a value is passed over begins with a value of the grammar, after blanks. What is known of
one part of a list carries over to the list, and by induction on the length of the input to all that is nested. -/

namespace HelpDesk.Json

theorem exists_spaces (input : Input) : ∃ blanks rest, Spaces blanks ∧ input = blanks.map some ++ rest ∧
    ∀ c, rest.head? = some (some c) → isSpace c = false := by
  induction input with
  | nil => exact ⟨[], [], by simp [Spaces], rfl, by simp⟩
  | cons item input ih =>
    by_cases space : ∃ c, item = some c ∧ isSpace c = true
    · obtain ⟨c, rfl, space⟩ := space
      obtain ⟨blanks, rest, spaces, rfl, solid⟩ := ih
      exact ⟨c :: blanks, rest, List.forall_mem_cons.mpr ⟨space, spaces⟩, rfl, solid⟩
    · refine ⟨[], item :: input, by simp [Spaces], rfl, fun c first => ?_⟩
      exact Bool.eq_false_iff.mpr fun blank => space ⟨c, Option.some.inj first, blank⟩

/-- The text of an item, with blanks around it. -/
def IsItem (text : List Char) : Prop :=
  ∃ item : Padded, item.text = text ∧ Value item.core

def IsMember (text : List Char) : Prop :=
  ∃ m : MemberText, m.text = text ∧ Quoted m.name.core ∧ Value m.value.core

/-- Blanks may be added around a text of the kind. -/
structure Stretches (kind : List Char → Prop) : Prop where
  lead : ∀ blanks text, Spaces blanks → kind text → kind (blanks ++ text)
  trail : ∀ text blanks, kind text → Spaces blanks → kind (text ++ blanks)

theorem Padded.exists_lead (p : Padded) {blanks : List Char} (spaces : Spaces blanks) :
    ∃ q : Padded, q.text = blanks ++ p.text ∧ q.core = p.core := by
  refine ⟨⟨blanks ++ p.before, p.core, p.after, ?_⟩, by simp [Padded.text], rfl⟩
  rw [List.append_assoc]
  exact List.forall_mem_append.mpr ⟨spaces, p.spaces⟩

theorem Padded.exists_trail (p : Padded) {blanks : List Char} (spaces : Spaces blanks) :
    ∃ q : Padded, q.text = p.text ++ blanks ∧ q.core = p.core := by
  refine ⟨⟨p.before, p.core, p.after ++ blanks, ?_⟩, by simp [Padded.text], rfl⟩
  rw [← List.append_assoc]
  exact List.forall_mem_append.mpr ⟨p.spaces, spaces⟩

theorem stretches_item : Stretches IsItem where
  lead blanks text spaces := by
    rintro ⟨item, rfl, value⟩
    obtain ⟨wider, text, core⟩ := item.exists_lead spaces
    exact ⟨wider, text, core ▸ value⟩
  trail text blanks is spaces := by
    obtain ⟨item, rfl, value⟩ := is
    obtain ⟨wider, text, core⟩ := item.exists_trail spaces
    exact ⟨wider, text, core ▸ value⟩

theorem stretches_member : Stretches IsMember where
  lead blanks text spaces := by
    rintro ⟨m, rfl, named, value⟩
    obtain ⟨wider, text, core⟩ := m.name.exists_lead spaces
    exact ⟨⟨wider, m.value⟩, by simp [MemberText.text, text], core ▸ named, value⟩
  trail text blanks is spaces := by
    obtain ⟨m, rfl, named, value⟩ := is
    obtain ⟨wider, text, core⟩ := m.value.exists_trail spaces
    exact ⟨⟨m.name, wider⟩, by simp [MemberText.text, text], named, core ▸ value⟩

theorem exists_of_texts {α : Type} {text : α → List Char} {valid : α → Prop} {texts : List (List Char)}
    (each : ∀ t ∈ texts, ∃ x, text x = t ∧ valid x) : ∃ xs : List α, xs.map text = texts ∧ ∀ x ∈ xs, valid x := by
  induction texts with
  | nil => exact ⟨[], rfl, by simp⟩
  | cons t texts ih =>
    obtain ⟨⟨x, rfl, here⟩, others⟩ := List.forall_mem_cons.mp each
    obtain ⟨xs, rfl, all⟩ := ih others
    exact ⟨x :: xs, rfl, List.forall_mem_cons.mpr ⟨here, all⟩⟩

section Converse
variable {first mode : SkipMode} {stack : List Bracket} {bracket : Bracket} {close : Char} {input rest : Input}

theorem clean_of_append {front more : Input} (clean : none ∉ front ++ more) : none ∉ more :=
  fun there => clean (List.mem_append_right _ there)

/-- In a mode that waits for a token there is one, after blanks. -/
theorem token_of_skip (waits : mode.Waits) (needs : skipFrom mode stack [] = .error .malformed) (clean : none ∉ input)
    (skip : skipFrom mode stack input = .ok rest) : ∃ blanks c more, Spaces blanks ∧ isSpace c = false ∧
      input = blanks.map some ++ some c :: more ∧ none ∉ more ∧ skipFrom mode stack (some c :: more) = .ok rest := by
  obtain ⟨blanks, others, spaces, rfl, solid⟩ := exists_spaces input
  rw [skipFrom_spaces waits spaces] at skip
  cases others with
  | nil => cases needs.symm.trans skip
  | cons item more =>
    obtain ⟨known, outside⟩ := not_or.mp (mt List.mem_cons.mpr (clean_of_append clean))
    obtain ⟨c, rfl⟩ := Option.ne_none_iff_exists'.mp (Ne.symm known)
    exact ⟨blanks, c, more, spaces, solid c rfl, rfl, outside, skip⟩

/-- The input begins with a text of the kind, and the reading goes on after it. -/
def Ahead (kind : List Char → Prop) (stack : List Bracket) (input rest : Input) : Prop :=
  ∃ text more, kind text ∧ input = text.map some ++ more ∧ resume stack more = .ok rest

theorem Ahead.imp {kind kind' : List Char → Prop} (ahead : Ahead kind stack input rest)
    (weaker : ∀ text, kind text → kind' text) : Ahead kind' stack input rest := by
  obtain ⟨text, more, is, parts⟩ := ahead
  exact ⟨text, more, weaker text is, parts⟩

theorem word_of_skip {word : List Char} (some : word ≠ []) (skip : skipFrom (.word word) stack input = .ok rest) :
    Ahead (· = word) stack input rest := by
  induction word generalizing input with
  | nil => exact absurd rfl some
  | cons c word ih =>
    cases input with
    | nil => cases skip
    | cons item input =>
      by_cases same : item = Option.some c
      · subst same
        cases word with
        | nil =>
          have step : SkipStep.of (.word [c]) stack (Option.some c) = SkipStep.ended stack := if_pos rfl
          rw [skipFrom_ended step] at skip
          exact ⟨[c], input, rfl, rfl, skip⟩
        | cons d word =>
          have step : SkipStep.of (.word (c :: d :: word)) stack (Option.some c) = .go (.word (d :: word)) stack := if_pos rfl
          rw [skipFrom_go step] at skip
          obtain ⟨_, left, rfl, rfl, resumes⟩ := ih (List.cons_ne_nil _ _) skip
          exact ⟨_, left, rfl, rfl, resumes⟩
      · have step : SkipStep.of (.word (c :: word)) stack item = .fail := by
          cases word <;> exact if_neg same
        rw [skipFrom, step] at skip
        cases skip

theorem quoted_of_skip (clean : none ∉ input) (skip : skipFrom (.text .plain) stack input = .ok rest) :
    Ahead (fun text => Quoted ('"' :: text)) stack input rest := by
  rw [skipFrom_text] at skip
  cases pass : passString .plain input with
  | none =>
    rw [pass] at skip
    cases skip
  | some left =>
    rw [pass] at skip
    obtain ⟨text, quoted, rfl⟩ := quoted_of_passString clean pass
    exact ⟨text, left, quoted, rfl, skip⟩

theorem number_of_skip {c : Char} {state : NumberState} (start : NumberState.start? c = some state)
    (skip : skipFrom (.number state) stack input = .ok rest) :
    Ahead (fun text => c :: text ∈ Number.texts) stack input rest := by
  rw [skipFrom_number state []] at skip
  cases read : numberFrom state [] input with
  | error fault =>
    rw [read] at skip
    cases skip
  | ok result =>
    rw [read] at skip
    obtain ⟨text, may, parts⟩ := ending_of_numberFrom read
    exact ⟨text, result.2, Number.cons_mem_texts.mpr ⟨state, start, may⟩, parts, skip⟩

section Lists
variable {kind : List Char → Prop} {n : Nat} (list : Delimited bracket first mode close) (stretches : Stretches kind)
  (each : ∀ input, input.length < n → none ∉ input → skipFrom mode (bracket :: stack) input = .ok rest →
    Ahead kind (bracket :: stack) input rest)
include list stretches each

/-- What comes after the first item or member, if each of the others is known. -/
theorem others_of_skip (short : input.length ≤ n) (clean : none ∉ input)
    (skip : skipFrom .after (bracket :: stack) input = .ok rest) :
    ∃ blanks, ∃ texts : List (List Char), ∃ more, Spaces blanks ∧ (∀ text ∈ texts, kind text) ∧
      input = (blanks ++ (texts.flatMap (',' :: ·) ++ [close])).map some ++ more ∧ resume stack more = .ok rest := by
  induction size : input.length using Nat.strong_induction_on generalizing input with
  | h m ih =>
    subst size
    obtain ⟨blanks, c, more, spaces, solid, rfl, outside, skip⟩ := token_of_skip waits_after rfl clean skip
    have step : SkipStep.of .after (bracket :: stack) (some c) = _ := (waits_after.token solid _).trans (list.separates c _)
    split at step
    next comma =>
      rw [skipFrom_go step] at skip
      have fewer : more.length < (blanks.map some ++ some c :: more).length := by
        rw [List.length_append, List.length_cons]
        omega
      obtain ⟨text, left, is, rfl, further⟩ := each more (by omega) outside skip
      have fewer' : left.length ≤ (text.map some ++ left).length := by simp
      obtain ⟨after, texts, left, late, all, rfl, resumes⟩ := ih left.length (by omega) (by omega) (clean_of_append outside)
        further rfl
      have here := stretches.trail text after is late
      refine ⟨blanks, (text ++ after) :: texts, left, spaces, List.forall_mem_cons.mpr ⟨here, all⟩, ?_, resumes⟩
      subst comma
      simp
    next =>
      split at step
      next closes =>
        rw [skipFrom_ended step] at skip
        exact ⟨blanks, [], more, spaces, by simp, by simp [closes], skip⟩
      next =>
        rw [skipFrom, step] at skip
        cases skip

/-- A list is empty, or has a first part and others. -/
theorem list_of_skip (needs : skipFrom first (bracket :: stack) [] = .error .malformed) (short : input.length < n)
    (clean : none ∉ input) (skip : skipFrom first (bracket :: stack) input = .ok rest) :
    (∃ blanks more, Spaces blanks ∧ input = (blanks ++ [close]).map some ++ more ∧ resume stack more = .ok rest) ∨
    ∃ text, ∃ texts : List (List Char), ∃ more, (∀ t ∈ text :: texts, kind t) ∧
      input = (Codec.commas (text :: texts) ++ [close]).map some ++ more ∧ resume stack more = .ok rest := by
  obtain ⟨blanks, c, more, spaces, solid, rfl, outside, further⟩ := token_of_skip list.firstWaits needs clean skip
  by_cases closes : c = close
  · have step : SkipStep.of first (bracket :: stack) (some c) = SkipStep.ended stack :=
      (list.firstWaits.token solid _).trans ((list.starts _ _).trans (if_pos closes))
    rw [skipFrom_ended step] at further
    exact .inl ⟨blanks, more, spaces, by simp [closes], further⟩
  · have same : SkipStep.of first (bracket :: stack) (some c) = SkipStep.of mode (bracket :: stack) (some c) := by
      rw [list.firstWaits.token solid, list.waits.token solid, list.starts, if_neg closes]
    rw [skipFrom_congr same] at further
    have whole : none ∉ some c :: more := clean_of_append clean
    have fewer : (some c :: more).length ≤ (blanks.map some ++ some c :: more).length := by simp
    obtain ⟨text, left, is, front, further⟩ := each _ (by omega) whole further
    have fewer' : left.length ≤ (some c :: more).length := by simp [front]
    rw [front] at whole
    obtain ⟨after, texts, left, late, all, rfl, resumes⟩ := others_of_skip list stretches each (by omega)
      (clean_of_append whole) further
    have here := stretches.lead blanks _ spaces (stretches.trail text after is late)
    refine .inr ⟨blanks ++ (text ++ after), texts, left, List.forall_mem_cons.mpr ⟨here, all⟩, ?_, resumes⟩
    rw [front, Codec.commas_cons]
    simp

end Lists

section Nested
variable {n : Nat} (ih : ∀ input stack, input.length < n → none ∉ input → skipFrom .value stack input = .ok rest →
  Ahead IsItem stack input rest)
include ih

/-- A member, once the first quote of its name is read. -/
theorem member_of_nameText (short : input.length < n) (clean : none ∉ input)
    (skip : skipFrom (.nameText .plain) (.object :: stack) input = .ok rest) :
    ∃ text more, IsMember ('"' :: text) ∧ input = text.map some ++ more ∧
      skipFrom .after (.object :: stack) more = .ok rest := by
  rw [skipFrom_nameText] at skip
  cases pass : passString .plain input with
  | none =>
    rw [pass] at skip
    cases skip
  | some left =>
    rw [pass] at skip
    obtain ⟨name, quoted, rfl⟩ := quoted_of_passString clean pass
    have waits : SkipMode.colon.Waits := fun _ _ => rfl
    obtain ⟨gap, c, more, spaces, solid, rfl, outside, further⟩ := token_of_skip waits rfl (clean_of_append clean) skip
    by_cases colon : c = ':'
    · have step : SkipStep.of .colon (.object :: stack) (some c) = .go .value (.object :: stack) :=
        (waits.token solid _).trans (if_pos colon)
      rw [skipFrom_go step] at further
      have fewer : more.length < (name.map some ++ (gap.map some ++ some c :: more)).length := by
        simp only [List.length_append, List.length_cons]
        omega
      obtain ⟨_, left, ⟨item, rfl, value⟩, rfl, resumes⟩ := ih _ _ (by omega) outside further
      subst colon
      refine ⟨name ++ gap ++ ':' :: item.text, left, ?_, by simp, resumes⟩
      exact ⟨⟨⟨[], '"' :: name, gap, spaces⟩, item⟩, by simp [MemberText.text, Padded.text], quoted, value⟩
    · have step : SkipStep.of .colon (.object :: stack) (some c) = .fail := (waits.token solid _).trans (if_neg colon)
      rw [skipFrom, step] at further
      cases further

theorem member_of_skip (input : Input) (short : input.length < n) (clean : none ∉ input)
    (skip : skipFrom .name (.object :: stack) input = .ok rest) : Ahead IsMember (.object :: stack) input rest := by
  have waits := delimited_object.waits
  obtain ⟨blanks, c, more, spaces, solid, rfl, outside, further⟩ := token_of_skip waits rfl clean skip
  by_cases quote : c = '"'
  · have step : SkipStep.of .name (.object :: stack) (some c) = .go (.nameText .plain) (.object :: stack) :=
      (waits.token solid _).trans (if_pos quote)
    rw [skipFrom_go step] at further
    have fewer : more.length < (blanks.map some ++ some c :: more).length := by
      rw [List.length_append, List.length_cons]
      omega
    obtain ⟨text, left, is, rfl, resumes⟩ := member_of_nameText ih (by omega) outside further
    subst quote
    exact ⟨blanks ++ '"' :: text, left, stretches_member.lead _ _ spaces is, by simp, resumes⟩
  · have step : SkipStep.of .name (.object :: stack) (some c) = .fail := (waits.token solid _).trans (if_neg quote)
    rw [skipFrom, step] at further
    cases further

theorem array_of_skip (short : input.length < n) (clean : none ∉ input)
    (skip : skipFrom .firstItem (.array :: stack) input = .ok rest) :
    Ahead (fun text => Value ('[' :: text)) stack input rest := by
  have each input := ih input (.array :: stack)
  rcases list_of_skip delimited_array stretches_item each rfl short clean skip with
    ⟨blanks, more, spaces, rfl, resumes⟩ | ⟨text, texts, more, all, rfl, resumes⟩
  · exact ⟨_, more, .emptyArray spaces, rfl, resumes⟩
  · obtain ⟨items, same, values⟩ := exists_of_texts all
    obtain ⟨first, others, rfl, rfl, rfl⟩ := List.map_eq_cons_iff.mp same
    exact ⟨_, more, .array values, rfl, resumes⟩

theorem object_of_skip (short : input.length < n) (clean : none ∉ input)
    (skip : skipFrom .firstName (.object :: stack) input = .ok rest) :
    Ahead (fun text => Value ('\x7b' :: text)) stack input rest := by
  rcases list_of_skip delimited_object stretches_member (member_of_skip ih) rfl short clean skip with
    ⟨blanks, more, spaces, rfl, resumes⟩ | ⟨text, texts, more, all, rfl, resumes⟩
  · exact ⟨_, more, .emptyObject spaces, rfl, resumes⟩
  · obtain ⟨members, same, valid⟩ := exists_of_texts all
    obtain ⟨first, others, rfl, rfl, rfl⟩ := List.map_eq_cons_iff.mp same
    exact ⟨_, more, .object (fun m there => (valid m there).1) (fun m there => (valid m there).2), rfl, resumes⟩

/-- Which kind of value it is shows its first character. -/
theorem value_of_start {c : Char} (short : input.length < n) (clean : none ∉ input)
    (step : SkipStep.of .value stack (some c) = SkipStep.start c stack)
    (skip : skipFrom .value stack (some c :: input) = .ok rest) :
    Ahead (fun text => Value (c :: text)) stack input rest := by
  have words {word : List Char} (some : word ≠ []) (one : c :: word ∈ ["null".toList, "true".toList, "false".toList])
      (skip : skipFrom (.word word) stack input = .ok rest) : Ahead (fun text => Value (c :: text)) stack input rest := by
    refine (word_of_skip some skip).imp ?_
    rintro _ rfl
    exact .word one
  unfold SkipStep.start at step
  split_ifs at step with quote bracket brace null yes no
  · rw [skipFrom_go step] at skip
    exact (quoted_of_skip clean skip).imp fun _ quoted => .quoted (quote ▸ quoted)
  · rw [skipFrom_go step] at skip
    subst bracket
    exact array_of_skip ih short clean skip
  · rw [skipFrom_go step] at skip
    subst brace
    exact object_of_skip ih short clean skip
  · exact words (by decide) (by simp [null]) (skipFrom_go step ▸ skip)
  · exact words (by decide) (by simp [yes]) (skipFrom_go step ▸ skip)
  · exact words (by decide) (by simp [no]) (skipFrom_go step ▸ skip)
  · cases start : NumberState.start? c with
    | none =>
      rw [start] at step
      rw [skipFrom, step] at skip
      cases skip
    | some state =>
      rw [start] at step
      rw [skipFrom_go step] at skip
      exact (number_of_skip start skip).imp fun _ number => .number number

end Nested

/-- What is passed over is a value of the grammar, after blanks. -/
theorem value_of_skip (clean : none ∉ input) (skip : skipFrom .value stack input = .ok rest) :
    Ahead IsItem stack input rest := by
  induction size : input.length using Nat.strong_induction_on generalizing input stack with
  | h n ih =>
    subst size
    have nested (other : Input) (below : List Bracket) (short : other.length < input.length) (clean : none ∉ other)
        (skip : skipFrom .value below other = .ok rest) : Ahead IsItem below other rest := ih _ short clean skip rfl
    obtain ⟨blanks, c, more, spaces, solid, rfl, outside, further⟩ := token_of_skip delimited_array.waits rfl clean skip
    have fewer : more.length < (blanks.map some ++ some c :: more).length := by
      rw [List.length_append, List.length_cons]
      omega
    obtain ⟨text, left, value, rfl, resumes⟩ := value_of_start nested fewer outside (delimited_array.waits.token solid _) further
    exact ⟨blanks ++ c :: text, left, ⟨⟨blanks, c :: text, [], by simpa using spaces⟩, by simp [Padded.text], value⟩,
      by simp, resumes⟩

end Converse

end HelpDesk.Json
