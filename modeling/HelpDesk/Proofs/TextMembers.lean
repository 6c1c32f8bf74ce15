import HelpDesk.Proofs.SkippedInputs

/-! Reading the members of a record of one text. A member of the record's name brings the text, which must come once; the
others are passed over. So what the reader takes for the members is a list of members of the grammar, in which the text is
filled in, and all such lists are read. -/

namespace HelpDesk.Json

section Tokens
variable {c : Char} {s : String} {input rest : Input}

theorem skipSpace_spaces {blanks : List Char} (spaces : Spaces blanks) (rest : Input) :
    skipSpace (blanks.map some ++ rest) = skipSpace rest := by
  induction blanks with
  | nil => rfl
  | cons c blanks ih =>
    obtain ⟨space, spaces⟩ := List.forall_mem_cons.mp spaces
    simp only [List.map_cons, List.cons_append, skipSpace, space, if_true]
    exact ih spaces

theorem skipSpace_token {blanks : List Char} (spaces : Spaces blanks) (solid : isSpace c = false) (rest : Input) :
    skipSpace (blanks.map some ++ some c :: rest) = some c :: rest :=
  (skipSpace_spaces spaces _).trans (skipSpace_cons solid rest)

theorem skipSpace_parts (input : Input) : ∃ blanks, Spaces blanks ∧ input = blanks.map some ++ skipSpace input := by
  obtain ⟨blanks, others, spaces, rfl, solid⟩ := exists_spaces input
  refine ⟨blanks, spaces, ?_⟩
  rw [skipSpace_spaces spaces]
  cases others with
  | nil => rfl
  | cons item others =>
    cases item with
    | none => rfl
    | some c => rw [skipSpace_cons (solid c rfl)]

theorem skipSpace_eq_cons {item : Option Char} (front : skipSpace input = item :: rest) :
    ∃ blanks, Spaces blanks ∧ input = blanks.map some ++ item :: rest :=
  front ▸ skipSpace_parts input

theorem mark_eq_ok_iff (solid : isSpace c = false) :
    mark c input = .ok rest ↔ ∃ blanks, Spaces blanks ∧ input = blanks.map some ++ some c :: rest := by
  constructor
  · intro read
    unfold mark at read
    cases front : skipSpace input with
    | nil =>
      rw [front] at read
      cases read
    | cons item others =>
      rw [front, word] at read
      split at read
      next same =>
        obtain rfl := Except.ok.inj read
        exact skipSpace_eq_cons (same ▸ front)
      next => cases read
  · rintro ⟨blanks, spaces, rfl⟩
    rw [mark, skipSpace_token spaces solid, word, if_pos rfl, word]

/-- A text is read from a literal of it, after blanks. -/
theorem readText_eq_ok_iff : readText input = .ok (s, rest) ↔
    ∃ blanks text, Spaces blanks ∧ Literal s text ∧ input = (blanks ++ text).map some ++ rest := by
  constructor
  · intro read
    unfold readText at read
    split at read
    next others front =>
      obtain ⟨blanks, spaces, rfl⟩ := skipSpace_eq_cons front
      obtain ⟨text, literal, rfl⟩ := readQuoted_eq_ok_iff.mp read
      exact ⟨blanks, '"' :: text, spaces, literal, by simp⟩
    next => cases read
  · rintro ⟨blanks, text, spaces, literal, rfl⟩
    obtain ⟨text, rfl⟩ := literal.front
    have quote : isSpace '"' = false := by decide
    rw [List.map_append, List.append_assoc, readText, List.map_cons, List.cons_append, skipSpace_token spaces quote]
    exact readQuoted_eq_ok_iff.mpr ⟨text, literal, rfl⟩

theorem skipValue_value {blanks text : List Char} (spaces : Spaces blanks) (value : Value text) (follows : Follows rest) :
    skipValue ((blanks ++ text).map some ++ rest) = .ok rest := by
  rw [skipValue, List.map_append, List.append_assoc, skipFrom_spaces delimited_array.waits spaces,
    value.skips.skip _ _ follows]
  rfl

end Tokens

/-- What a member makes of the text that was read before, if any: it may be read once. -/
inductive Fills (field : String) : Option String → MemberText → Option String → Prop
  | other {slot : Option String} {m : MemberText} (other : m.IsOther field) : Fills field slot m slot
  | holds {s : String} {m : MemberText} (holds : m.Holds field s) : Fills field none m (some s)

/-- Blanks around the name and the value make no difference. -/
theorem Fills.of_cores {field : String} {slot next : Option String} {m n : MemberText} (fills : Fills field slot m next)
    (name : n.name.core = m.name.core) (value : n.value.core = m.value.core) : Fills field slot n next := by
  cases fills with
  | other other => exact .other (by rwa [MemberText.IsOther, name, value])
  | holds holds => exact .holds (by rwa [MemberText.Holds, name, value])

theorem Fills.front {field : String} {slot next : Option String} {m : MemberText} (fills : Fills field slot m next)
    (rest : Input) : ∃ name, skipSpace (m.text.map some ++ rest) = some '"' :: name := by
  obtain ⟨key, literal⟩ : ∃ key, Literal key m.name.core := by
    cases fills with
    | other other => exact other.1.imp fun _ named => named.1
    | holds holds => exact ⟨field, holds.1⟩
  obtain ⟨name, core⟩ := literal.front
  have early : Spaces m.name.before := (List.forall_mem_append.mp m.name.spaces).1
  have text : m.text.map some ++ rest = m.name.before.map some ++ some '"' ::
      (name.map some ++ (m.name.after.map some ++ some ':' :: (m.value.text.map some ++ rest))) := by
    simp [MemberText.text, Padded.text, core]
  rw [text]
  exact ⟨_, skipSpace_token early (by decide) _⟩

/-- What a list of members makes of it, one after the other. -/
inductive FillsAll (field : String) : Option String → List MemberText → Option String → Prop
  | nil {slot : Option String} : FillsAll field slot [] slot
  | cons {slot next last : Option String} {m : MemberText} {members : List MemberText} (fills : Fills field slot m next)
      (others : FillsAll field next members last) : FillsAll field slot (m :: members) last

/-- What comes after a member: the others, each with its comma, and the closing bracket. -/
def remaining (members : List MemberText) : List Char :=
  (members.map MemberText.text).flatMap (',' :: ·) ++ ['\x7d']

theorem length_after_le (m : MemberText) : m.value.after.length ≤ m.text.length := by
  simp only [MemberText.text, Padded.text, List.length_append, List.length_cons]
  omega

theorem remaining_cons (m : MemberText) (members : List MemberText) :
    remaining (m :: members) = ',' :: (m.text ++ remaining members) := by
  simp [remaining]

theorem follows_remaining (members : List MemberText) (rest : Input) : Follows ((remaining members).map some ++ rest) := by
  rw [remaining, List.map_append, List.append_assoc]
  exact delimited_object.follows _ rest

/-- The field of a record of one text, which has to be there. -/
abbrev textField (field : String) : Fields (String × Unit) :=
  .cons field Codec.text .never .nil

namespace textField

/-- The text that was read, if it was. -/
def slots (field : String) (slot : Option String) : (textField field).Slots :=
  (slot, ())

variable {field key : String} {slot next : Option String} {input rest : Input}

theorem member_field (field : String) (input : Input) : (textField field).member field (slots field none) input =
    (mark ':' input).bind fun value => (readText value).map fun read => (slots field (some read.1), read.2) := by
  have filled : (textField field).fill? field (slots field none) input =
      some ((mark ':' input).bind fun value => (readText value).map fun read => (slots field (some read.1), read.2)) := by
    refine (if_pos rfl).trans (congrArg some ?_)
    cases mark ':' input with
    | error fault => rfl
    | ok value =>
      simp only [Codec.text, Codec.spelled, Except.bind]
      cases readText value <;> rfl
  rw [Fields.member, filled]

theorem member_taken (field : String) (s : String) (input : Input) :
    (textField field).member field (slots field (some s)) input = .error .mismatch := by
  have filled : (textField field).fill? field (slots field (some s)) input = some (.error .mismatch) := if_pos rfl
  rw [Fields.member, filled]

theorem member_other (other : key ≠ field) (slot : Option String) (input : Input) :
    (textField field).member key (slots field slot) input =
      (mark ':' input).bind fun value => (skipValue value).map fun rest => (slots field slot, rest) := by
  have unknown : (textField field).fill? key (slots field slot) input = none := if_neg other.symm
  rw [Fields.member, unknown]
  cases mark ':' input <;> rfl

/-- Reads a member with its name. -/
def memberAt (field : String) (slot : Option String) (input : Input) : Read (textField field).Slots :=
  match skipSpace input with
  | some '"' :: rest => (readQuoted rest).bind fun read => (textField field).member read.1 (slots field slot) read.2
  | _ => .error .malformed

theorem memberAt_of_fills {m : MemberText} (fills : Fills field slot m next) (follows : Follows rest) :
    memberAt field slot (m.text.map some ++ rest) = .ok (slots field next, m.value.after.map some ++ rest) := by
  obtain ⟨⟨lead, name, gap, around⟩, ⟨before, value, after, blanks⟩⟩ := m
  obtain ⟨leading, gapped⟩ := List.forall_mem_append.mp around
  obtain ⟨early, late⟩ := List.forall_mem_append.mp blanks
  let left := (before ++ value).map some ++ (after.map some ++ rest)
  have colon : mark ':' (gap.map some ++ some ':' :: left) = .ok left := (mark_eq_ok_iff (by decide)).mpr ⟨gap, gapped, rfl⟩
  have text : (MemberText.text ⟨⟨lead, name, gap, around⟩, ⟨before, value, after, blanks⟩⟩).map some ++ rest =
      lead.map some ++ (name.map some ++ (gap.map some ++ some ':' :: left)) := by
    simp [MemberText.text, Padded.text, left]
  have named {key : String} (literal : Literal key name) :
      memberAt field slot (lead.map some ++ (name.map some ++ (gap.map some ++ some ':' :: left))) =
        (textField field).member key (slots field slot) (gap.map some ++ some ':' :: left) := by
    obtain ⟨name, rfl⟩ := literal.front
    have read : readQuoted (name.map some ++ (gap.map some ++ some ':' :: left)) = .ok (key, gap.map some ++ some ':' :: left) :=
      readQuoted_eq_ok_iff.mpr ⟨name, literal, rfl⟩
    have quote : isSpace '"' = false := by decide
    rw [memberAt, List.map_cons, List.cons_append, skipSpace_token leading quote]
    change (readQuoted _).bind _ = _
    rw [read]
    rfl
  rw [text]
  cases fills with
  | other other =>
    obtain ⟨⟨key, literal, foreign⟩, isValue⟩ := other
    have skip : skipValue left = .ok (after.map some ++ rest) := skipValue_value early isValue (follows.spaces late)
    rw [named literal, member_other foreign, colon]
    change (skipValue left).map _ = _
    rw [skip]
    rfl
  | @holds s _ holds =>
    obtain ⟨literal, held⟩ := holds
    have read : readText left = .ok (s, after.map some ++ rest) := readText_eq_ok_iff.mpr ⟨before, value, early, held, rfl⟩
    rw [named literal, member_field, colon]
    change (readText left).map _ = _
    rw [read]
    rfl

theorem value_of_member {last : (textField field).Slots} (clean : none ∉ input)
    (read : (textField field).member key (slots field slot) input = .ok (last, rest)) :
    ∃ (gap : List Char) (value : Padded) (next : Option String), Spaces gap ∧ last = slots field next ∧
      input = (gap ++ ':' :: value.text).map some ++ rest ∧
      (key ≠ field ∧ next = slot ∧ Value value.core ∨
        key = field ∧ slot = none ∧ ∃ s, next = some s ∧ Literal s value.core) := by
  by_cases own : key = field
  · subst own
    cases slot with
    | some s => cases (member_taken key s input).symm.trans read
    | none =>
      rw [member_field] at read
      obtain ⟨value, colon, found⟩ := bind_ok read
      obtain ⟨gap, gapped, rfl⟩ := (mark_eq_ok_iff (by decide)).mp colon
      obtain ⟨⟨s, left⟩, text, same⟩ := map_ok found
      obtain ⟨rfl, rfl⟩ := Prod.mk.inj same
      obtain ⟨before, core, early, held, rfl⟩ := readText_eq_ok_iff.mp text
      exact ⟨gap, ⟨before, core, [], by simpa using early⟩, some s, gapped, rfl, by simp [Padded.text],
        .inr ⟨rfl, rfl, s, rfl, held⟩⟩
  · rw [member_other own] at read
    obtain ⟨value, colon, found⟩ := bind_ok read
    obtain ⟨gap, gapped, rfl⟩ := (mark_eq_ok_iff (by decide)).mp colon
    obtain ⟨left, skip, same⟩ := map_ok found
    obtain ⟨rfl, rfl⟩ := Prod.mk.inj same
    have outside : none ∉ value := fun there => clean_of_append clean (List.mem_cons_of_mem _ there)
    obtain ⟨_, more, ⟨item, rfl, isValue⟩, rfl, resumes⟩ := value_of_skip outside skip
    obtain rfl := Except.ok.inj resumes
    exact ⟨gap, item, slot, gapped, rfl, by simp, .inl ⟨own, rfl, isValue⟩⟩

theorem fills_of_memberAt {last : (textField field).Slots} (clean : none ∉ input)
    (read : memberAt field slot input = .ok (last, rest)) :
    ∃ m next, Fills field slot m next ∧ last = slots field next ∧ input = m.text.map some ++ rest := by
  unfold memberAt at read
  split at read
  next text front =>
    obtain ⟨lead, leading, rfl⟩ := skipSpace_eq_cons front
    obtain ⟨⟨key, others⟩, quoted, member⟩ := bind_ok read
    obtain ⟨name, literal, rfl⟩ := readQuoted_eq_ok_iff.mp quoted
    have inside : none ∉ others := fun there => clean_of_append clean (List.mem_cons_of_mem _ (List.mem_append_right _ there))
    obtain ⟨gap, value, next, gapped, rfl, rfl, fills⟩ := value_of_member inside member
    let m : MemberText := ⟨⟨lead, '"' :: name, gap, List.forall_mem_append.mpr ⟨leading, gapped⟩⟩, value⟩
    refine ⟨m, next, ?_, rfl, by simp [m, MemberText.text, Padded.text]⟩
    rcases fills with ⟨other, rfl, isValue⟩ | ⟨rfl, rfl, s, rfl, held⟩
    · exact .other ⟨⟨key, literal, other⟩, isValue⟩
    · exact .holds ⟨literal, held⟩
  next => cases read

section Members
variable {fuel : Nat}

theorem membersFrom_close {first : Bool} (front : skipSpace input = some '\x7d' :: rest) :
    (textField field).membersFrom (fuel + 1) first (slots field slot) input = .ok (slots field slot, rest) := by
  rw [Fields.membersFrom, front]
  rfl

/-- Where a member comes next, after a comma unless it is the first. -/
theorem membersFrom_member {first : Bool} (going : ∀ rest, skipSpace input ≠ some '\x7d' :: rest)
    (next : (if first = true then Except.ok (skipSpace input) else (mark ',' (skipSpace input)).map skipSpace) =
      .ok (skipSpace rest)) :
    (textField field).membersFrom (fuel + 1) first (slots field slot) input =
      (memberAt field slot rest).bind fun read => (textField field).membersFrom fuel false read.1 read.2 := by
  rw [Fields.membersFrom, memberAt]
  split
  next closed => exact absurd closed (going _)
  next =>
    simp only [next]
    generalize skipSpace rest = name
    split
    next text same =>
      obtain rfl := Except.ok.inj same
      change _ = ((readQuoted text).bind fun read => (textField field).member read.1 (slots field slot) read.2).bind _
      cases readQuoted text with
      | error fault => rfl
      | ok read =>
        simp only [Except.bind]
        cases (textField field).member read.1 (slots field slot) read.2 <;> rfl
    next other =>
      split
      next text => exact absurd rfl (other text)
      next => rfl

theorem membersFrom_comma (front : skipSpace input = some ',' :: rest) :
    (textField field).membersFrom (fuel + 1) false (slots field slot) input =
      (memberAt field slot rest).bind fun read => (textField field).membersFrom fuel false read.1 read.2 := by
  have comma : mark ',' (some ',' :: rest) = .ok rest := mark_cons (by decide) rest
  refine membersFrom_member (fun rest closed => ?_) ?_
  · rw [front] at closed
    simp at closed
  · rw [if_neg Bool.false_ne_true, front, comma]
    rfl

theorem membersFrom_first (front : skipSpace input = some '"' :: rest) :
    (textField field).membersFrom (fuel + 1) true (slots field slot) input =
      (memberAt field slot input).bind fun read => (textField field).membersFrom fuel false read.1 read.2 := by
  refine membersFrom_member (fun rest closed => ?_) (if_pos rfl)
  rw [front] at closed
  simp at closed

theorem membersFrom_remaining {members : List MemberText} {last : Option String} (all : FillsAll field slot members last)
    {blanks : List Char} (spaces : Spaces blanks)
    (enough : (blanks.map some ++ ((remaining members).map some ++ rest)).length ≤ fuel) :
    (textField field).membersFrom fuel false (slots field slot) (blanks.map some ++ ((remaining members).map some ++ rest)) =
      .ok (slots field last, rest) := by
  induction all generalizing blanks fuel with
  | nil =>
    obtain ⟨fuel, rfl⟩ := Nat.exists_eq_succ_of_ne_zero (by simp [remaining] at enough; omega : fuel ≠ 0)
    exact membersFrom_close (skipSpace_token spaces (by decide) rest)
  | @cons slot next last m members fills _ ih =>
    rw [remaining_cons, List.map_cons, List.cons_append, List.map_append, List.append_assoc] at enough ⊢
    obtain ⟨fuel, rfl⟩ := Nat.exists_eq_succ_of_ne_zero (by simp at enough; omega : fuel ≠ 0)
    have front := skipSpace_token spaces (by decide : isSpace ',' = false)
      (m.text.map some ++ ((remaining members).map some ++ rest))
    have late : Spaces m.value.after := (List.forall_mem_append.mp m.value.spaces).2
    have fewer : (m.value.after.map some ++ ((remaining members).map some ++ rest)).length ≤ fuel := by
      have part := length_after_le m
      simp only [List.length_append, List.length_cons, List.length_map] at enough ⊢
      omega
    rw [membersFrom_comma front, memberAt_of_fills fills (follows_remaining members rest)]
    exact ih late fewer

/-- All members, once the bracket is open. -/
theorem membersFrom_object {m : MemberText} {members : List MemberText} {last : Option String}
    (all : FillsAll field slot (m :: members) last) :
    let input := (m.text ++ remaining members).map some ++ rest
    (textField field).membersFrom (input.length + 1) true (slots field slot) input = .ok (slots field last, rest) := by
  intro input
  cases all with
  | cons fills all =>
    have split : input = m.text.map some ++ ((remaining members).map some ++ rest) := by simp [input]
    have late : Spaces m.value.after := (List.forall_mem_append.mp m.value.spaces).2
    have fewer : (m.value.after.map some ++ ((remaining members).map some ++ rest)).length ≤
        (m.text.map some ++ ((remaining members).map some ++ rest)).length := by
      have part := length_after_le m
      simp only [List.length_append, List.length_map]
      omega
    obtain ⟨name, front⟩ := fills.front ((remaining members).map some ++ rest)
    rw [split, membersFrom_first front, memberAt_of_fills fills (follows_remaining members rest)]
    exact membersFrom_remaining all late fewer

/-- After a member comes the closing bracket, or a comma and another member. -/
theorem membersFrom_cases {result : (textField field).Slots × Input}
    (read : (textField field).membersFrom (fuel + 1) false (slots field slot) input = .ok result) :
    (∃ blanks, Spaces blanks ∧ result.1 = slots field slot ∧ input = (blanks ++ ['\x7d']).map some ++ result.2) ∨
    ∃ blanks more, Spaces blanks ∧ input = (blanks ++ [',']).map some ++ more ∧
      (memberAt field slot more).bind (fun read => (textField field).membersFrom fuel false read.1 read.2) = .ok result := by
  by_cases closed : ∃ more, skipSpace input = some '\x7d' :: more
  · obtain ⟨more, front⟩ := closed
    obtain rfl := Except.ok.inj ((membersFrom_close front).symm.trans read)
    obtain ⟨blanks, spaces, rfl⟩ := skipSpace_eq_cons front
    exact .inl ⟨blanks, spaces, rfl, by simp⟩
  · refine .inr ?_
    cases comma : mark ',' (skipSpace input) with
    | error fault =>
      rw [Fields.membersFrom] at read
      split at read
      next front => exact absurd ⟨_, front⟩ closed
      next =>
        simp only [if_neg Bool.false_ne_true, comma, Except.map] at read
        cases read
    | ok more =>
      have next : (if false = true then Except.ok (skipSpace input) else (mark ',' (skipSpace input)).map skipSpace) =
          .ok (skipSpace more) := by
        rw [if_neg Bool.false_ne_true, comma]
        rfl
      rw [membersFrom_member (fun rest front => closed ⟨rest, front⟩) next] at read
      obtain ⟨before, early, whole⟩ := skipSpace_parts input
      obtain ⟨blanks, spaces, front⟩ := (mark_eq_ok_iff (by decide)).mp comma
      exact ⟨before ++ blanks, more, List.forall_mem_append.mpr ⟨early, spaces⟩, by rw [whole, front]; simp, read⟩

theorem fillsAll_of_membersFrom {result : (textField field).Slots} (clean : none ∉ input)
    (read : (textField field).membersFrom fuel false (slots field slot) input = .ok (result, rest)) :
    ∃ blanks members last, Spaces blanks ∧ FillsAll field slot members last ∧ result = slots field last ∧
      input = (blanks ++ remaining members).map some ++ rest := by
  induction fuel generalizing slot input with
  | zero => cases read
  | succ fuel ih =>
    rcases membersFrom_cases read with ⟨blanks, spaces, same, whole⟩ | ⟨blanks, more, spaces, rfl, next⟩
    · exact ⟨blanks, [], slot, spaces, .nil, same, whole⟩
    · obtain ⟨⟨_, left⟩, member, further⟩ := bind_ok next
      have outside := clean_of_append clean
      obtain ⟨m, next, fills, rfl, rfl⟩ := fills_of_memberAt outside member
      obtain ⟨late, members, last, trailing, all, same, rfl⟩ := ih (clean_of_append outside) further
      obtain ⟨value, text, core⟩ := m.value.exists_trail trailing
      refine ⟨blanks, ⟨m.name, value⟩ :: members, last, spaces, .cons (fills.of_cores rfl core) all, same, ?_⟩
      simp [remaining_cons, MemberText.text, text]

/-- An object has no member, or such members as make what is read of it. -/
theorem fillsAll_of_object {result : (textField field).Slots} (clean : none ∉ input)
    (read : (textField field).membersFrom fuel true (slots field slot) input = .ok (result, rest)) :
    result = slots field slot ∨ ∃ m members last, FillsAll field slot (m :: members) last ∧ result = slots field last ∧
      input = (MemberText.text m ++ remaining members).map some ++ rest := by
  cases fuel with
  | zero => cases read
  | succ fuel =>
    by_cases closed : ∃ more, skipSpace input = some '\x7d' :: more
    · obtain ⟨more, front⟩ := closed
      exact .inl (Prod.mk.inj (Except.ok.inj ((membersFrom_close front).symm.trans read))).1.symm
    · rw [membersFrom_member (fun rest front => closed ⟨rest, front⟩) (if_pos rfl)] at read
      obtain ⟨⟨_, left⟩, member, further⟩ := bind_ok read
      obtain ⟨m, next, fills, rfl, rfl⟩ := fills_of_memberAt clean member
      obtain ⟨late, members, last, trailing, all, same, rfl⟩ := fillsAll_of_membersFrom (clean_of_append clean) further
      obtain ⟨value, text, core⟩ := m.value.exists_trail trailing
      refine .inr ⟨⟨m.name, value⟩, members, last, .cons (fills.of_cores rfl core) all, same, ?_⟩
      simp [MemberText.text, text]

end Members

end textField

end HelpDesk.Json
