import HelpDesk.Proofs.TextMembers

/-! Records of one text: they are read from an object that holds the text under the record's name, whatever else it holds,
and from an array of the text alone. -/

namespace HelpDesk.Json

section Parts
variable {field s : String} {members before after : List MemberText} {slot last : Option String}

theorem fillsAll_of_others (others : ∀ m ∈ members, m.IsOther field) : FillsAll field slot members slot := by
  induction members with
  | nil => exact .nil
  | cons m members ih =>
    obtain ⟨other, others⟩ := List.forall_mem_cons.mp others
    exact .cons (.other other) (ih others)

theorem FillsAll.append (all : FillsAll field slot before last) {final : Option String}
    (more : FillsAll field last after final) : FillsAll field slot (before ++ after) final := by
  induction all with
  | nil => exact more
  | cons fills _ ih => exact .cons fills (ih more)

theorem others_of_fillsAll (all : FillsAll field (some s) members last) : (∀ m ∈ members, m.IsOther field) ∧ last = some s := by
  induction members with
  | nil =>
    cases all
    exact ⟨by simp, rfl⟩
  | cons m members ih =>
    cases all with
    | cons fills others =>
      cases fills with
      | other other =>
        obtain ⟨same, rfl⟩ := ih others
        exact ⟨List.forall_mem_cons.mpr ⟨other, same⟩, rfl⟩

/-- What is read of an object is in one of its members. -/
theorem fillsAll_iff : FillsAll field none members (some s) ↔ ∃ before m after, members = before ++ m :: after ∧
    (∀ other ∈ before ++ after, other.IsOther field) ∧ m.Holds field s := by
  constructor
  · intro all
    induction members with
    | nil => cases all
    | cons m members ih =>
      cases all with
      | cons fills rest =>
        cases fills with
        | other other =>
          obtain ⟨before, n, after, rfl, others, holds⟩ := ih rest
          exact ⟨m :: before, n, after, rfl, List.forall_mem_cons.mpr ⟨other, others⟩, holds⟩
        | holds holds =>
          obtain ⟨others, same⟩ := others_of_fillsAll rest
          obtain rfl := Option.some.inj same
          exact ⟨[], m, members, rfl, others, holds⟩
  · rintro ⟨before, m, after, rfl, others, holds⟩
    obtain ⟨early, late⟩ := List.forall_mem_append.mp others
    exact (fillsAll_of_others early).append (.cons (.holds holds) (fillsAll_of_others late))

end Parts

section Records
variable {field s : String} {input rest : Input}

theorem text_read (input : Input) : Codec.text.read input = readText input := by
  simp only [Codec.text, Codec.spelled]
  cases readText input <;> rfl

theorem ObjectText.parts {text : List Char} (object : ObjectText field s text) : ∃ before m after,
    (∀ other ∈ before ++ after, MemberText.IsOther field other) ∧ MemberText.Holds field s m ∧
      text = '\x7b' :: Codec.commas ((before ++ m :: after).map MemberText.text) ++ ['\x7d'] := by
  cases object with
  | members others holds => exact ⟨_, _, _, others, holds, rfl⟩

theorem object_text {before after : List MemberText} {m first : MemberText} {members : List MemberText}
    (parts : before ++ m :: after = first :: members) : '\x7b' :: Codec.commas ((before ++ m :: after).map MemberText.text) ++
      ['\x7d'] = '\x7b' :: (first.text ++ remaining members) := by
  rw [parts, List.map_cons, Codec.commas_cons, remaining, List.cons_append, List.append_assoc]

/-- The text that is read from an object. -/
theorem membersFrom_eq_ok_iff (clean : none ∉ input) :
    ((textField field).membersFrom (input.length + 1) true (textField field).empty input = .ok (textField.slots field (some s), rest)) ↔
      ∃ text, ObjectText field s ('\x7b' :: text) ∧ input = text.map some ++ rest := by
  have empty : (textField field).empty = textField.slots field none := rfl
  rw [empty]
  constructor
  · intro read
    rcases textField.fillsAll_of_object clean read with none | ⟨m, members, last, all, same, rfl⟩
    · cases none
    · obtain rfl : some s = last := (Prod.mk.inj same).1
      obtain ⟨before, n, after, parts, others, holds⟩ := fillsAll_iff.mp all
      refine ⟨m.text ++ remaining members, ?_, rfl⟩
      rw [← object_text parts.symm]
      exact .members others holds
  · rintro ⟨text, object, rfl⟩
    obtain ⟨before, m, after, others, holds, whole⟩ := object.parts
    obtain ⟨first, members, parts⟩ := List.exists_cons_of_ne_nil (List.append_ne_nil_of_right_ne_nil before (List.cons_ne_nil m after))
    obtain rfl := (List.cons.inj (whole.trans (object_text parts))).2
    exact textField.membersFrom_object (fillsAll_iff.mpr ⟨before, m, after, parts.symm, others, holds⟩)

theorem ArrayText.parts {text : List Char} (array : ArrayText s text) :
    ∃ item : Padded, Literal s item.core ∧ text = '[' :: item.text ++ [']'] := by
  cases array with
  | item literal => exact ⟨_, literal, rfl⟩

theorem array_of_items (read : (textField field).items true input = .ok ((s, ()), rest)) :
    ∃ text, ArrayText s ('[' :: text) ∧ input = text.map some ++ rest := by
  unfold Fields.items at read
  split at read
  next => cases read
  next =>
    simp only [if_true, text_read] at read
    split at read
    next => cases read
    next value left text =>
      obtain ⟨⟨_, _⟩, closed, same⟩ := map_ok read
      obtain ⟨_, mark, done⟩ := map_ok closed
      obtain ⟨⟨rfl, -⟩, rfl⟩ := Prod.mk.inj same |>.imp_left Prod.mk.inj
      obtain ⟨-, rfl⟩ := Prod.mk.inj done
      obtain ⟨lead, leading, whole⟩ := skipSpace_parts input
      obtain ⟨before, core, early, literal, front⟩ := readText_eq_ok_iff.mp text
      obtain ⟨after, late, rfl⟩ := (mark_eq_ok_iff (by decide)).mp mark
      let item : Padded := ⟨lead ++ before, core, after, by
        rw [List.append_assoc]
        exact List.forall_mem_append.mpr ⟨leading, List.forall_mem_append.mpr ⟨early, late⟩⟩⟩
      refine ⟨item.text ++ [']'], .item literal, ?_⟩
      rw [whole, front]
      simp [item, Padded.text]

theorem items_of_array {item : Padded} (literal : Literal s item.core) (rest : Input) :
    (textField field).items true ((item.text ++ [']']).map some ++ rest) = .ok ((s, ()), rest) := by
  obtain ⟨before, core, after, spaces⟩ := item
  obtain ⟨early, late⟩ := List.forall_mem_append.mp spaces
  obtain ⟨core, rfl⟩ := literal.front
  let left := after.map some ++ some ']' :: rest
  have front : skipSpace ((Padded.text ⟨before, '"' :: core, after, spaces⟩ ++ [']']).map some ++ rest) =
      some '"' :: (core.map some ++ left) := by
    have split : (Padded.text ⟨before, '"' :: core, after, spaces⟩ ++ [']']).map some ++ rest =
        before.map some ++ some '"' :: (core.map some ++ left) := by
      simp [Padded.text, left]
    rw [split]
    exact skipSpace_token early (by decide) _
  have text : readText (some '"' :: (core.map some ++ left)) = .ok (s, left) :=
    readText_eq_ok_iff.mpr ⟨[], '"' :: core, by simp [Spaces], literal, rfl⟩
  have close : mark ']' left = .ok rest := (mark_eq_ok_iff (by decide)).mpr ⟨after, late, rfl⟩
  have last : (Fields.nil).items false left = .ok ((), rest) := by
    rw [Fields.items, close]
    rfl
  rw [Fields.items, front]
  split
  next closed => simp at closed
  next =>
    simp only [if_true, text_read, text, last]
    rfl

/-- The text that is read from an array. -/
theorem items_eq_ok_iff : (textField field).items true input = .ok ((s, ()), rest) ↔
    ∃ text, ArrayText s ('[' :: text) ∧ input = text.map some ++ rest := by
  refine ⟨array_of_items, ?_⟩
  rintro ⟨text, array, rfl⟩
  obtain ⟨item, literal, whole⟩ := array.parts
  obtain rfl : text = item.text ++ [']'] := (List.cons.inj whole).2
  exact items_of_array literal rest

theorem complete?_eq_some_iff {slots : (textField field).Slots} :
    (textField field).complete? slots = some (s, ()) ↔ slots = textField.slots field (some s) := by
  obtain ⟨slot, ⟨⟩⟩ := slots
  cases slot with
  | none => exact iff_of_false (by rintro ⟨⟩) (by rintro ⟨⟩)
  | some t =>
    constructor
    · intro complete
      obtain rfl : t = s := (Prod.mk.inj (Option.some.inj complete)).1
      rfl
    · intro same
      obtain rfl : t = s := Option.some.inj (Prod.mk.inj same).1
      rfl

section Opened
variable {more : Input}

theorem opened_of_record {record : String × Unit} (read : (Codec.record (textField field)).read input = .ok (record, rest)) :
    (∃ more, skipSpace input = some '\x7b' :: more) ∨ ∃ more, skipSpace input = some '[' :: more := by
  simp only [Codec.record] at read
  split at read
  next more opened => exact .inl ⟨more, opened⟩
  next more opened => exact .inr ⟨more, opened⟩
  next => cases read

theorem record_object_iff (opened : skipSpace input = some '\x7b' :: more) (clean : none ∉ more) :
    (Codec.record (textField field)).read input = .ok ((s, ()), rest) ↔
      ∃ text, ObjectText field s ('\x7b' :: text) ∧ more = text.map some ++ rest := by
  rw [← membersFrom_eq_ok_iff clean]
  simp only [Codec.record, opened]
  cases (textField field).membersFrom (more.length + 1) true (textField field).empty more with
  | error fault => exact iff_of_false (by rintro ⟨⟩) (by rintro ⟨⟩)
  | ok read =>
    obtain ⟨slots, left⟩ := read
    constructor
    · intro read
      obtain ⟨complete, rfl⟩ := admit?_eq_ok_iff.mp read
      rw [complete?_eq_some_iff.mp complete]
    · intro same
      obtain ⟨filled, rfl⟩ := Prod.mk.inj (Except.ok.inj same)
      exact admit?_eq_ok_iff.mpr ⟨complete?_eq_some_iff.mpr filled, rfl⟩

theorem record_array_iff (opened : skipSpace input = some '[' :: more) :
    (Codec.record (textField field)).read input = .ok ((s, ()), rest) ↔
      ∃ text, ArrayText s ('[' :: text) ∧ more = text.map some ++ rest := by
  have same : (Codec.record (textField field)).read input = (textField field).items true more := by
    simp only [Codec.record, opened]
  rw [same, items_eq_ok_iff]

end Opened

/-- A record of one text is read from an object that holds it, or from an array of it. -/
theorem read_record_iff (clean : none ∉ input) : (Codec.record (textField field)).read input = .ok ((s, ()), rest) ↔
    ∃ blanks text, Spaces blanks ∧ (ObjectText field s text ∨ ArrayText s text) ∧ input = (blanks ++ text).map some ++ rest := by
  constructor
  · intro read
    obtain ⟨blanks, spaces, whole⟩ := skipSpace_parts input
    rcases opened_of_record read with ⟨more, opened⟩ | ⟨more, opened⟩
    · rw [opened] at whole
      have inside : none ∉ more := fun there => clean (whole ▸ List.mem_append_right _ (List.mem_cons_of_mem _ there))
      obtain ⟨text, object, rfl⟩ := (record_object_iff opened inside).mp read
      exact ⟨blanks, '\x7b' :: text, spaces, .inl object, by rw [whole]; simp⟩
    · obtain ⟨text, array, rfl⟩ := (record_array_iff opened).mp read
      exact ⟨blanks, '[' :: text, spaces, .inr array, by rw [whole, opened]; simp⟩
  · rintro ⟨blanks, text, spaces, object | array, rfl⟩
    · obtain ⟨_, _, _, -, -, front⟩ := object.parts
      obtain ⟨text, rfl⟩ : ∃ more, text = '\x7b' :: more := ⟨_, front⟩
      have opened : skipSpace ((blanks ++ '\x7b' :: text).map some ++ rest) = some '\x7b' :: (text.map some ++ rest) := by
        rw [List.map_append, List.append_assoc]
        exact skipSpace_token spaces (by decide) _
      have inside : none ∉ text.map some ++ rest := fun there => clean (by simpa using there)
      exact (record_object_iff opened inside).mpr ⟨text, object, rfl⟩
    · obtain ⟨_, -, front⟩ := array.parts
      obtain ⟨text, rfl⟩ : ∃ more, text = '[' :: more := ⟨_, front⟩
      have opened : skipSpace ((blanks ++ '[' :: text).map some ++ rest) = some '[' :: (text.map some ++ rest) := by
        rw [List.map_append, List.append_assoc]
        exact skipSpace_token spaces (by decide) _
      exact (record_array_iff opened).mpr ⟨text, array, rfl⟩

end Records

/-- A record of one text is decoded from such an object or array with blanks around it, and from nothing else. -/
theorem decode?_record_iff {field s text : String} : (Codec.record (textField field)).decode? text = some (s, ()) ↔
    ∃ p : Padded, p.text = text.toList ∧ (ObjectText field s p.core ∨ ArrayText s p.core) := by
  have clean : none ∉ inputOf text := by simp [inputOf]
  unfold Codec.decode?
  constructor
  · intro decoded
    split at decoded
    next record rest read =>
      split at decoded
      next ended =>
        obtain rfl := Option.some.inj decoded
        obtain ⟨before, core, spaces, isText, whole⟩ := (read_record_iff clean).mp read
        obtain ⟨after, late, parts⟩ := skipSpace_parts rest
        rw [List.isEmpty_iff.mp ended, List.append_nil] at parts
        rw [parts, ← List.map_append] at whole
        have same := List.map_injective_iff.mpr (Option.some_injective Char) whole
        exact ⟨⟨before, core, after, List.forall_mem_append.mpr ⟨spaces, late⟩⟩, same.symm, isText⟩
      next => cases decoded
    next => cases decoded
  · rintro ⟨⟨before, core, after, spaces⟩, whole, isText⟩
    obtain ⟨early, late⟩ := List.forall_mem_append.mp spaces
    have split : inputOf text = (before ++ core).map some ++ after.map some := by
      rw [inputOf, ← whole, Padded.text, List.map_append]
    have ended : skipSpace (after.map some) = [] := by
      simpa [skipSpace] using skipSpace_spaces late []
    simp [(read_record_iff clean).mpr ⟨before, core, early, isText, split⟩, ended]

end HelpDesk.Json
