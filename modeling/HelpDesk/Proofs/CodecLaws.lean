import HelpDesk.Proofs.QuotedTexts
import HelpDesk.Proofs.ReaderLaws

/-! Reading undoes writing. The law of a codec is about a value with any input after it, so that it carries over from
the parts of a text to the text: to the items of an array and, since a record is read by the names of its fields, to
the members of an object in any state of the fields before them. -/

namespace HelpDesk.Json

/-- The front of a value: no blank, and no bracket that would end an array. -/
def Begins (text : List Char) : Prop :=
  ∃ c cs, text = c :: cs ∧ isSpace c = false ∧ c ≠ ']'

/-- The text is read as the value, whatever follows. -/
structure Codec.ReadsAs {α : Type} (codec : Codec α) (text : List Char) (v : α) : Prop where
  begins : Begins text
  read : ∀ rest, codec.read (text.map some ++ rest) = .ok (v, rest)

/-- The values that are shown are written and read back, and no others are read. -/
structure Codec.Faithful {α : Type} (codec : Codec α) (shown : α → Prop) : Prop where
  writes : ∀ ⦃v⦄, shown v → ∃ text, codec.write v = some text ∧ codec.ReadsAs text v
  reads : ∀ ⦃input v rest⦄, codec.read input = .ok (v, rest) → shown v

theorem skipSpace_cons {c : Char} (solid : isSpace c = false) (rest : Input) :
    skipSpace (some c :: rest) = some c :: rest := by
  simp [skipSpace, solid]

theorem mark_cons {c : Char} (solid : isSpace c = false) (rest : Input) : mark c (some c :: rest) = .ok rest := by
  simp [mark, skipSpace_cons solid, word]

theorem begins_quote (s : String) : Begins (quote s) :=
  ⟨'"', _, rfl, by decide, by decide⟩

theorem skipSpace_quote (s : String) (rest : Input) :
    skipSpace ((quote s).map some ++ rest) = some '"' :: ((s.toList.flatMap escape).map some ++ some '"' :: rest) := by
  simp [quote, skipSpace, isSpace]

theorem readText_quote (s : String) (rest : Input) : readText ((quote s).map some ++ rest) = .ok (s, rest) := by
  simp [readText, skipSpace_quote, readQuoted_escaped]

theorem admit?_eq_ok_iff {α : Type} {value : Option α} {v : α} {rest left : Input} :
    admit? value rest = .ok (v, left) ↔ value = some v ∧ rest = left := by
  cases value <;> simp [admit?]

namespace Codec
variable {α β : Type} {codec : Codec α} {shown : α → Prop}

theorem spelled_faithful {ofString? : String → Option α} {toString? : α → Option String}
    (spells : ∀ ⦃v⦄, shown v → ∃ s, toString? v = some s ∧ ofString? s = some v)
    (admits : ∀ ⦃s v⦄, ofString? s = some v → shown v) : (spelled ofString? toString?).Faithful shown where
  writes v is := by
    obtain ⟨s, written, means⟩ := spells is
    exact ⟨quote s, by simp [spelled, written], begins_quote s, fun rest => by
      simp [spelled, readText_quote, means, admit?]⟩
  reads input v rest read := by
    simp only [spelled] at read
    split at read
    next => exact admits (admit?_eq_ok_iff.mp read).1
    next => cases read

theorem text_faithful : text.Faithful fun _ => True :=
  spelled_faithful (fun s _ => ⟨s, rfl, rfl⟩) fun _ _ _ => trivial

theorem flag_faithful : flag.Faithful fun _ => True where
  writes v _ := by
    cases v
    · exact ⟨_, rfl, ⟨'f', _, rfl, by decide, by decide⟩, fun rest => rfl⟩
    · exact ⟨_, rfl, ⟨'t', _, rfl, by decide, by decide⟩, fun rest => rfl⟩
  reads _ _ _ _ := trivial

theorem oneOf_faithful {ofString? : String → Option α} {toString : α → String}
    (means : ∀ v, ofString? (toString v) = some v) : (oneOf ofString? toString).Faithful fun _ => True where
  writes v _ := ⟨quote (toString v), rfl, begins_quote _, fun rest => by
    simp [oneOf, skipSpace_quote, readQuoted_escaped, means, admit?]⟩
  reads _ _ _ _ := trivial

/-- Where no value has a text that begins like `null`. -/
theorem Faithful.optional (faithful : codec.Faithful shown) (named : ∀ v text, codec.write v ≠ some ('n' :: text)) :
    codec.optional.Faithful fun value => ∀ v, value = some v → shown v where
  writes value is := by
    cases value with
    | none => exact ⟨_, rfl, ⟨'n', _, rfl, by decide, by decide⟩, fun rest => rfl⟩
    | some v =>
      obtain ⟨text, written, begins, reads⟩ := faithful.writes (is v rfl)
      refine ⟨text, written, begins, fun rest => ?_⟩
      obtain ⟨c, cs, rfl, solid, -⟩ := begins
      have other : c ≠ 'n' := by
        rintro rfl
        exact named v cs written
      have back := reads rest
      simp only [List.map_cons, List.cons_append] at back ⊢
      simp [Codec.optional, skipSpace_cons solid, other, back, Except.map]
  reads input value rest read v same := by
    subst same
    simp only [Codec.optional] at read
    split at read
    · obtain ⟨_, -, same⟩ := map_ok read
      cases same
    · obtain ⟨⟨w, left⟩, here, same⟩ := map_ok read
      obtain rfl := Option.some.inj (Prod.mk.inj same).1
      exact faithful.reads here

theorem Faithful.map (faithful : codec.Faithful shown) {back : β → α} {forth : α → β} (there : ∀ v, forth (back v) = v)
    (again : ∀ v, back (forth v) = v) : (codec.map back forth).Faithful fun v => shown (back v) where
  writes v is := by
    obtain ⟨text, written, begins, reads⟩ := faithful.writes is
    exact ⟨text, written, begins, fun rest => by simp [Codec.map, reads rest, there, Except.map]⟩
  reads input v rest read := by
    obtain ⟨⟨w, left⟩, here, same⟩ := map_ok read
    obtain ⟨rfl, -⟩ := Prod.mk.inj same
    rw [again]
    exact faithful.reads here

theorem commas_cons (item : List Char) (items : List (List Char)) :
    commas (item :: items) = item ++ items.flatMap (',' :: ·) := by
  induction items generalizing item with
  | nil => simp [commas]
  | cons next items ih =>
    have step : commas (item :: next :: items) = item ++ ',' :: commas (next :: items) := by
      simp [commas]
    rw [step, ih next]
    simp

/-- No item or member is empty, so the length of their text bounds their number. -/
theorem length_le_length_commas (items : List (List Char)) (begin : ∀ item ∈ items, Begins item) :
    items.length ≤ (commas items).length := by
  cases items with
  | nil => simp
  | cons item items =>
    obtain ⟨c, cs, front, -⟩ := begin item (by simp)
    have others : items.length ≤ (items.flatMap (',' :: ·)).length := by
      clear begin
      induction items with
      | nil => simp
      | cons next items ih =>
        simp only [List.flatMap_cons, List.length_append, List.length_cons] at ih ⊢
        omega
    simp only [commas_cons, front, List.length_append, List.length_cons]
    omega

section Items
variable {v : α} {text : List Char} {fuel : Nat}

theorem itemsFrom_first (reads : codec.ReadsAs text v) (rest : Input) :
    itemsFrom codec [] (fuel + 1) (text.map some ++ rest) = itemsFrom codec [v] fuel rest := by
  obtain ⟨⟨c, cs, rfl, solid, other⟩, back⟩ := reads
  have here := back rest
  simp only [List.map_cons, List.cons_append] at here ⊢
  simp [itemsFrom, skipSpace_cons solid, other, here]

theorem itemsFrom_next (reads : codec.ReadsAs text v) (last : α) (done : List α) (rest : Input) :
    itemsFrom codec (last :: done) (fuel + 1) (some ',' :: (text.map some ++ rest)) =
      itemsFrom codec (v :: last :: done) fuel rest := by
  obtain ⟨⟨c, cs, rfl, solid, other⟩, back⟩ := reads
  have here := back rest
  have comma : isSpace ',' = false := by decide
  simp only [List.map_cons, List.cons_append] at here ⊢
  simp [itemsFrom, skipSpace_cons comma, skipSpace_cons solid, other, here]

theorem itemsFrom_close (done : List α) (rest : Input) :
    itemsFrom codec done (fuel + 1) (some ']' :: rest) = .ok (done.reverse, rest) := by
  simp [itemsFrom, skipSpace, isSpace]

/-- The items after the first, each with its comma. -/
theorem itemsFrom_others {items : List (α × List Char)} (reads : ∀ item ∈ items, codec.ReadsAs item.2 item.1)
    (enough : items.length < fuel) (last : α) (done : List α) (rest : Input) :
    itemsFrom codec (last :: done) fuel (((items.map Prod.snd).flatMap (',' :: ·)).map some ++ some ']' :: rest) =
      .ok ((last :: done).reverse ++ items.map Prod.fst, rest) := by
  obtain ⟨fuel, rfl⟩ := Nat.exists_eq_succ_of_ne_zero (by omega : fuel ≠ 0)
  induction items generalizing fuel last done with
  | nil => simpa using itemsFrom_close (last :: done) rest
  | cons item items ih =>
    obtain ⟨fuel, rfl⟩ := Nat.exists_eq_succ_of_ne_zero (by simp at enough; omega : fuel ≠ 0)
    have others := ih (fun item mem => reads item (by simp [mem])) item.1 (last :: done) fuel (by simpa using enough)
    simp only [List.map_cons, List.flatMap_cons, List.cons_append, List.map_append, List.append_assoc]
    rw [itemsFrom_next (reads item (by simp)), others]
    simp

theorem itemsFrom_commas {items : List (α × List Char)} (reads : ∀ item ∈ items, codec.ReadsAs item.2 item.1)
    (enough : items.length < fuel) (rest : Input) :
    itemsFrom codec [] fuel ((commas (items.map Prod.snd)).map some ++ some ']' :: rest) =
      .ok (items.map Prod.fst, rest) := by
  obtain ⟨fuel, rfl⟩ := Nat.exists_eq_succ_of_ne_zero (by omega : fuel ≠ 0)
  cases items with
  | nil => simpa [commas] using itemsFrom_close [] rest
  | cons item items =>
    have others := itemsFrom_others (fun item mem => reads item (by simp [mem]))
      (by simpa using enough : items.length < fuel) item.1 [] rest
    rw [List.map_cons, commas_cons, List.map_append, List.append_assoc, itemsFrom_first (reads item (by simp)), others]
    simp

/-- Items that were read before, and are read one by one. -/
theorem shown_of_itemsFrom (faithful : codec.Faithful shown) {done vs : List α} (before : ∀ v ∈ done, shown v)
    {input rest : Input} (read : itemsFrom codec done fuel input = .ok (vs, rest)) : ∀ v ∈ vs, shown v := by
  induction fuel generalizing done input with
  | zero => cases read
  | succ fuel ih =>
    simp only [itemsFrom] at read
    split at read
    next =>
      obtain ⟨rfl, -⟩ := Prod.mk.inj (Except.ok.inj read)
      simpa using before
    next =>
      split at read
      next => cases read
      next =>
        split at read
        next => cases read
        next v left here =>
          have shows := faithful.reads here
          exact ih (by simpa using ⟨shows, before⟩) read

end Items

theorem Faithful.exists_items (faithful : codec.Faithful shown) {vs : List α} (all : ∀ v ∈ vs, shown v) :
    ∃ items : List (α × List Char), items.map Prod.fst = vs ∧ vs.mapM codec.write = some (items.map Prod.snd) ∧
      ∀ item ∈ items, codec.ReadsAs item.2 item.1 := by
  induction vs with
  | nil => exact ⟨[], rfl, rfl, by simp⟩
  | cons v vs ih =>
    obtain ⟨text, here, reads⟩ := faithful.writes (all v (by simp))
    obtain ⟨items, rfl, others, more⟩ := ih fun v mem => all v (by simp [mem])
    refine ⟨(v, text) :: items, rfl, by simp [here, others], fun item mem => ?_⟩
    rcases List.mem_cons.mp mem with rfl | mem
    · exact reads
    · exact more item mem

theorem Faithful.list (faithful : codec.Faithful shown) : codec.list.Faithful fun vs => ∀ v ∈ vs, shown v where
  writes vs all := by
    obtain ⟨items, rfl, written, reads⟩ := faithful.exists_items all
    refine ⟨'[' :: commas (items.map Prod.snd) ++ [']'], by simp [Codec.list, written], ⟨'[', _, rfl, by decide, by decide⟩,
      fun rest => ?_⟩
    have short := length_le_length_commas (items.map Prod.snd) (by
      intro text mem
      obtain ⟨item, among, rfl⟩ := List.mem_map.mp mem
      exact (reads item among).begins)
    have opened : isSpace '[' = false := by decide
    have back := itemsFrom_commas reads
      (show items.length < ((commas (items.map Prod.snd)).map some ++ some ']' :: rest).length + 1 by
        simp at short ⊢; omega) rest
    simpa [Codec.list, skipSpace_cons opened] using back
  reads input vs rest read := by
    simp only [Codec.list] at read
    split at read
    next => exact shown_of_itemsFrom faithful (by simp) read
    next => cases read

end Codec

namespace Fields
variable {γ : Type}

def names : {γ : Type} → Fields γ → List String
  | _, .nil => []
  | _, .cons name _ _ rest => name :: rest.names

/-- A record whose fields keep the law and have names of their own. -/
inductive Faithful : {γ : Type} → Fields γ → (γ → Prop) → Prop
  | nil : Faithful .nil fun _ => True
  | cons {α β : Type} {name : String} {codec : Codec α} {absent : Absent α} {rest : Fields β} {shown : α → Prop}
      {others : β → Prop} (value : codec.Faithful shown) (member : ∀ v, absent.member = some v → shown v)
      (item : ∀ v, absent.item = some v → shown v) (own : name ∉ rest.names) (more : rest.Faithful others) :
      Faithful (.cons name codec absent rest) fun record => shown record.1 ∧ others record.2

theorem Faithful.yields {fields : Fields γ} {shown : γ → Prop} (faithful : fields.Faithful shown) :
    ∃ held, fields.Yields (fun _ => True) shown held := by
  induction faithful with
  | nil => exact ⟨_, .nil⟩
  | cons value member item own more ih =>
    obtain ⟨held, others⟩ := ih
    exact ⟨_, .cons (fun _ _ _ _ read => ⟨value.reads read, trivial⟩) member item others⟩

/-- A member by its name and the text of its value. -/
abbrev Member := String × List Char

def Member.text (m : Member) : List Char :=
  quote m.1 ++ ':' :: m.2

/-- Members that fill the fields one after the other, each whatever follows it. -/
inductive Fills (fields : Fields γ) : fields.Slots → List Member → fields.Slots → Prop
  | nil {slots : fields.Slots} : Fills fields slots [] slots
  | cons {slots next last : fields.Slots} {m : Member} {members : List Member}
      (fill : ∀ rest, fields.fill? m.1 slots (some ':' :: (m.2.map some ++ rest)) = some (.ok (next, rest)))
      (more : Fills fields next members last) : Fills fields slots (m :: members) last

/-- Members of other names leave a field as it is. -/
theorem Fills.other {α : Type} {name : String} {codec : Codec α} {absent : Absent α} {fields : Fields γ}
    {slots last : fields.Slots} {members : List Member} (fills : fields.Fills slots members last)
    (others : ∀ m ∈ members, m.1 ≠ name) (slot : Option α) :
    (Fields.cons name codec absent fields).Fills (slot, slots) members (slot, last) := by
  induction fills with
  | nil => exact .nil
  | @cons _ _ _ m _ fill more ih =>
    have differs : name ≠ m.1 := (others m (by simp)).symm
    refine .cons (fun rest => ?_) (ih fun m mem => others m (by simp [mem]))
    simp [Fields.fill?, differs, fill rest]

/-- What is written fills the empty record with what was written. -/
theorem Faithful.exists_members {fields : Fields γ} {shown : γ → Prop} (faithful : fields.Faithful shown) {v : γ}
    (is : shown v) : ∃ (members : List Member) (full : fields.Slots), fields.write v = some (members.map Member.text) ∧
      fields.Fills fields.empty members full ∧ fields.complete? full = some v ∧ ∀ m ∈ members, m.1 ∈ fields.names := by
  induction faithful with
  | nil => exact ⟨[], (), rfl, .nil, rfl, by simp⟩
  | @cons α β name codec absent rest shown others value member item own more ih =>
    obtain ⟨v, vs⟩ := v
    obtain ⟨text, written, -, back⟩ := value.writes is.1
    obtain ⟨members, full, texts, fills, complete, named⟩ := ih is.2
    have other : ∀ m ∈ members, m.1 ≠ name := fun m mem same => own (same ▸ named m mem)
    have colon : isSpace ':' = false := by decide
    refine ⟨(name, text) :: members, (some v, full), ?_, .cons (fun rest => ?_) (fills.other other (some v)), ?_, ?_⟩
    · simp [Fields.write, written, texts, Member.text]
    · simp [Fields.fill?, Fields.empty, mark_cons colon, back rest]
    · simp [Fields.complete?, complete]
    · intro m mem
      rcases List.mem_cons.mp mem with rfl | mem
      · simp [names]
      · simp [names, named m mem]

section Members
variable {fields : Fields γ} {slots next last : fields.Slots} {m : Member} {members : List Member} {fuel : Nat}

theorem membersFrom_first
    (fill : ∀ rest, fields.fill? m.1 slots (some ':' :: (m.2.map some ++ rest)) = some (.ok (next, rest))) (rest : Input) :
    fields.membersFrom (fuel + 1) true slots (m.text.map some ++ rest) = fields.membersFrom fuel false next rest := by
  have split : m.text.map some ++ rest = (quote m.1).map some ++ some ':' :: (m.2.map some ++ rest) := by
    simp [Member.text]
  rw [split]
  simp [membersFrom, skipSpace_quote, readQuoted_escaped, Fields.member, fill]

theorem membersFrom_next
    (fill : ∀ rest, fields.fill? m.1 slots (some ':' :: (m.2.map some ++ rest)) = some (.ok (next, rest))) (rest : Input) :
    fields.membersFrom (fuel + 1) false slots (some ',' :: (m.text.map some ++ rest)) =
      fields.membersFrom fuel false next rest := by
  have comma : isSpace ',' = false := by decide
  have split : m.text.map some ++ rest = (quote m.1).map some ++ some ':' :: (m.2.map some ++ rest) := by
    simp [Member.text]
  rw [split]
  simp [membersFrom, skipSpace_cons comma, mark_cons comma, skipSpace_quote, readQuoted_escaped, Fields.member, fill,
    Except.map]

theorem membersFrom_close (first : Bool) (rest : Input) :
    fields.membersFrom (fuel + 1) first slots (some '\x7d' :: rest) = .ok (slots, rest) := by
  simp [membersFrom, skipSpace, isSpace]

/-- The members after the first, each with its comma. -/
theorem membersFrom_others (fills : fields.Fills slots members last) (enough : members.length < fuel) (rest : Input) :
    fields.membersFrom fuel false slots (((members.map Member.text).flatMap (',' :: ·)).map some ++ some '\x7d' :: rest) =
      .ok (last, rest) := by
  induction fills generalizing fuel with
  | nil =>
    obtain ⟨fuel, rfl⟩ := Nat.exists_eq_succ_of_ne_zero (by omega : fuel ≠ 0)
    simpa using membersFrom_close false rest
  | cons fill more ih =>
    obtain ⟨fuel, rfl⟩ := Nat.exists_eq_succ_of_ne_zero (by omega : fuel ≠ 0)
    simp only [List.map_cons, List.flatMap_cons, List.cons_append, List.map_append, List.append_assoc]
    rw [membersFrom_next fill, ih (by simpa using enough)]

theorem membersFrom_commas (fills : fields.Fills slots members last) (enough : members.length < fuel) (rest : Input) :
    fields.membersFrom fuel true slots ((Codec.commas (members.map Member.text)).map some ++ some '\x7d' :: rest) =
      .ok (last, rest) := by
  obtain ⟨fuel, rfl⟩ := Nat.exists_eq_succ_of_ne_zero (by omega : fuel ≠ 0)
  cases fills with
  | nil => simpa [Codec.commas] using membersFrom_close true rest
  | cons fill more =>
    rw [List.map_cons, Codec.commas_cons, List.map_append, List.append_assoc, membersFrom_first fill,
      membersFrom_others more (by simpa using enough)]

end Members

end Fields

theorem Codec.record_faithful {γ : Type} {fields : Fields γ} {shown : γ → Prop} (faithful : fields.Faithful shown) :
    (Codec.record fields).Faithful shown where
  writes v is := by
    obtain ⟨members, full, written, fills, complete, -⟩ := faithful.exists_members is
    refine ⟨'\x7b' :: commas (members.map Fields.Member.text) ++ ['\x7d'], by simp [Codec.record, written],
      ⟨'\x7b', _, rfl, by decide, by decide⟩, fun rest => ?_⟩
    have short := length_le_length_commas (members.map Fields.Member.text) (by
      intro text mem
      obtain ⟨m, -, rfl⟩ := List.mem_map.mp mem
      exact ⟨'"', _, rfl, by decide, by decide⟩)
    have opened : isSpace '\x7b' = false := by decide
    have back := Fields.membersFrom_commas fills
      (show members.length < ((commas (members.map Fields.Member.text)).map some ++ some '\x7d' :: rest).length + 1 by
        simp at short ⊢; omega) rest
    simp only [List.length_append, List.length_map, List.length_cons] at back
    simp [Codec.record, skipSpace_cons opened, back, complete, admit?]
  reads input v rest read := by
    obtain ⟨held, yields⟩ := faithful.yields
    exact (Codec.yields_record (fun _ _ _ _ => trivial) yields trivial read).1

end HelpDesk.Json
