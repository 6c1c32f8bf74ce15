import HelpDesk.Json.Codec
import Mathlib.Data.List.Infix

/-! Every reader takes what it reads from the front of its input and hands back the rest. So what holds of an input
and of every end of it holds of what a reader leaves, and a record yields what the readers of its fields yield. -/

namespace HelpDesk.Json

theorem map_ok {α β : Type} {f : α → β} {read : Except Fault α} {w : β} (mapped : read.map f = .ok w) :
    ∃ v, read = .ok v ∧ f v = w := by
  cases read with
  | error => cases mapped
  | ok v => exact ⟨v, rfl, Except.ok.inj mapped⟩

theorem bind_ok {α β : Type} {read : Except Fault α} {next : α → Except Fault β} {w : β} (run : read.bind next = .ok w) :
    ∃ v, read = .ok v ∧ next v = .ok w := by
  cases read with
  | error => cases run
  | ok v => exact ⟨v, rfl, run⟩

theorem skipSpace_suffix (input : Input) : skipSpace input <:+ input := by
  induction input with
  | nil => exact List.suffix_refl []
  | cons item rest ih =>
    unfold skipSpace
    split
    · split
      · exact ih.trans (List.suffix_cons _ rest)
      · exact List.suffix_refl _
    · exact List.suffix_refl _

theorem word_suffix {expected : List Char} {input rest : Input} (read : word expected input = .ok rest) :
    rest <:+ input := by
  induction expected generalizing input with
  | nil =>
    obtain rfl := Except.ok.inj read
    exact List.suffix_refl _
  | cons e es ih =>
    cases input with
    | nil => cases read
    | cons item others =>
      simp only [word] at read
      split at read
      · exact (ih read).trans (List.suffix_cons _ others)
      · cases read

theorem mark_suffix {c : Char} {input rest : Input} (read : mark c input = .ok rest) : rest <:+ input :=
  (word_suffix read).trans (skipSpace_suffix input)

theorem textFrom_suffix {state : TextState} {done cs : List Char} {input rest : Input}
    (read : textFrom state done input = .ok (cs, rest)) : rest <:+ input := by
  induction input generalizing state done with
  | nil => cases read
  | cons item others ih =>
    unfold textFrom at read
    have within := List.suffix_cons item others
    split at read
    · cases read
    · split at read
      · obtain ⟨-, rfl⟩ := Prod.mk.inj (Except.ok.inj read)
        exact within
      · split at read
        · exact (ih read).trans within
        · exact (ih read).trans within
        · cases read

theorem readQuoted_suffix {s : String} {input rest : Input} (read : readQuoted input = .ok (s, rest)) :
    rest <:+ input := by
  unfold readQuoted at read
  split at read
  next cs others inner =>
    obtain ⟨-, rfl⟩ := Prod.mk.inj (Except.ok.inj read)
    exact textFrom_suffix inner
  next => cases read

theorem skipFrom_suffix {mode : SkipMode} {stack : List Bracket} {input rest : Input}
    (read : skipFrom mode stack input = .ok rest) : rest <:+ input := by
  induction input generalizing mode stack with
  | nil =>
    unfold skipFrom at read
    split at read
    · split at read
      · obtain rfl := Except.ok.inj read
        exact List.suffix_refl []
      · cases read
    · cases read
  | cons item others ih =>
    unfold skipFrom at read
    split at read
    · exact (ih read).trans (List.suffix_cons item others)
    · obtain rfl := Except.ok.inj read
      exact List.suffix_cons item others
    · obtain rfl := Except.ok.inj read
      exact List.suffix_refl _
    · cases read

theorem skipValue_suffix {input rest : Input} (read : skipValue input = .ok rest) : rest <:+ input :=
  skipFrom_suffix read

/-- A kind of input that what is left of such an input is of, too. -/
def Lasting (kind : Input → Prop) : Prop :=
  ∀ ⦃input rest : Input⦄, rest <:+ input → kind input → kind rest

/-- From input of a kind a codec reads only such values, and leaves input of that kind. -/
def Codec.Yields {α : Type} (kind : Input → Prop) (codec : Codec α) (shown : α → Prop) : Prop :=
  ∀ ⦃input v rest⦄, kind input → codec.read input = .ok (v, rest) → shown v ∧ kind rest

namespace Fields
variable {kind : Input → Prop}

/-- What a record yields: the values of its fields, and the same of a record that is not complete yet. -/
inductive Yields (kind : Input → Prop) : {γ : Type} → (fields : Fields γ) → (γ → Prop) → (fields.Slots → Prop) → Prop
  | nil : Yields kind .nil (fun _ => True) fun _ => True
  | cons {α β : Type} {name : String} {codec : Codec α} {absent : Absent α} {rest : Fields β} {shown : α → Prop}
      {others : β → Prop} {held : rest.Slots → Prop} (value : codec.Yields kind shown)
      (member : ∀ v, absent.member = some v → shown v) (item : ∀ v, absent.item = some v → shown v)
      (more : rest.Yields kind others held) :
      Yields kind (.cons name codec absent rest) (fun record => shown record.1 ∧ others record.2) fun slots =>
        (∀ v, slots.1 = some v → shown v) ∧ held slots.2

variable {γ : Type} {fields : Fields γ} {shown : γ → Prop} {held : fields.Slots → Prop}

theorem Yields.empty (yields : fields.Yields kind shown held) : held fields.empty := by
  induction yields with
  | nil => trivial
  | cons value member item more ih => exact ⟨fun v filled => absurd filled (by simp [Fields.empty]), ih⟩

theorem Yields.complete? (yields : fields.Yields kind shown held) {slots : fields.Slots} {v : γ} (holds : held slots)
    (complete : fields.complete? slots = some v) : shown v := by
  induction yields with
  | nil => trivial
  | cons value member item more ih =>
    obtain ⟨slot, slots⟩ := slots
    simp only [Fields.complete?] at complete
    split at complete
    next w ws first others =>
      obtain rfl := Option.some.inj complete
      refine ⟨?_, ih holds.2 others⟩
      cases slot with
      | none => exact member w first
      | some u =>
        obtain rfl := Option.some.inj first
        exact holds.1 u rfl
    next => cases complete

theorem Yields.fill? (lasting : Lasting kind) (yields : fields.Yields kind shown held) {key : String}
    {slots next : fields.Slots} {input rest : Input} (is : kind input) (holds : held slots)
    (read : fields.fill? key slots input = some (.ok (next, rest))) : held next ∧ kind rest := by
  induction yields generalizing input with
  | nil => cases read
  | cons value member item more ih =>
    obtain ⟨slot, slots⟩ := slots
    simp only [Fields.fill?] at read
    split at read
    next =>
      split at read
      · cases read
      · cases read
      next value_at colon =>
        split at read
        next w left here =>
          obtain ⟨rfl, rfl⟩ := Prod.mk.inj (Except.ok.inj (Option.some.inj read))
          obtain ⟨shows, after⟩ := value (lasting (mark_suffix colon) is) here
          exact ⟨⟨fun v same => Option.some.inj same ▸ shows, holds.2⟩, after⟩
        next => cases read
    next =>
      split at read
      next left others here =>
        obtain ⟨rfl, rfl⟩ := Prod.mk.inj (Except.ok.inj (Option.some.inj read))
        obtain ⟨keeps, after⟩ := ih is holds.2 here
        exact ⟨⟨holds.1, keeps⟩, after⟩
      · cases read
      · cases read

theorem Yields.member (lasting : Lasting kind) (yields : fields.Yields kind shown held) {key : String}
    {slots next : fields.Slots} {input rest : Input} (is : kind input) (holds : held slots)
    (read : fields.member key slots input = .ok (next, rest)) : held next ∧ kind rest := by
  unfold Fields.member at read
  split at read
  next result filled =>
    subst read
    exact yields.fill? lasting is holds filled
  next =>
    split at read
    next => cases read
    next value colon =>
      obtain ⟨left, skipped, same⟩ := map_ok read
      obtain ⟨rfl, rfl⟩ := Prod.mk.inj same
      exact ⟨holds, lasting ((skipValue_suffix skipped).trans (mark_suffix colon)) is⟩

theorem Yields.membersFrom (lasting : Lasting kind) (yields : fields.Yields kind shown held) {fuel : Nat} {first : Bool}
    {slots last : fields.Slots} {input rest : Input} (is : kind input) (holds : held slots)
    (read : fields.membersFrom fuel first slots input = .ok (last, rest)) : held last ∧ kind rest := by
  induction fuel generalizing first slots input with
  | zero => cases read
  | succ fuel ih =>
    have trimmed := lasting (skipSpace_suffix input) is
    unfold Fields.membersFrom at read
    split at read
    next left closed =>
      obtain ⟨rfl, rfl⟩ := Prod.mk.inj (Except.ok.inj read)
      rw [closed] at trimmed
      exact ⟨holds, lasting (List.suffix_cons _ _) trimmed⟩
    next =>
      have separated : ∀ {name : Input}, (if first then Except.ok (skipSpace input)
          else (mark ',' (skipSpace input)).map skipSpace) = .ok name → kind name := by
        intro name parted
        split at parted
        · obtain rfl := Except.ok.inj parted
          exact trimmed
        · obtain ⟨left, comma, rfl⟩ := map_ok parted
          exact lasting ((skipSpace_suffix left).trans (mark_suffix comma)) trimmed
      simp only at read
      split at read
      next name parted =>
        split at read
        next => cases read
        next key value quoted =>
          split at read
          next => cases read
          next slots left here =>
            have after := lasting ((readQuoted_suffix quoted).trans (List.suffix_cons _ _)) (separated parted)
            obtain ⟨keeps, after⟩ := yields.member lasting after holds here
            exact ih after keeps read
      next => cases read

theorem Yields.items (lasting : Lasting kind) (yields : fields.Yields kind shown held) {first : Bool} {v : γ}
    {input rest : Input} (is : kind input) (read : fields.items first input = .ok (v, rest)) : shown v ∧ kind rest := by
  induction yields generalizing first input rest with
  | nil =>
    obtain ⟨left, closed, same⟩ := map_ok read
    obtain ⟨-, rfl⟩ := Prod.mk.inj same
    exact ⟨trivial, lasting (mark_suffix closed) is⟩
  | cons value member item more ih =>
    have trimmed := lasting (skipSpace_suffix input) is
    unfold Fields.items at read
    split at read
    next closed =>
      split at read
      next w missing =>
        obtain ⟨⟨vs, left⟩, others, same⟩ := map_ok read
        obtain ⟨rfl, rfl⟩ := Prod.mk.inj same
        obtain ⟨shows, after⟩ := ih is others
        exact ⟨⟨item w missing, shows⟩, after⟩
      next => cases read
    next =>
      simp only at read
      split at read
      next => cases read
      next left parted =>
        have after : kind left := by
          split at parted
          · obtain rfl := Except.ok.inj parted
            exact trimmed
          · split at parted
            next separated comma =>
              split at parted
              · cases parted
              · obtain rfl := Except.ok.inj parted
                exact lasting ((skipSpace_suffix separated).trans (mark_suffix comma)) trimmed
            next => cases parted
        split at read
        next => cases read
        next w left here =>
          obtain ⟨⟨vs, left⟩, others, same⟩ := map_ok read
          obtain ⟨rfl, rfl⟩ := Prod.mk.inj same
          obtain ⟨shows, after⟩ := value after here
          obtain ⟨others, after⟩ := ih after others
          exact ⟨⟨shows, others⟩, after⟩

end Fields

/-- A record yields what its fields yield, read from an object or from an array. -/
theorem Codec.yields_record {kind : Input → Prop} (lasting : Lasting kind) {γ : Type} {fields : Fields γ}
    {shown : γ → Prop} {held : fields.Slots → Prop} (yields : fields.Yields kind shown held) :
    (Codec.record fields).Yields kind shown := by
  intro input v rest is read
  have trimmed := lasting (skipSpace_suffix input) is
  simp only [Codec.record] at read
  split at read
  next members opened =>
    rw [opened] at trimmed
    split at read
    next slots left here =>
      obtain ⟨holds, after⟩ := yields.membersFrom lasting (lasting (List.suffix_cons _ _) trimmed) yields.empty here
      unfold admit? at read
      split at read
      next w complete =>
        obtain ⟨rfl, rfl⟩ := Prod.mk.inj (Except.ok.inj read)
        exact ⟨yields.complete? holds complete, after⟩
      next => cases read
    next => cases read
  next items opened =>
    rw [opened] at trimmed
    exact yields.items lasting (lasting (List.suffix_cons _ _) trimmed) read
  next => cases read

end HelpDesk.Json
