import HelpDesk.Store

/-! Runs of a store: requests of any callers, one after the other. Each comes with what the clock shows while
it is carried out and with the identifiers that are generated for it. A request that fails changes nothing,
and a request that succeeds changes the tables in one of three ways. -/

namespace HelpDesk.Store

structure Entry where
  clock : Nat → Moment
  fresh : Nat → Uuid
  call : Call

def Entry.generated (e : Entry) : List Uuid :=
  (List.range e.call.creates).map e.fresh

/-- A request at a second. The identifiers are those of no request at another second. -/
def Entry.at (second : Nat) (call : Call) : Entry where
  clock _ := .ofUnix second 0
  fresh n := .ofNat (10 * second + n)
  call := call

def next (s : Store) (e : Entry) : Store :=
  match s.perform e.clock e.fresh e.call with
  | .ok (_, s) => s
  | .error _ => s

def after (s : Store) (es : List Entry) : Store :=
  es.foldl next s

@[simp] theorem after_nil (s : Store) : s.after [] = s := rfl

@[simp] theorem after_cons (s : Store) (e : Entry) (es : List Entry) : s.after (e :: es) = (s.next e).after es := rfl

theorem after_append (s : Store) (first last : List Entry) : s.after (first ++ last) = (s.after first).after last :=
  List.foldl_append

/-- The stores that a run passes through, from the first to the last. -/
def states (s : Store) : List Entry → List Store
  | [] => [s]
  | e :: es => s :: states (s.next e) es

/-- No identifier is generated twice, and none is that of a conversation that is stored already. -/
def Fresh (s : Store) (es : List Entry) : Prop :=
  (s.conversations.map (·.id.uuid) ++ es.flatMap Entry.generated).Nodup

instance (s : Store) (es : List Entry) : Decidable (Fresh s es) :=
  inferInstanceAs (Decidable (List.Nodup _))

inductive Moves : Status → Status → Prop
  | opens : Moves .pending .opened
  | lapses : Moves .pending .closed
  | closes : Moves .opened .closed

theorem canBecome_iff_moves (before after : Status) : before.canBecome after = true ↔ Moves before after := by
  constructor
  · intro allowed
    cases before <;> cases after <;> first | exact .opens | exact .lapses | exact .closes | cases allowed
  · intro moves
    cases moves <;> rfl

theorem Moves.trans {first middle last : Status} (a : Moves first middle) (b : Moves middle last) : Moves first last := by
  cases a <;> cases b
  exact .lapses

/-- What a request that succeeds answers, and what it makes of the store. -/
inductive Performed (s : Store) (clock : Nat → Moment) (fresh : Nat → Uuid) :
    (call : Call) → call.Answer → Store → Prop
  | got {id : ConversationId} {c : Conversation} (stored : s.get? id = some c) : Performed s clock fresh (.get id) c s
  | foundActive {owner : UserId} : Performed s clock fresh (.findActive owner) (s.findActive owner) s
  | listedActive : Performed s clock fresh .listActive s.listActive s
  | listedMessages {id : ConversationId} {limit offset : Int} {page : List Message}
      (listed : s.listMessages id limit offset = .ok page) :
      Performed s clock fresh (.listMessages id limit offset) page s
  | posted {draft : Draft} {c : Conversation} (stored : s.get? draft.conversation = some c) (active : c.isActive = true) :
      Performed s clock fresh (.createMessage draft) (s.append (clock 0) ⟨fresh 0⟩ draft).1
        (s.append (clock 0) ⟨fresh 0⟩ draft).2
  | moved {id : ConversationId} {status : Status} {assignee : Option UserId} {c d : Conversation}
      (stored : s.get? id = some c) (moves : Moves c.status status)
      (row : d = { c with status, assignee := assignee <|> c.assignee, updatedAt := clock 0 }) :
      Performed s clock fresh (.setStatus id status assignee) d (s.put d)
  | alreadyOpen {starter : Identity} {label content : String} {c : Conversation}
      (active : s.findActive starter.user = some c) :
      Performed s clock fresh (.start starter label content) (Start.alreadyOpen c) s
  | created {starter : Identity} {label content : String} {c : Conversation} {m : Message}
      (vacant : s.findActive starter.user = none)
      (row : c = ⟨⟨fresh 0⟩, starter.user, none, label, .pending, clock 0, clock 0⟩)
      (opening : m = ⟨⟨fresh 1⟩, c.id, starter.user, content, starter.role.isSystem, starter.role.isAdmin, clock 1⟩) :
      Performed s clock fresh (.start starter label content) (Start.created c m)
        ⟨s.conversations ++ [c], s.messages ++ [m]⟩

/-- What a request can do to the tables: nothing, if it only reads or if it fails; or add a message to an
active conversation, move a conversation on, or add a conversation with a message in it. -/
inductive Change (s : Store) (e : Entry) : Store → Prop
  | none : Change s e s
  | message {c : Conversation} (draft : Draft) (asked : e.call = .createMessage draft)
      (stored : s.get? draft.conversation = some c) (active : c.isActive = true) :
      Change s e (s.append (e.clock 0) ⟨e.fresh 0⟩ draft).2
  | status {c : Conversation} (later : Status) (given : Option UserId) (asked : e.call = .setStatus c.id later given)
      (stored : s.get? c.id = some c) (moves : Moves c.status later) :
      Change s e (s.put { c with status := later, assignee := given <|> c.assignee, updatedAt := e.clock 0 })
  | start {starter : Identity} {label content : String} (c : Conversation) (m : Message)
      (asked : e.call = .start starter label content) (vacant : s.findActive starter.user = Option.none)
      (row : c = ⟨⟨e.fresh 0⟩, starter.user, Option.none, label, .pending, e.clock 0, e.clock 0⟩)
      (opening : m = ⟨⟨e.fresh 1⟩, c.id, starter.user, content, starter.role.isSystem, starter.role.isAdmin, e.clock 1⟩) :
      Change s e ⟨s.conversations ++ [c], s.messages ++ [m]⟩

theorem get?_id {s : Store} {id : ConversationId} {c : Conversation} (stored : s.get? id = some c) : c.id = id := by
  simpa using List.find?_some stored

theorem mem_of_get? {s : Store} {id : ConversationId} {c : Conversation} (stored : s.get? id = some c) :
    c ∈ s.conversations :=
  List.mem_of_find?_eq_some stored

theorem get?_eq_none_iff {s : Store} {id : ConversationId} : s.get? id = none ↔ ∀ c ∈ s.conversations, c.id ≠ id := by
  simp [get?, List.find?_eq_none]

theorem performed_of_ok {s t : Store} {clock : Nat → Moment} {fresh : Nat → Uuid} {call : Call} {answer : call.Answer}
    (carried : s.perform clock fresh call = .ok (answer, t)) : Performed s clock fresh call answer t := by
  cases call with
  | get id =>
    simp only [perform, get] at carried
    cases stored : s.get? id with
    | none =>
      rw [stored] at carried
      cases carried
    | some c =>
      rw [stored] at carried
      cases carried
      exact .got stored
  | findActive owner =>
    cases carried
    exact .foundActive
  | listActive =>
    cases carried
    exact .listedActive
  | listMessages id limit offset =>
    simp only [perform] at carried
    cases listed : s.listMessages id limit offset with
    | error error =>
      rw [listed] at carried
      cases carried
    | ok page =>
      rw [listed] at carried
      cases carried
      exact .listedMessages listed
  | createMessage draft =>
    simp only [perform, createMessage] at carried
    cases stored : s.get? draft.conversation with
    | none => simp [stored] at carried
    | some c =>
      simp only [stored] at carried
      split at carried
      · cases carried
      · next active =>
        cases carried
        exact .posted stored (by simpa [Conversation.isActive] using active)
  | setStatus id status assignee =>
    simp only [perform, setStatus] at carried
    cases stored : s.get? id with
    | none => simp [stored] at carried
    | some c =>
      simp only [stored] at carried
      split at carried
      · next allowed =>
        cases carried
        exact .moved stored ((canBecome_iff_moves _ _).mp allowed) rfl
      · cases carried
  | start starter label content =>
    simp only [perform, start] at carried
    cases vacant : s.findActive starter.user with
    | some c =>
      simp only [vacant] at carried
      cases carried
      exact .alreadyOpen vacant
    | none =>
      simp only [vacant] at carried
      cases carried
      exact .created vacant rfl rfl

/-- Every request makes one of these changes. -/
theorem next_changes (s : Store) (e : Entry) : Change s e (s.next e) := by
  obtain ⟨clock, fresh, call⟩ := e
  simp only [next]
  cases carried : s.perform clock fresh call with
  | error error => exact .none
  | ok result =>
    obtain ⟨answer, t⟩ := result
    cases performed_of_ok carried with
    | got | foundActive | listedActive | listedMessages | alreadyOpen => exact .none
    | posted stored active => exact .message (e := ⟨clock, fresh, _⟩) _ rfl stored active
    | moved stored moves row =>
      obtain rfl := get?_id stored
      rw [row]
      exact .status (e := ⟨clock, fresh, _⟩) _ _ rfl stored moves
    | created vacant row opening => exact .start (e := ⟨clock, fresh, _⟩) _ _ rfl vacant row opening

/-- What a replacement has in common with the conversation it replaces is the same in the whole table. -/
theorem map_put {β : Type} (s : Store) (c : Conversation) (f : Conversation → β)
    (same : ∀ d ∈ s.conversations, d.id = c.id → f c = f d) :
    (s.put c).conversations.map f = s.conversations.map f := by
  simp only [put, List.map_map]
  apply List.map_congr_left
  intro d member
  by_cases replaced : d.id = c.id
  · simpa [replaced] using same d member replaced
  · simp [replaced]

theorem mem_put {s : Store} {c d : Conversation} :
    d ∈ (s.put c).conversations ↔ d ∈ s.conversations ∧ d.id ≠ c.id ∨ d = c ∧ ∃ old ∈ s.conversations, old.id = c.id := by
  constructor
  · intro member
    obtain ⟨old, present, rfl⟩ := List.mem_map.mp member
    by_cases replaced : old.id = c.id
    · exact Or.inr ⟨by simp [replaced], old, present, replaced⟩
    · exact Or.inl (by simpa [replaced] using present)
  · rintro (⟨present, other⟩ | ⟨rfl, old, present, replaced⟩)
    · exact List.mem_map.mpr ⟨d, present, by simp [other]⟩
    · exact List.mem_map.mpr ⟨old, present, by simp [replaced]⟩

theorem setStatus_of_moves {s : Store} {c : Conversation} {later : Status} (now : Moment) (given : Option UserId)
    (stored : s.get? c.id = some c) (moves : Moves c.status later) :
    s.setStatus now c.id later given =
      let moved := { c with status := later, assignee := given <|> c.assignee, updatedAt := now }
      .ok (moved, s.put moved) := by
  simp only [setStatus, stored, (canBecome_iff_moves _ _).mpr moves, if_true]

/-- The identifiers of the conversations only ever become more, and each new one was generated. -/
theorem ids_next (s : Store) (e : Entry) : ∃ new, new.Sublist e.generated ∧
    (s.next e).conversations.map (·.id.uuid) = s.conversations.map (·.id.uuid) ++ new := by
  generalize result : s.next e = after
  cases result ▸ next_changes s e with
  | none => exact ⟨[], List.nil_sublist _, by simp⟩
  | message draft asked stored active => exact ⟨[], List.nil_sublist _, by simp [append]⟩
  | status later given asked stored moves =>
    refine ⟨[], List.nil_sublist _, ?_⟩
    rw [List.append_nil]
    exact map_put _ _ _ fun d member replaced => congrArg (·.uuid) replaced.symm
  | start c m asked vacant row opening =>
    refine ⟨[e.fresh 0], ?_, by simp [row]⟩
    simp [Entry.generated, asked, Call.creates, List.range_succ]

theorem Fresh.next {s : Store} {e : Entry} {es : List Entry} (fresh : Fresh s (e :: es)) : Fresh (s.next e) es := by
  obtain ⟨new, generated, ids⟩ := ids_next s e
  simp only [Fresh, List.flatMap_cons, ids, List.append_assoc] at fresh ⊢
  exact fresh.sublist ((List.Sublist.refl _).append (generated.append (List.Sublist.refl _)))

theorem Fresh.after {s : Store} {first last : List Entry} (fresh : Fresh s (first ++ last)) :
    Fresh (s.after first) last := by
  induction first generalizing s with
  | nil => exact fresh
  | cons e es ih => exact ih fresh.next

theorem Fresh.left {s : Store} {first last : List Entry} (fresh : Fresh s (first ++ last)) : Fresh s first := by
  simp only [Fresh, List.flatMap_append, ← List.append_assoc] at fresh ⊢
  exact fresh.sublist (List.sublist_append_left _ _)

theorem Fresh.ids {s : Store} {es : List Entry} (fresh : Fresh s es) : (s.conversations.map (·.id)).Nodup := by
  have distinct : (s.conversations.map (·.id.uuid)).Nodup := fresh.sublist (List.sublist_append_left _ _)
  rw [List.nodup_iff_pairwise_ne, List.pairwise_map] at distinct ⊢
  exact distinct.imp fun different same => different (congrArg (·.uuid) same)

/-- The identifier for what a request creates is that of no stored conversation. -/
theorem Fresh.unused {s : Store} {e : Entry} {es : List Entry} (fresh : Fresh s (e :: es)) (creates : 0 < e.call.creates) :
    s.get? ⟨e.fresh 0⟩ = none := by
  refine get?_eq_none_iff.mpr fun c member same => ?_
  have generated : e.fresh 0 ∈ (e :: es).flatMap Entry.generated := by
    rw [List.flatMap_cons]
    exact List.mem_append_left _ (List.mem_map.mpr ⟨0, List.mem_range.mpr creates, rfl⟩)
  have stored : e.fresh 0 ∈ s.conversations.map (·.id.uuid) := List.mem_map.mpr ⟨c, member, congrArg (·.uuid) same⟩
  exact (List.nodup_append.mp fresh).2.2 _ stored _ generated rfl

end HelpDesk.Store
