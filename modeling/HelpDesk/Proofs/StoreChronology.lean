import HelpDesk.Proofs.StoreHistory

/-! The order of time in a store, if the clock never goes backwards. Whatever is stored was stored before the clock is read
again, so what a request dates is never earlier than anything that is there. -/

namespace HelpDesk.Store

/-- How often the clock is read to carry out a request. -/
def Call.readings : Call → Nat
  | createMessage _ | setStatus _ _ _ => 1
  | start _ _ _ => 2
  | get _ | findActive _ | listActive | listMessages _ _ _ => 0

/-- What the clock shows for a request, in the order in which it is read. -/
def Entry.dates (e : Entry) : List Moment :=
  (List.range e.call.readings).map e.clock

/-- The clock never goes backwards, neither within a request nor from one to another. -/
def Forward (es : List Entry) : Prop :=
  (es.flatMap Entry.dates).Pairwise fun t u => t.nanos ≤ u.nanos

instance (es : List Entry) : Decidable (Forward es) :=
  inferInstanceAs (Decidable (List.Pairwise _ _))

/-- Nothing in the store is dated later than a moment. -/
structure StoredBy (s : Store) (now : Moment) : Prop where
  conversations : ∀ c ∈ s.conversations, c.updatedAt.nanos ≤ now.nanos
  messages : ∀ m ∈ s.messages, m.createdAt.nanos ≤ now.nanos

structure Chronological (s : Store) : Prop where
  rows : ∀ c ∈ s.conversations, c.createdAt.nanos ≤ c.updatedAt.nanos
  messages : s.messages.Pairwise fun m n => m.createdAt.nanos ≤ n.createdAt.nanos
  within : ∀ c ∈ s.conversations, ∀ m ∈ s.messages, m.conversation = c.id →
    c.createdAt.nanos ≤ m.createdAt.nanos ∧ (c.status = .closed → m.createdAt.nanos ≤ c.updatedAt.nanos)
  owners : ∀ c ∈ s.conversations, ∀ d ∈ s.conversations, c.isActive = true → d.status = .closed → d.owner = c.owner →
    d.updatedAt.nanos ≤ c.createdAt.nanos

theorem StoredBy.initial (now : Moment) : StoredBy {} now :=
  ⟨by simp, by simp⟩

theorem Chronological.initial : Chronological {} :=
  ⟨by simp, .nil, by simp, by simp⟩

theorem Entry.clock_mem_dates {e : Entry} {n : Nat} (read : n < e.call.readings) : e.clock n ∈ e.dates :=
  List.mem_map.mpr ⟨n, List.mem_range.mpr read, rfl⟩

theorem StoredBy.next {s : Store} {now : Moment} (stored : s.StoredBy now) {e : Entry}
    (dated : ∀ t ∈ e.dates, t.nanos ≤ now.nanos) : (s.next e).StoredBy now := by
  generalize result : s.next e = after
  cases result ▸ next_changes s e with
  | none => exact stored
  | message draft asked present active =>
    refine ⟨stored.conversations, fun m there => ?_⟩
    rcases List.mem_append.mp there with old | new
    · exact stored.messages m old
    · rw [List.mem_singleton.mp new]
      exact dated _ (Entry.clock_mem_dates (by simp [asked, Call.readings]))
  | status later given asked present moves =>
    refine ⟨fun c there => ?_, stored.messages⟩
    rcases mem_put.mp there with ⟨old, -⟩ | ⟨rfl, -⟩
    · exact stored.conversations c old
    · exact dated _ (Entry.clock_mem_dates (by simp [asked, Call.readings]))
  | start c m asked vacant row opening =>
    refine ⟨fun d there => ?_, fun n there => ?_⟩ <;> rcases List.mem_append.mp there with old | new
    · exact stored.conversations d old
    · rw [List.mem_singleton.mp new, row]
      exact dated _ (Entry.clock_mem_dates (by simp [asked, Call.readings]))
    · exact stored.messages n old
    · rw [List.mem_singleton.mp new, opening]
      exact dated _ (Entry.clock_mem_dates (by simp [asked, Call.readings]))

section Step
variable {s : Store} (chronological : Chronological s) (valid : Valid s)
include chronological valid

/-- An active conversation gets a message that is the latest of all. -/
theorem Chronological.append {now : Moment} (stored : s.StoredBy now) {draft : Draft} {c : Conversation}
    (present : s.get? draft.conversation = some c) (active : c.isActive = true) (id : MessageId) :
    Chronological (s.append now id draft).2 := by
  refine ⟨chronological.rows, ?_, ?_, chronological.owners⟩
  · refine List.pairwise_append.mpr ⟨chronological.messages, List.pairwise_singleton _ _, fun m old n new => ?_⟩
    rw [List.mem_singleton.mp new]
    exact stored.messages m old
  · intro d there m member same
    rcases List.mem_append.mp member with old | new
    · exact chronological.within d there m old same
    · obtain rfl := List.mem_singleton.mp new
      have own : d = c :=
        List.inj_on_of_nodup_map valid.ids there (mem_of_get? present) (same.symm.trans (get?_id present).symm)
      refine ⟨Int.le_trans (chronological.rows d there) (stored.conversations d there), fun closed => ?_⟩
      exact absurd closed (closed_of_not_active (own ▸ active))

/-- A conversation that is moved is dated later than everything. -/
theorem Chronological.put {now : Moment} (stored : s.StoredBy now) {c : Conversation} (present : s.get? c.id = some c)
    {later : Status} (moves : Moves c.status later) (assignee : Option UserId) :
    Chronological (s.put { c with status := later, assignee, updatedAt := now }) := by
  have there := mem_of_get? present
  have active := isActive_of_moves moves
  have created : c.createdAt.nanos ≤ now.nanos := Int.le_trans (chronological.rows c there) (stored.conversations c there)
  refine ⟨?_, chronological.messages, ?_, ?_⟩
  · intro d member
    rcases mem_put.mp member with ⟨old, -⟩ | ⟨rfl, -⟩
    · exact chronological.rows d old
    · exact created
  · intro d member m sent same
    rcases mem_put.mp member with ⟨old, -⟩ | ⟨rfl, -⟩
    · exact chronological.within d old m sent same
    · exact ⟨(chronological.within c there m sent same).1, fun _ => stored.messages m sent⟩
  · intro x first y last running closed owner
    rcases mem_put.mp first with ⟨old, other⟩ | ⟨rfl, -⟩ <;> rcases mem_put.mp last with ⟨before, apart⟩ | ⟨rfl, -⟩
    · exact chronological.owners x old y before running closed owner
    · -- only one conversation of an owner is active, so the one that is closed now was not this owner's
      have same := (valid.findActive_eq_some_iff.mpr ⟨old, running, rfl⟩).symm.trans
        (valid.findActive_eq_some_iff.mpr ⟨there, active, owner⟩)
      exact absurd (congrArg (·.id) (Option.some.inj same)) other
    · exact chronological.owners c there y before active closed owner
    · exact absurd closed (closed_of_not_active running)

/-- A conversation that is started is created after everything, and its message is sent after that. -/
theorem Chronological.create {now sent : Moment} (stored : s.StoredBy now) (later : s.StoredBy sent)
    (forward : now.nanos ≤ sent.nanos) {c : Conversation} (unused : s.get? c.id = none) (pending : c.status = .pending)
    (created : c.createdAt = now) (updated : c.updatedAt = now) {m : Message} (own : m.conversation = c.id)
    (dated : m.createdAt = sent) : Chronological ⟨s.conversations ++ [c], s.messages ++ [m]⟩ := by
  have active : c.status ≠ .closed := by
    rw [pending]
    decide
  refine ⟨?_, ?_, ?_, ?_⟩
  · intro d there
    rcases List.mem_append.mp there with old | new
    · exact chronological.rows d old
    · obtain rfl := List.mem_singleton.mp new
      exact Int.le_of_eq (congrArg (·.nanos) (created.trans updated.symm))
  · refine List.pairwise_append.mpr ⟨chronological.messages, List.pairwise_singleton _ _, fun n old x new => ?_⟩
    rw [List.mem_singleton.mp new, dated]
    exact later.messages n old
  · intro d there n member same
    rcases List.mem_append.mp there with old | new <;> rcases List.mem_append.mp member with before | fresh
    · exact chronological.within d old n before same
    · rw [List.mem_singleton.mp fresh, own] at same
      exact absurd same.symm (get?_eq_none_iff.mp unused d old)
    · obtain ⟨e, present, known⟩ := valid.messages n before
      rw [List.mem_singleton.mp new] at same
      exact absurd (known.trans same) (get?_eq_none_iff.mp unused e present)
    · rw [List.mem_singleton.mp new, List.mem_singleton.mp fresh, created, dated]
      exact ⟨forward, fun closed => absurd closed active⟩
  · intro x first y last running closed owner
    rcases List.mem_append.mp last with before | new
    · rcases List.mem_append.mp first with old | new
      · exact chronological.owners x old y before running closed owner
      · rw [List.mem_singleton.mp new, created]
        exact stored.conversations y before
    · rw [List.mem_singleton.mp new] at closed
      exact absurd closed active

theorem Chronological.next {e : Entry} (fresh : Fresh s [e]) (stored : ∀ t ∈ e.dates, s.StoredBy t)
    (forward : Forward [e]) : Chronological (s.next e) := by
  generalize result : s.next e = after
  cases result ▸ next_changes s e with
  | none => exact chronological
  | message draft asked present active =>
    have now := stored _ (Entry.clock_mem_dates (by simp [asked, Call.readings]) : e.clock 0 ∈ e.dates)
    exact chronological.append valid now present active _
  | status later given asked present moves =>
    have now := stored _ (Entry.clock_mem_dates (by simp [asked, Call.readings]) : e.clock 0 ∈ e.dates)
    exact chronological.put valid now present moves _
  | start c m asked vacant row opening =>
    have dates : e.dates = [e.clock 0, e.clock 1] := by
      simp [Entry.dates, asked, Call.readings, List.range_succ]
    have order : (e.clock 0).nanos ≤ (e.clock 1).nanos := by
      simpa [Forward, dates] using forward
    have unused : s.get? c.id = Option.none := by
      rw [row]
      exact fresh.unused (by simp [asked, Call.creates])
    rw [dates] at stored
    refine chronological.create valid (stored _ (by simp)) (stored _ (by simp)) order unused ?_ ?_ ?_ ?_ ?_
    all_goals simp [row, opening]

theorem Chronological.after {es : List Entry} (fresh : Fresh s es)
    (stored : ∀ t ∈ es.flatMap Entry.dates, s.StoredBy t) (forward : Forward es) : Chronological (s.after es) := by
  induction es generalizing s with
  | nil => exact chronological
  | cons e es ih =>
    have first : Fresh s ([e] ++ es) := fresh
    obtain ⟨within, beyond, across⟩ := List.pairwise_append.mp forward
    have now : ∀ t ∈ e.dates, s.StoredBy t := fun t there => stored t (List.mem_append_left _ there)
    have single : Forward [e] := by
      rwa [Forward, List.flatMap_singleton]
    refine ih (chronological.next valid first.left now single) (valid.next first.left) fresh.next ?_ beyond
    intro t there
    exact (stored t (List.mem_append_right _ there)).next fun u earlier => across u earlier t there

end Step

/-- If the clock never goes backwards, then in every store that a run comes to: no conversation is updated before it is
created; every page of its messages is in the order in which they were created; none of them is older than the conversation,
or newer than its end; and whoever has an active conversation has it since the end of those before, or later. -/
theorem chronology (es : List Entry) (fresh : Fresh {} es) (forward : Forward es) :
    ∀ c ∈ (after {} es).conversations,
      c.createdAt.nanos ≤ c.updatedAt.nanos ∧
      (∀ limit offset, ∃ page, (after {} es).listMessages c.id limit offset = .ok page ∧
        page.Pairwise fun m n => m.createdAt.nanos ≤ n.createdAt.nanos) ∧
      (∀ m ∈ (after {} es).history c.id, c.createdAt.nanos ≤ m.createdAt.nanos ∧
        (c.status = .closed → m.createdAt.nanos ≤ c.updatedAt.nanos)) ∧
      (c.isActive = true → ∀ d ∈ (after {} es).conversations, d.owner = c.owner → d.status = .closed →
        d.updatedAt.nanos ≤ c.createdAt.nanos) := by
  have valid : Valid (after {} es) := Valid.initial.after fresh
  have chronological : Chronological (after {} es) :=
    Chronological.initial.after .initial fresh (fun t _ => .initial t) forward
  intro c there
  refine ⟨chronological.rows c there, fun limit offset => ?_, fun m member => ?_, ?_⟩
  · refine ⟨(((after {} es).history c.id).drop offset.toNat).take limit.toNat, ?_, ?_⟩
    · rw [listMessages, get?_of_mem valid.ids there]
    · have history := chronological.messages.sublist (List.filter_sublist (p := (·.conversation == c.id)))
      exact history.sublist ((List.take_sublist _ _).trans (List.drop_sublist _ _))
  · obtain ⟨sent, own⟩ := List.mem_filter.mp member
    exact chronological.within c there m sent (beq_iff_eq.mp own)
  · intro active d present mine closed
    exact chronological.owners c there d present active closed mine

/-- An owner starts again in the very second in which the first conversation was closed. -/
theorem chronology_of_second_start :
    let customer : Identity := ⟨⟨.ofNat 1⟩, .user⟩
    let es : List Entry := [.at 10 (.start customer "a" "b"), .at 11 (.createMessage (.ofSender ⟨.ofNat 100⟩ customer "c")),
      .at 12 (.setStatus ⟨.ofNat 100⟩ .closed none),
      { Entry.at 12 (.start customer "a" "d") with clock := fun n => .ofUnix (12 + n) 0 }]
    let c : Conversation := ⟨⟨.ofNat 120⟩, customer.user, none, "a", .pending, .ofUnix 12 0, .ofUnix 12 0⟩
    let d : Conversation := ⟨⟨.ofNat 100⟩, customer.user, none, "a", .closed, .ofUnix 10 0, .ofUnix 12 0⟩
    Fresh {} es ∧ Forward es ∧ c ∈ (after {} es).conversations ∧ d ∈ (after {} es).conversations ∧
      d.updatedAt.nanos ≤ c.createdAt.nanos ∧
      ∀ m ∈ (after {} es).history d.id, d.createdAt.nanos ≤ m.createdAt.nanos ∧ m.createdAt.nanos ≤ d.updatedAt.nanos := by
  intro customer es c d
  have fresh : Fresh {} es := by decide
  have forward : Forward es := by decide
  have second : c ∈ (after {} es).conversations := by decide
  have first : d ∈ (after {} es).conversations := by decide
  obtain ⟨-, -, -, since⟩ := chronology es fresh forward c second
  obtain ⟨-, -, within, -⟩ := chronology es fresh forward d first
  refine ⟨fresh, forward, second, first, since rfl d first rfl rfl, fun m member => ?_⟩
  exact (within m member).imp_right fun last => last rfl

end HelpDesk.Store
