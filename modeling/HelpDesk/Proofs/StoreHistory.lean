import HelpDesk.Proofs.StoreInvariant

/-! What becomes of a conversation in a run. Its row is never lost and only moves on; once it is closed, neither the
row nor its messages change. -/

namespace HelpDesk.Store

/-- The row `d` is what may have become of the row `c`. -/
structure Follows (c d : Conversation) : Prop where
  id : d.id = c.id
  owner : d.owner = c.owner
  label : d.label = c.label
  createdAt : d.createdAt = c.createdAt
  status : c.status = d.status ∨ Moves c.status d.status
  closed : c.status = .closed → d = c

theorem Follows.refl (c : Conversation) : Follows c c :=
  ⟨rfl, rfl, rfl, rfl, Or.inl rfl, fun _ => rfl⟩

theorem Follows.trans {c d e : Conversation} (first : Follows c d) (last : Follows d e) : Follows c e := by
  refine ⟨last.id.trans first.id, last.owner.trans first.owner, last.label.trans first.label,
    last.createdAt.trans first.createdAt, ?_, ?_⟩
  · rcases first.status with same | moves
    · rw [same]; exact last.status
    · rcases last.status with same | further
      · rw [← same]; exact Or.inr moves
      · exact Or.inr (moves.trans further)
  · intro closed
    have same := first.closed closed
    subst same
    exact last.closed closed

structure Grows (before after : Store) : Prop where
  rows : ∀ id c, before.get? id = some c → ∃ d, after.get? id = some d ∧ Follows c d
  messages : before.messages <+: after.messages
  closed : ∀ id c, before.get? id = some c → c.status = .closed → after.history id = before.history id

theorem Grows.refl (s : Store) : Grows s s :=
  ⟨fun _ c stored => ⟨c, stored, .refl c⟩, List.prefix_rfl, fun _ _ _ _ => rfl⟩

theorem Grows.trans {before middle after : Store} (first : Grows before middle) (last : Grows middle after) :
    Grows before after := by
  refine ⟨?_, first.messages.trans last.messages, ?_⟩
  · intro id c stored
    obtain ⟨d, present, follows⟩ := first.rows id c stored
    obtain ⟨e, found, further⟩ := last.rows id d present
    exact ⟨e, found, follows.trans further⟩
  · intro id c stored closed
    obtain ⟨d, present, follows⟩ := first.rows id c stored
    have same := follows.closed closed
    subst same
    exact (last.closed id d present closed).trans (first.closed id d stored closed)

theorem history_snoc (conversations : List Conversation) (messages : List Message) (m : Message) (id : ConversationId) :
    history ⟨conversations, messages ++ [m]⟩ id =
      history ⟨conversations, messages⟩ id ++ if m.conversation = id then [m] else [] := by
  by_cases within : m.conversation = id <;> simp [history, within]

theorem closed_of_not_active {c : Conversation} (active : c.isActive = true) : c.status ≠ .closed := by
  intro closed
  simp [Conversation.isActive, closed, Status.isFinal] at active

/-- No request loses a conversation, whatever identifiers are generated. -/
theorem row_next {s : Store} {id : ConversationId} {c : Conversation} (stored : s.get? id = some c) (e : Entry) :
    ∃ d, (s.next e).get? id = some d ∧ Follows c d := by
  generalize result : s.next e = after
  cases result ▸ next_changes s e with
  | none => exact ⟨c, stored, .refl c⟩
  | message draft asked present active => exact ⟨c, stored, .refl c⟩
  | start d m asked vacant row opening => exact ⟨c, by simpa [get?, List.find?_append] using Or.inl stored, .refl c⟩
  | @status d later given asked present moves =>
    by_cases same : id = d.id
    · subst same
      obtain rfl := Option.some.inj (present.symm.trans stored)
      refine ⟨_, get?_put_self ?_, rfl, rfl, rfl, rfl, Or.inr moves, ?_⟩
      · simp [stored]
      · intro closed
        exact (closed_of_not_active (isActive_of_moves moves) closed).elim
    · refine ⟨c, (get?_put_of_ne s ?_).trans stored, .refl c⟩
      exact same

theorem row_after {s : Store} {id : ConversationId} {c : Conversation} (stored : s.get? id = some c) (es : List Entry) :
    ∃ d, (s.after es).get? id = some d ∧ Follows c d := by
  induction es generalizing s c with
  | nil => exact ⟨c, stored, .refl c⟩
  | cons e es ih =>
    obtain ⟨d, there, follows⟩ := row_next stored e
    obtain ⟨f, last, further⟩ := ih there
    exact ⟨f, last, follows.trans further⟩

theorem Grows.next {s : Store} {e : Entry} (fresh : Fresh s [e]) : Grows s (s.next e) := by
  have rows : ∀ id c, s.get? id = some c → ∃ d, (s.next e).get? id = some d ∧ Follows c d :=
    fun id c stored => row_next stored e
  generalize result : s.next e = after at rows
  cases result ▸ next_changes s e with
  | none => exact .refl s
  | @message c draft asked stored active =>
    refine ⟨rows, List.prefix_append _ _, ?_⟩
    intro id d present closed
    have other : draft.conversation ≠ id := by
      rintro rfl
      obtain rfl := Option.some.inj (stored.symm.trans present)
      exact closed_of_not_active active closed
    exact (history_snoc _ _ _ _).trans (by simp [other, history])
  | status later given asked stored moves => exact ⟨rows, List.prefix_rfl, fun _ _ _ _ => rfl⟩
  | start c m asked vacant row opening =>
    refine ⟨rows, List.prefix_append _ _, ?_⟩
    intro id d present closed
    have unused := fresh.unused (by simp [asked, Call.creates])
    have other : m.conversation ≠ id := by
      rintro rfl
      rw [opening, row] at present
      rw [unused] at present
      cases present
    exact (history_snoc _ _ _ _).trans (by simp [other, history])

theorem Grows.after {s : Store} {es : List Entry} (fresh : Fresh s es) : Grows s (s.after es) := by
  induction es generalizing s with
  | nil => exact .refl s
  | cons e es ih =>
    have first : Fresh s ([e] ++ es) := fresh
    exact (Grows.next first.left).trans (ih fresh.next)

theorem states_grow {s : Store} {es : List Entry} (fresh : Fresh s es) :
    (∀ t ∈ states s es, Grows s t) ∧ (states s es).IsChain Grows := by
  induction es generalizing s with
  | nil => exact ⟨by simp [states, Grows.refl], .singleton _⟩
  | cons e es ih =>
    have first : Fresh s ([e] ++ es) := fresh
    have growth := Grows.next first.left
    obtain ⟨later, chain⟩ := ih fresh.next
    refine ⟨?_, ?_⟩
    · intro t member
      rcases List.mem_cons.mp member with rfl | member
      · exact .refl t
      · exact growth.trans (later t member)
    · cases es <;> exact .cons_cons growth chain

theorem rows_follow {s : Store} {es : List Entry} (fresh : Fresh s es) {id : ConversationId} {c : Conversation}
    (stored : s.get? id = some c) :
    ∃ rows : List Conversation, (states s es).map (·.get? id) = rows.map some ∧ rows.head? = some c ∧ rows.IsChain Follows := by
  induction es generalizing s c with
  | nil => exact ⟨[c], by simp [states, stored], rfl, .singleton _⟩
  | cons e es ih =>
    have first : Fresh s ([e] ++ es) := fresh
    obtain ⟨d, present, follows⟩ := (Grows.next first.left).rows id c stored
    obtain ⟨rows, same, head, chain⟩ := ih fresh.next present
    refine ⟨c :: rows, by simp [states, stored, same], rfl, ?_⟩
    obtain ⟨rest, rfl⟩ := List.head?_eq_some_iff.mp head
    exact .cons_cons follows chain

theorem follows_of_chain {rows : List Conversation} {c : Conversation} (head : rows.head? = some c)
    (chain : rows.IsChain Follows) : ∀ d ∈ rows, Follows c d := by
  obtain ⟨rest, rfl⟩ := List.head?_eq_some_iff.mp head
  intro d member
  rcases List.mem_cons.mp member with rfl | member
  · exact .refl d
  · have : IsTrans Conversation Follows := ⟨fun _ _ _ => Follows.trans⟩
    exact (List.pairwise_cons.mp chain.pairwise).1 d member

theorem get?_of_start {s t : Store} {now sent : Moment} {id : ConversationId} {opening : MessageId}
    {starter : Identity} {label content : String} {c : Conversation} {m : Message} (unused : s.get? id = none)
    (started : s.start now sent id opening starter label content = (.created c m, t)) : t.get? c.id = some c := by
  unfold start at started
  cases vacant : s.findActive starter.user with
  | some d => simp [vacant] at started
  | none =>
    simp only [vacant, append, Prod.mk.injEq, Start.created.injEq] at started
    obtain ⟨⟨rfl, -⟩, rfl⟩ := started
    simp only [get?, List.find?_append]
    rw [show s.conversations.find? (·.id == id) = none from unused]
    simp

theorem get?_of_setStatus {s t : Store} {now : Moment} {id : ConversationId} {status : Status}
    {assignee : Option UserId} {c : Conversation} (moved : s.setStatus now id status assignee = .ok (c, t)) :
    t.get? c.id = some c := by
  unfold setStatus at moved
  cases stored : s.get? id with
  | none => simp [stored] at moved
  | some d =>
    simp only [stored] at moved
    split at moved
    · cases moved
      refine get?_put_self ?_
      simp [get?_id stored, stored]
    · cases moved

/-- In the stores that follow one another in a run, the messages only grow at their end. A conversation that is there
stays; who owns it, its label and when it was created stay; its status goes from pending to open or closed and from open to
closed; and once it is closed, its row and its messages stay as they are. -/
theorem conversation_history (earlier later : List Entry) (fresh : Fresh {} (earlier ++ later)) :
    (states (after {} earlier) later).IsChain (fun s t => s.messages <+: t.messages) ∧
    ∀ c ∈ (after {} earlier).conversations,
      (∃ rows : List Conversation, (states (after {} earlier) later).map (·.get? c.id) = rows.map some ∧ rows.head? = some c ∧
        (∀ d ∈ rows, d.id = c.id ∧ d.owner = c.owner ∧ d.label = c.label ∧ d.createdAt = c.createdAt) ∧
        rows.IsChain fun d e => d.status = e.status ∨ Moves d.status e.status) ∧
      (c.status = .closed → ∀ t ∈ states (after {} earlier) later,
        t.get? c.id = some c ∧ t.history c.id = (after {} earlier).history c.id) := by
  have valid : Valid (after {} earlier) := Valid.initial.after fresh.left
  obtain ⟨grows, chain⟩ := states_grow fresh.after
  refine ⟨chain.imp fun _ _ growth => growth.messages, ?_⟩
  intro c member
  have stored := get?_of_mem valid.ids member
  refine ⟨?_, ?_⟩
  · obtain ⟨rows, same, head, path⟩ := rows_follow fresh.after stored
    refine ⟨rows, same, head, ?_, path.imp fun _ _ follows => follows.status⟩
    intro d inside
    have follows := follows_of_chain head path d inside
    exact ⟨follows.id, follows.owner, follows.label, follows.createdAt⟩
  · intro closed t inside
    obtain ⟨d, present, follows⟩ := (grows t inside).rows c.id c stored
    rw [follows.closed closed] at present
    exact ⟨present, (grows t inside).closed c.id c stored closed⟩

/-- A closed conversation outlives a second close, a message and the owner's next start. -/
theorem conversation_history_after_close :
    let customer : Identity := ⟨⟨.ofNat 1⟩, .user⟩
    let earlier : List Entry := [.at 10 (.start customer "a" "b"), .at 11 (.setStatus ⟨.ofNat 100⟩ .closed none)]
    let later : List Entry := [.at 12 (.setStatus ⟨.ofNat 100⟩ .opened none),
      .at 13 (.createMessage (.ofSender ⟨.ofNat 100⟩ customer "c")), .at 14 (.start customer "a" "d")]
    let c : Conversation :=
      ⟨⟨.ofNat 100⟩, customer.user, none, "a", .closed, .ofUnix 10 0, .ofUnix 11 0⟩
    Fresh {} (earlier ++ later) ∧ c ∈ (after {} earlier).conversations ∧
      ∀ t ∈ states (after {} earlier) later,
        t.get? c.id = some c ∧ t.history c.id = (after {} earlier).history c.id := by
  intro customer earlier later c
  have fresh : Fresh {} (earlier ++ later) := by decide
  have member : c ∈ (after {} earlier).conversations := by decide
  exact ⟨fresh, member, ((conversation_history earlier later fresh).2 c member).2 rfl⟩

end HelpDesk.Store
