import HelpDesk.Proofs.StoreRuns
import Mathlib.Data.List.Nodup

/-! What holds of every store that a run from the empty one comes to. An owner has no two active conversations:
a start looks for one first, and nothing makes a closed conversation active again. -/

namespace HelpDesk

theorem Conversation.isActive_iff {c : Conversation} : c.isActive = true ↔ c.status ≠ .closed := by
  cases status : c.status <;> simp [isActive, Status.isFinal, status]

namespace Store

structure Valid (s : Store) : Prop where
  ids : (s.conversations.map (·.id)).Nodup
  owners : s.conversations.Pairwise fun c d => c.isActive = true → d.isActive = true → c.owner ≠ d.owner
  messages : ∀ m ∈ s.messages, ∃ c ∈ s.conversations, c.id = m.conversation

theorem Valid.initial : Valid {} :=
  ⟨List.nodup_nil, .nil, by simp⟩

theorem get?_of_mem {s : Store} (ids : (s.conversations.map (·.id)).Nodup) {c : Conversation}
    (member : c ∈ s.conversations) : s.get? c.id = some c := by
  cases found : s.get? c.id with
  | none => exact (get?_eq_none_iff.mp found c member rfl).elim
  | some d => rw [List.inj_on_of_nodup_map ids (mem_of_get? found) member (get?_id found)]

/-- No message can belong to a conversation that is not there. -/
theorem Valid.history_of_unused {s : Store} (valid : Valid s) {id : ConversationId} (unused : s.get? id = none) :
    s.history id = [] := by
  refine List.filter_eq_nil_iff.mpr fun m there here => ?_
  obtain ⟨c, present, same⟩ := valid.messages m there
  exact get?_eq_none_iff.mp unused c present (same.trans (beq_iff_eq.mp here))

theorem Moves.opened_or_closed {before after : Status} (moves : Moves before after) :
    after = .opened ∨ after = .closed := by
  cases moves <;> simp

theorem Moves.active {before after : Status} (moves : Moves before after) : before.isFinal = false := by
  cases moves <;> rfl

theorem isActive_of_moves {c : Conversation} {status : Status} (moves : Moves c.status status) : c.isActive = true := by
  simp [Conversation.isActive, moves.active]

@[simp] theorem mem_activeOf {s : Store} {owner : UserId} {c : Conversation} :
    c ∈ s.activeOf owner ↔ c ∈ s.conversations ∧ c.isActive = true ∧ c.owner = owner := by
  simp [activeOf, Conversation.isOwnedBy]

theorem findActive_eq_none_iff {s : Store} {owner : UserId} : s.findActive owner = none ↔ s.activeOf owner = [] := by
  rw [findActive, ← Option.not_isSome_iff_eq_none, List.isSome_maxOn?_iff, ne_eq, not_not]

/-- An owner's active conversations are the one that is found, if one is. -/
theorem Valid.activeOf_eq {s : Store} (valid : Valid s) (owner : UserId) :
    s.activeOf owner = (s.findActive owner).toList := by
  have apart : (s.activeOf owner).Pairwise fun c d => c.isActive = true → d.isActive = true → c.owner ≠ d.owner :=
    valid.owners.sublist List.filter_sublist
  have owned : ∀ c ∈ s.activeOf owner, c.isActive = true ∧ c.owner = owner :=
    fun c member => (mem_activeOf.mp member).2
  unfold findActive
  generalize s.activeOf owner = active at apart owned
  rcases active with _ | ⟨c, _ | ⟨d, rest⟩⟩
  · simp
  · simp
  · obtain ⟨first, mine⟩ := owned c (by simp)
    obtain ⟨second, also⟩ := owned d (by simp)
    exact ((List.pairwise_cons.mp apart).1 d (by simp) first second (mine.trans also.symm)).elim

theorem Valid.findActive_eq_some_iff {s : Store} (valid : Valid s) {owner : UserId} {c : Conversation} :
    s.findActive owner = some c ↔ c ∈ s.conversations ∧ c.isActive = true ∧ c.owner = owner := by
  rw [← mem_activeOf, valid.activeOf_eq, Option.mem_toList]

/-- A row that takes the place of an active one, keeps its owner and names no other conversation. -/
private theorem owners_put {s : Store} (valid : Valid s) {c d : Conversation} (stored : s.get? c.id = some c)
    (active : c.isActive = true) (id : d.id = c.id) (owner : d.owner = c.owner) :
    (s.put d).conversations.Pairwise fun c d => c.isActive = true → d.isActive = true → c.owner ≠ d.owner := by
  have replaced : ∀ x ∈ s.conversations, x.id = d.id → x = c := fun x member same =>
    List.inj_on_of_nodup_map valid.ids member (mem_of_get? stored) (same.trans id)
  refine List.pairwise_map.mpr (valid.owners.imp_of_mem ?_)
  intro x y first last apart
  -- only the place of the replaced row is looked at: elsewhere nothing changed
  by_cases left : x.id = d.id <;> by_cases right : y.id = d.id
  · obtain rfl := replaced x first left
    obtain rfl := replaced y last right
    exact fun _ _ _ => apart active active rfl
  · obtain rfl := replaced x first left
    simpa [left, right, owner, active] using fun _ => apart active
  · obtain rfl := replaced y last right
    simpa [left, right, owner, active] using fun first _ => apart first active
  · simpa [left, right] using apart

theorem Valid.next {s : Store} (valid : Valid s) {e : Entry} (fresh : Fresh s [e]) : Valid (s.next e) := by
  have ids : ((s.next e).conversations.map (·.id)).Nodup := (Fresh.next fresh).ids
  generalize result : s.next e = after at ids
  cases result ▸ next_changes s e with
  | none => exact valid
  | message draft asked stored active =>
    refine ⟨ids, valid.owners, ?_⟩
    intro m member
    rcases List.mem_append.mp member with old | new
    · exact valid.messages m old
    · rw [List.mem_singleton.mp new]
      exact ⟨_, mem_of_get? stored, get?_id stored⟩
  | status later given asked stored moves =>
    refine ⟨ids, owners_put valid stored (isActive_of_moves moves) rfl rfl, ?_⟩
    intro m member
    obtain ⟨d, present, same⟩ := valid.messages m member
    refine ⟨_, List.mem_map.mpr ⟨d, present, rfl⟩, ?_⟩
    split
    next replaced => exact (beq_iff_eq.mp replaced).symm.trans same
    next => exact same
  | @start starter label content c m asked vacant row opening =>
    refine ⟨ids, ?_, ?_⟩
    · refine List.pairwise_append.mpr ⟨valid.owners, List.pairwise_singleton _ _, ?_⟩
      intro d member last same active _ owner
      rw [List.mem_singleton.mp same, row] at owner
      have mine : d ∈ s.activeOf starter.user := mem_activeOf.mpr ⟨member, active, owner⟩
      rw [findActive_eq_none_iff.mp vacant] at mine
      exact List.not_mem_nil mine
    · intro n member
      rcases List.mem_append.mp member with old | new
      · obtain ⟨d, present, same⟩ := valid.messages n old
        exact ⟨d, List.mem_append_left _ present, same⟩
      · refine ⟨c, List.mem_append_right _ (List.mem_singleton_self c), ?_⟩
        rw [List.mem_singleton.mp new, opening]

theorem Valid.after {s : Store} (valid : Valid s) {es : List Entry} (fresh : Fresh s es) : Valid (s.after es) := by
  induction es generalizing s with
  | nil => exact valid
  | cons e es ih =>
    have first : Fresh s ([e] ++ es) := fresh
    exact ih (valid.next first.left) fresh.next

end Store

end HelpDesk
