import HelpDesk.Proofs.ActivityRows

/-! Who is assigned to a conversation. Only the turn that opens it assigns somebody, and what it assigns is kept, since a
conversation is opened at most once and closing it gives no assignee. -/

namespace HelpDesk

/-- Nobody is assigned to the conversation as long as it is pending. -/
def Store.UnassignedWhilePending (s : Store) (id : ConversationId) : Prop :=
  ∀ c, s.get? id = some c → c.status = .pending → c.assignee = none

/-- The conversation is not pending any more, and has this assignee. -/
def Store.Settled (s : Store) (id : ConversationId) (assignee : Option UserId) : Prop :=
  ∃ c, s.get? id = some c ∧ c.status ≠ .pending ∧ c.assignee = assignee

section Turn
variable {s t : Store} {id : ConversationId} {a : Activity}
  (made : t.get? id = s.get? id ∨ ∃ d, t.get? id = some d ∧ a.Makes (s.get? id) d)
include made

theorem Store.UnassignedWhilePending.turn (unassigned : s.UnassignedWhilePending id) : t.UnassignedWhilePending id := by
  rcases made with same | ⟨d, row, makes⟩
  · rwa [UnassignedWhilePending, same]
  · intro e there pending
    obtain rfl : d = e := Option.some.inj (row.symm.trans there)
    generalize s.get? id = before at makes
    cases makes with
    | starts acts owner unassigned => exact unassigned
    | opens => cases pending
    | closes => cases pending

theorem Store.Settled.turn {assignee : Option UserId} (settled : s.Settled id assignee) : t.Settled id assignee := by
  obtain ⟨c, stored, left, given⟩ := settled
  rcases made with same | ⟨d, row, makes⟩
  · exact ⟨c, same.trans stored, left, given⟩
  · rw [stored] at makes
    cases makes with
    | opens acts role pending => exact absurd pending left
    | closes => exact ⟨_, row, by simp, given⟩

theorem unassigned_of_new {d : Conversation} (new : s.get? id = none) (after : t.get? id = some d) :
    d.status = .pending ∧ d.assignee = none := by
  rcases made with same | ⟨e, row, makes⟩
  · cases new.symm.trans (same.symm.trans after)
  · obtain rfl : e = d := Option.some.inj (row.symm.trans after)
    rw [new] at makes
    cases makes with
    | starts acts owner unassigned pending => exact ⟨pending, unassigned⟩

variable {c d : Conversation} (stored : s.get? id = some c) (after : t.get? id = some d)
include stored after

/-- Who is assigned when a conversation is opened that nobody is assigned to. -/
theorem assignee_of_opening (unassigned : c.assignee = none) (pending : c.status = .pending)
    (opened : d.status = .opened) :
    ∃ party, a.party? = some party ∧
      d.assignee = if party.role = .admin ∨ party.role = .superadmin then some party.user else none := by
  rcases made with same | ⟨e, row, makes⟩
  · obtain rfl : c = d := Option.some.inj (stored.symm.trans (same.symm.trans after))
    cases pending.symm.trans opened
  · obtain rfl : e = d := Option.some.inj (row.symm.trans after)
    rw [stored] at makes
    cases makes with
    | @opens party acts =>
      refine ⟨party, acts, ?_⟩
      simp only [unassigned, Role.isAdmin_iff]
      split <;> rfl
    | closes => cases opened

theorem assignee_of_other (other : ¬ (c.status = .pending ∧ d.status = .opened)) : d.assignee = c.assignee := by
  rcases made with same | ⟨e, row, makes⟩
  · obtain rfl : c = d := Option.some.inj (stored.symm.trans (same.symm.trans after))
    rfl
  · obtain rfl : e = d := Option.some.inj (row.symm.trans after)
    rw [stored] at makes
    cases makes with
    | opens acts role pending => exact absurd ⟨pending, rfl⟩ other
    | closes => rfl

end Turn

/-- At any time, nobody is assigned to a pending conversation. In any turn, a new conversation is pending and unassigned; one
that was pending and is open after it has the party assigned that the turn was made for, if that is an admin or a superadmin, and else nobody; in every other turn
whoever is assigned to a conversation, or nobody, stays so; and once it is not pending any more, that is so to the end. -/
theorem assigned_when_opened {database : Http.DatabaseHealth} {hub : Hub} (empty : hub.store = {})
    (undisturbed : hub.Undisturbed) {activities : List Activity} {turns : List Turn} {log : List Occurrence}
    {y : Execution Unit} (runs : (Execution.serving database hub activities).run turns = (log, y))
    (distinct : hub.Distinct y.hub) (id : ConversationId) :
    (∀ c, y.hub.store.get? id = some c → c.status = .pending → c.assignee = none) ∧
    ∀ before task found request later, log = before ++ .asked task found request :: later →
      ∃ a, activities[task]? = some a ∧ ∀ d, (found.answer request).2.store.get? id = some d →
        (found.store.get? id = none → d.status = .pending ∧ d.assignee = none) ∧
        ∀ c, found.store.get? id = some c →
          (c.status = .pending → c.assignee = none) ∧
          (c.status = .pending → d.status = .opened → ∃ party, a.party? = some party ∧
            d.assignee = if party.role = .admin ∨ party.role = .superadmin then some party.user else none) ∧
          (¬ (c.status = .pending ∧ d.status = .opened) → d.assignee = c.assignee) ∧
          (d.status ≠ .pending → ∃ e, y.hub.store.get? id = some e ∧ e.assignee = d.assignee) := by
  have step (before task found request later) (split : log = before ++ .asked task found request :: later) :=
    Execution.makes_of_turn runs distinct split undisturbed
  have initial : (Execution.serving database hub activities).hub.store.UnassignedWhilePending id := by
    intro c there
    rw [show (Execution.serving database hub activities).hub.store = {} from empty] at there
    cases there
  have unassigned (before task) (found : Hub) (request later) (split : log = before ++ .asked task found request :: later)
      (pending : found.store.UnassignedWhilePending id) : (found.answer request).2.store.UnassignedWhilePending id := by
    obtain ⟨a, -, turn⟩ := step before task found request later split
    exact pending.turn (turn id)
  have final : y.hub.store.UnassignedWhilePending id :=
    Execution.run_invariant (.of_store (·.UnassignedWhilePending id)) runs initial unassigned
  refine ⟨final, ?_⟩
  intro before task found request later split
  obtain ⟨a, activity, turn⟩ := step before task found request later split
  refine ⟨a, activity, fun d after => ⟨fun new => unassigned_of_new (turn id) new after, fun c stored => ?_⟩⟩
  have earlier : found.store.UnassignedWhilePending id := by
    apply Execution.asked_invariant (.of_store (·.UnassignedWhilePending id)) (split ▸ runs) initial
    intro first other h asked rest same
    exact unassigned first other h asked _ (by rw [split, same, List.append_assoc, List.cons_append])
  refine ⟨earlier c stored, ?_, assignee_of_other (turn id) stored after, ?_⟩
  · intro pending opened
    exact assignee_of_opening (turn id) stored after (earlier c stored pending) pending opened
  · intro left
    have settled : y.hub.store.Settled id d.assignee := by
      apply Execution.invariant_of_asked (.of_store (·.Settled id d.assignee)) (split ▸ runs) ⟨d, after, left, rfl⟩
      intro first other h asked rest same kept
      obtain ⟨b, -, turn⟩ := step (before ++ .asked task found request :: first) other h asked rest
        (by rw [split, same, List.append_assoc, List.cons_append])
      exact kept.turn (turn id)
    obtain ⟨e, final, -, same⟩ := settled
    exact ⟨e, final, same⟩

/-- An admin's presence opens a conversation. It is closed by its owner, and the admin is still assigned to it. -/
theorem assigned_when_opened_until_closed :
    let hub : Hub := { settings := .default, clock := ⟨0, 0⟩, mint := fun n => .ofNat (n + 1) }
    let id : ConversationId := ⟨.ofNat 1⟩
    let customer : Identity := ⟨⟨.ofNat 1001⟩, .user⟩
    let admin : Identity := ⟨⟨.ofNat 1000⟩, .admin⟩
    let activities : List Activity :=
      [.operation (.start customer "a" none), .operation (.memberJoined id admin), .operation (.close id customer)]
    let turns : List Turn := [.task 0 ⟨1, 0⟩, .task 1 ⟨2, 0⟩, .task 0 ⟨3, 0⟩, .task 1 ⟨4, 0⟩, .task 2 ⟨5, 0⟩, .task 2 ⟨6, 0⟩]
    let (log, y) := (Execution.serving .memory hub activities).run turns
    ∃ before found request later c d e, log = before ++ .asked 1 found request :: later ∧
      found.store.get? id = some c ∧ c.status = .pending ∧ c.assignee = none ∧
      (found.answer request).2.store.get? id = some d ∧ d.status = .opened ∧ d.assignee = some admin.user ∧
      y.hub.store.get? id = some e ∧ e.status = .closed ∧ e.assignee = some admin.user := by
  intro hub id customer admin activities turns
  have undisturbed : hub.Undisturbed := fun _ _ there => by cases there
  have distinct : hub.Distinct ((Execution.serving .memory hub activities).run turns).2.hub := by
    unfold Hub.Distinct
    decide +kernel
  have turn : ((Execution.serving .memory hub activities).run turns).1.any (·.passes fun task found request =>
      task == 1 && (found.store.get? id).any (·.status == .pending) &&
        ((found.answer request).2.store.get? id).any (·.status == .opened)) = true := by decide +kernel
  have closed : (((Execution.serving .memory hub activities).run turns).2.hub.store.get? id).any (·.status == .closed) =
      true := by decide +kernel
  rcases runs : (Execution.serving .memory hub activities).run turns with ⟨log, y⟩
  rw [runs] at distinct turn closed
  obtain ⟨before, task, found, request, later, split, turn⟩ := Occurrence.asked_of_passes turn
  simp only [Bool.and_eq_true, beq_iff_eq, Option.any_eq_true] at turn closed
  obtain ⟨⟨rfl, c, stored, pending⟩, d, row, opened⟩ := turn
  obtain ⟨e, final, ended⟩ := closed
  obtain ⟨a, activity, step⟩ := (assigned_when_opened rfl undisturbed runs distinct id).2 before 1 found request later split
  obtain ⟨unassigned, opening, -, kept⟩ := (step d row).2 c stored
  obtain ⟨party, acts, assigned⟩ := opening pending opened
  cases activity
  cases acts
  obtain ⟨e', final', same⟩ := kept (by rw [opened]; decide)
  obtain rfl : e' = e := Option.some.inj (final'.symm.trans final)
  exact ⟨before, found, request, later, c, d, e', split, stored, pending, unassigned pending, row, opened, assigned, final,
    ended, same.trans assigned⟩

end HelpDesk
