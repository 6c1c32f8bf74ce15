import HelpDesk.Proofs.ActivityPermissions
import HelpDesk.Proofs.ConversationRows

/-! What activities make of the conversations and of their messages, turn by turn. What a party was allowed by a conversation
that it has read, it is allowed still when it makes use of that: nobody's conversation ever becomes somebody else's. -/

namespace HelpDesk

theorem Role.isAdmin_iff (role : Role) : role.isAdmin = true ↔ role = .admin ∨ role = .superadmin := by
  cases role <;> simp [isAdmin]

theorem Role.opensConversations_iff (role : Role) :
    role.opensConversations = true ↔ role = .admin ∨ role = .superadmin ∨ role = .system := by
  cases role <;> simp [opensConversations]

/-- Who may be in a room: staff in that of the dashboards; in that of a stored conversation its owner, staff and the
system. -/
def Hub.Admits (h : Hub) (party : Identity) (room : ConversationId) : Prop :=
  if room = .dashboard then party.role.isAdmin = true
  else ∃ c, h.store.get? room = some c ∧ (c.owner = party.user ∨ party.role.opensConversations = true)

theorem Hub.Reaches.admits {h k : Hub} {es : List Store.Entry} (reaches : h.Reaches es k) {party : Identity}
    {room : ConversationId} (admits : h.Admits party room) : k.Admits party room := by
  unfold Hub.Admits at *
  split at admits
  · next here => rwa [if_pos here]
  · next elsewhere =>
    rw [if_neg elsewhere]
    obtain ⟨c, stored, role⟩ := admits
    obtain ⟨d, later, follows⟩ := reaches.row stored
    exact ⟨d, later, role.imp_left follows.owner.trans⟩

section Earlier
variable {α : Type} {x y : Execution α} {turns : List Turn} {before later : List Occurrence} {task : Nat} {found : Hub}
  {request : Request} (runs : x.run turns = (before ++ .asked task found request :: later, y))
include runs

theorem row_of_read {id : ConversationId} {c : Conversation} (read : Read before id c) :
    ∃ d, found.store.get? id = some d ∧ Store.Follows c d := by
  obtain ⟨reader, reading, there, reply⟩ := read
  obtain ⟨first, last, rfl⟩ := List.append_of_mem there
  rw [List.append_assoc, List.cons_append] at runs
  obtain ⟨-, -, v, rest, entered, onward⟩ := Execution.run_asked runs
  obtain ⟨-, ⟨es, reaches⟩, -⟩ := Execution.run_asked onward
  obtain ⟨_, answered⟩ := reading.answer_reaches (.store (.get id))
  rw [entered] at reaches
  exact (answered.trans reaches).row (Hub.row_of_got reply)

theorem admits_of_entitled {party : Identity} {room : ConversationId} (entitled : Entitled before party room) :
    found.Admits party room := by
  unfold Entitled at entitled
  unfold Hub.Admits
  split at entitled
  · next here => rwa [if_pos here]
  · next elsewhere =>
    rw [if_neg elsewhere]
    obtain ⟨c, read, role⟩ := entitled
    obtain ⟨d, stored, follows⟩ := row_of_read runs read
    exact ⟨d, stored, role.imp_left follows.owner.trans⟩

end Earlier

namespace Activity

/-- What an activity may make of a conversation, or of none. -/
inductive Makes (a : Activity) : Option Conversation → Conversation → Prop
  | starts {party : Identity} (acts : a.party? = some party) {d : Conversation} (owner : d.owner = party.user)
      (unassigned : d.assignee = none) (pending : d.status = .pending) : Makes a none d
  | opens {party : Identity} (acts : a.party? = some party) (role : party.role.opensConversations = true)
      {c : Conversation} (pending : c.status = .pending) (now : Moment) :
      Makes a (some c) { c with
        status := .opened, assignee := (if party.role.isAdmin then some party.user else none) <|> c.assignee,
        updatedAt := now }
  | closes {party : Identity} (acts : a.party? = some party) {c : Conversation} (told : a.closes? = some c.id)
      (role : c.owner = party.user ∨ party.role.isAdmin = true) (active : c.status ≠ .closed) (now : Moment) :
      Makes a (some c) { c with status := .closed, updatedAt := now }

/-- Who may have a message in a conversation: its owner, staff and the system. An operation by itself is let in. -/
def Writes (a : Activity) (s : Store) (m : Message) : Prop :=
  ∃ party, a.party? = some party ∧ m.sender = party.user ∧
    ((∃ work, a = .operation work) ∨
      ∃ c, s.get? m.conversation = some c ∧ (c.owner = party.user ∨ party.role.opensConversations = true))

end Activity

theorem Store.Moves.eq_pending {status : Status} (moves : Moves status .opened) : status = .pending := by
  cases moves
  rfl

theorem Hub.opening_of_started {h : Hub} {starter : Identity} {label content : String} {c : Conversation}
    {opening : Message} (started : (h.answer (.store (.start starter label content))).1 =
      (.ok (.created c opening) : Except StoreError Start)) :
    c.owner = starter.user ∧ opening.conversation = c.id ∧ opening.sender = starter.user := by
  have called := h.callStore_called (.start starter label content)
  change (h.callStore (.start starter label content)).1 = _ at started
  generalize h.callStore (.start starter label content) = outcome at called started
  cases called with
  | failed error l same registry => cases started
  | carried answer k l performed reaches others overtaken registry =>
    generalize k.store = t at performed
    cases Store.performed_of_ok performed with
    | alreadyOpen active => cases started
    | created vacant row message =>
      cases started
      rw [message]
      exact ⟨by rw [row], rfl, rfl⟩

namespace Execution
variable {database : Http.DatabaseHealth} {hub : Hub} {activities : List Activity} {turns : List Turn}
  {log before later : List Occurrence} {task : Nat} {found : Hub} {request : Request} {y : Execution Unit}
  (runs : (serving database hub activities).run turns = (log, y)) (distinct : hub.Distinct y.hub)
  (split : log = before ++ .asked task found request :: later)
include runs distinct split

/-- In a turn, a conversation stays as it is, or its row is what the activity may make of it. -/
theorem makes_of_turn (undisturbed : hub.Undisturbed) :
    ∃ a, activities[task]? = some a ∧ ∀ id, (found.answer request).2.store.get? id = found.store.get? id ∨
      ∃ d, (found.answer request).2.store.get? id = some d ∧ a.Makes (found.store.get? id) d := by
  subst split
  obtain ⟨a, activity, may⟩ := may_ask runs rfl
  refine ⟨a, activity, fun id => ?_⟩
  have turn : .asked task found request ∈ before ++ .asked task found request :: later :=
    List.mem_append_right before List.mem_cons_self
  have trail := Hub.answer_trail ((inherits_of_asked runs turn).undisturbed undisturbed)
    (run_new runs distinct _ turn) id task
  have own : before.filter (·.isOf task) ⊆ before := List.filter_subset_self _
  generalize (found.answer request).2.store.get? id = row at trail
  cases moved : (Occurrence.asked task found request).moved? id with
  | none =>
    rw [moved] at trail
    cases trail
    exact .inl rfl
  | some d =>
    obtain ⟨committed, here⟩ := Option.filter_eq_some_iff.mp moved
    have here : d.id = id := by simpa using here
    rw [moved] at trail
    cases trail with
    | cons advances rest =>
      cases rest
      refine .inr ⟨d, rfl, ?_⟩
      have commits := Hub.commits_of_committed committed
      cases may with
      | opens acts role other =>
        cases commits with
        | moved stored moves =>
          obtain rfl : other = id := (Store.get?_id stored).symm.trans here
          rw [stored]
          exact .opens acts role moves.eq_pending _
      | @closes party acts other told _ read role =>
        cases commits with
        | @moved _ _ _ c stored moves =>
          obtain rfl : other = id := (Store.get?_id stored).symm.trans here
          obtain ⟨c', stored', follows⟩ := row_of_read runs (read.mono own)
          obtain rfl : c' = c := Option.some.inj (stored'.symm.trans stored)
          rw [stored]
          refine .closes acts ((Store.get?_id stored).symm ▸ told) (role.imp_left follows.owner.trans) ?_ _
          intro closed
          rw [closed] at moves
          cases moves
      | starts acts label content =>
        cases commits with
        | created _ _ _ id =>
          generalize found.store.get? _ = row at advances
          cases advances with
          | created pending => exact .starts acts rfl rfl rfl
          | @moved c _ follows moves =>
            generalize c.status = status at moves
            cases moves
      | _ => cases commits

/-- A message that is stored in a turn is one that the activity may have there. -/
theorem writes_of_turn {m : Message} (posted : request.posted? (found.answer request).1 = some m) :
    ∃ a, activities[task]? = some a ∧ a.Writes (found.answer request).2.store m := by
  subst split
  obtain ⟨a, activity, may⟩ := may_ask runs rfl
  refine ⟨a, activity, ?_⟩
  have own : before.filter (·.isOf task) ⊆ before := List.filter_subset_self _
  obtain ⟨_, answered⟩ := found.answer_reaches request
  cases may with
  | @writes party acts room elsewhere admitted content =>
    have created : (found.answer (.store (.createMessage (.ofSender room party content)))).1 =
        (.ok m : Except StoreError Message) := by
      generalize (found.answer (.store (.createMessage (.ofSender room party content)))).1 = reply at posted
      cases reply <;> cases posted
      rfl
    obtain ⟨_, rfl⟩ := Hub.message_of_created created
    refine ⟨party, acts, rfl, admitted.imp id fun entitled => ?_⟩
    have admits := answered.admits (admits_of_entitled runs (entitled.mono own))
    rwa [Hub.Admits, if_neg elsewhere] at admits
  | @starts party acts label content =>
    obtain ⟨c, started⟩ : ∃ c, (found.answer (.store (.start party label content))).1 =
        (.ok (.created c m) : Except StoreError Start) := by
      generalize (found.answer (.store (.start party label content))).1 = reply at posted
      rcases reply with error | (⟨c, opening⟩ | c) <;> cases posted
      exact ⟨c, rfl⟩
    obtain ⟨owner, conversation, sender⟩ := Hub.opening_of_started started
    have apart := distinct_of_asked runs distinct (List.mem_append_right before List.mem_cons_self)
    have committed : Request.committed? (.store (.start party label content))
        (found.answer (.store (.start party label content))).1 = some c := by
      rw [started]
      rfl
    obtain ⟨_, k, _, -, stored, others⟩ := Hub.committed_stored committed apart
    obtain ⟨d, row, follows⟩ := others.row stored
    rw [← conversation] at row
    exact ⟨party, acts, sender, .inr ⟨d, row, .inl (follows.owner.trans owner)⟩⟩
  | _ => cases posted

end Execution

end HelpDesk
