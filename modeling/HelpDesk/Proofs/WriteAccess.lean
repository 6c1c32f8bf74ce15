import HelpDesk.Proofs.ActivityRows

/-! Who changes a conversation, when clients have nothing but requests and sockets. The store lets anybody do anything, and a
text that comes over a socket is not asked whose it is; that nobody else has a part in a conversation rests on what was read
before the socket was opened. -/

namespace HelpDesk

/-- A request, or a socket that is served to its end. Where the writer of a socket stops first, its reader is dropped: then the
connection leaves though its own activity has no turns any more. -/
def Activity.OfClient : Activity → Prop
  | request _ | visit _ _ _ => True
  | operation (.leave _) => True
  | operation _ => False

theorem Activity.OfClient.caller {a : Activity} (client : a.OfClient) {party : Identity} (acts : a.party? = some party) :
    (∃ r, a.request? = some r ∧ r.caller = .ok party ∧ a.closes? = r.closes?) ∧ ¬ ∃ work, a = .operation work := by
  cases a with
  | operation work =>
    cases work with
    | leave c => cases acts
    | _ => exact client.elim
  | request r => exact ⟨⟨r, rfl, r.caller_of_toOption acts, rfl⟩, by simp⟩
  | visit session r texts => exact ⟨⟨r, rfl, r.caller_of_toOption acts, rfl⟩, by simp⟩

section Turn
variable {s t : Store} {id : ConversationId} {a : Activity}
  (made : t.get? id = s.get? id ∨ ∃ d, t.get? id = some d ∧ a.Makes (s.get? id) d)
include made

theorem party_of_opened {d : Conversation} (after : t.get? id = some d) (opened : d.status = .opened)
    (new : ∀ c, s.get? id = some c → c.status ≠ .opened) :
    ∃ party, a.party? = some party ∧ party.role.opensConversations = true := by
  rcases made with same | ⟨e, row, makes⟩
  · exact absurd opened (new d (same.symm.trans after))
  · obtain rfl : e = d := Option.some.inj (row.symm.trans after)
    generalize s.get? id = before at makes
    cases makes with
    | starts acts owner unassigned pending => cases pending.symm.trans opened
    | @opens party acts role => exact ⟨party, acts, role⟩
    | closes => cases opened

theorem party_of_closed {d : Conversation} (after : t.get? id = some d) (closed : d.status = .closed)
    (new : ∀ c, s.get? id = some c → c.status ≠ .closed) :
    ∃ party, a.party? = some party ∧ a.closes? = some id ∧ (d.owner = party.user ∨ party.role.isAdmin = true) := by
  rcases made with same | ⟨e, row, makes⟩
  · exact absurd closed (new d (same.symm.trans after))
  · obtain rfl : e = d := Option.some.inj (row.symm.trans after)
    have here : e.id = id := Store.get?_id after
    generalize s.get? id = before at makes
    cases makes with
    | starts acts owner unassigned pending => cases pending.symm.trans closed
    | opens => cases closed
    | @closes party acts c told role => exact ⟨party, acts, told.trans (congrArg some here), role⟩

/-- Who neither owns a conversation nor has a role that opens it leaves its row as it is. -/
theorem row_of_outsider {party : Identity} (acts : a.party? = some party)
    (outside : ¬ party.role.opensConversations = true) {c : Conversation} (stored : s.get? id = some c)
    (other : c.owner ≠ party.user) : t.get? id = some c := by
  rcases made with same | ⟨d, row, makes⟩
  · exact same.trans stored
  · rw [stored] at makes
    cases makes with
    | @opens party' acts' role =>
      obtain rfl : party' = party := Option.some.inj (acts'.symm.trans acts)
      exact absurd role outside
    | @closes party' acts' _ told role =>
      obtain rfl : party' = party := Option.some.inj (acts'.symm.trans acts)
      have admin : ¬ party'.role.isAdmin = true := by
        intro admin
        cases role : party'.role <;> simp [role, Role.isAdmin, Role.opensConversations] at admin outside
      exact absurd role (not_or_intro other admin)

end Turn

theorem Hub.history_of_answer (h : Hub) (request : Request) (task : Nat) (id : ConversationId) :
    (h.answer request).2.store.history id =
      h.store.history id ++ ((Occurrence.asked task h request).written? id).toList := by
  rw [Store.history, Store.history, h.answer_messages request, List.filter_append]
  congr 1
  show _ = ((request.posted? (h.answer request).1).filter (·.conversation = id)).toList
  cases request.posted? (h.answer request).1 with
  | none => rfl
  | some m => by_cases here : m.conversation = id <;> simp [Option.filter, here]

namespace Execution
variable {database : Http.DatabaseHealth} {hub : Hub} {activities : List Activity} {turns : List Turn}
  {log before later : List Occurrence} {task : Nat} {found : Hub} {request : Request} {y : Execution Unit}
  (runs : (serving database hub activities).run turns = (log, y)) (distinct : hub.Distinct y.hub)
include runs distinct

/-- Who neither owns a conversation nor has a role that opens it stores no message there. -/
theorem history_of_outsider (clients : ∀ a ∈ activities, a.OfClient)
    (split : log = before ++ .asked task found request :: later) {a : Activity} (activity : activities[task]? = some a)
    {party : Identity} (acts : a.party? = some party) (outside : ¬ party.role.opensConversations = true)
    {c : Conversation} (stored : found.store.get? c.id = some c) (other : c.owner ≠ party.user) :
    (found.answer request).2.store.history c.id = found.store.history c.id := by
  rw [Hub.history_of_answer found request task c.id]
  cases written : (Occurrence.asked task found request).written? c.id with
  | none => exact List.append_nil _
  | some m =>
    obtain ⟨posted, here⟩ := Option.filter_eq_some_iff.mp written
    have here : m.conversation = c.id := by simpa using here
    obtain ⟨a', activity', party', acts', -, role⟩ := writes_of_turn runs distinct split posted
    obtain rfl : a' = a := Option.some.inj (activity'.symm.trans activity)
    obtain rfl : party' = party := Option.some.inj (acts'.symm.trans acts)
    obtain ⟨-, alone⟩ := (clients a' (List.mem_of_getElem? activity)).caller acts
    obtain ⟨d, row, role⟩ := role.resolve_left alone
    obtain ⟨_, reaches⟩ := found.answer_reaches request
    obtain ⟨e, later, follows⟩ := reaches.row stored
    obtain rfl : d = e := Option.some.inj (row.symm.trans (here ▸ later))
    exact absurd role (not_or_intro (fun owns => other (follows.owner.symm.trans owns)) outside)

/-- A message of the history was stored in some turn, whose party is entitled to the conversation. -/
theorem author_of_message (empty : hub.store = {}) (clients : ∀ a ∈ activities, a.OfClient) {id : ConversationId}
    {m : Message} (there : m ∈ y.hub.store.history id) :
    ∃ c, y.hub.store.get? id = some c ∧ ∃ task found request, .asked task found request ∈ log ∧
      (Occurrence.asked task found request).written? id = some m ∧ ∃ a party, activities[task]? = some a ∧
        a.party? = some party ∧ m.sender = party.user ∧
        (c.owner = party.user ∨ party.role.opensConversations = true) := by
  have vacant : (serving database hub activities).hub.store.history id = [] := by
    rw [show (serving database hub activities).hub.store = {} from empty]
    rfl
  rw [run_history runs, vacant, List.nil_append] at there
  obtain ⟨o, member, written⟩ := List.mem_filterMap.mp there
  obtain ⟨posted, here⟩ := Option.filter_eq_some_iff.mp written
  cases o with
  | received queue => cases posted
  | gone queue => cases posted
  | asked task found request =>
    obtain ⟨before, later, split⟩ := List.append_of_mem member
    obtain ⟨a, activity, party, acts, sender, role⟩ := writes_of_turn runs distinct split posted
    obtain ⟨-, alone⟩ := (clients a (List.mem_of_getElem? activity)).caller acts
    obtain ⟨d, row, role⟩ := role.resolve_left alone
    obtain ⟨-, -, v, _, after, onward⟩ := run_asked (split ▸ runs)
    obtain ⟨-, _, rest⟩ := run_hub onward
    rw [after] at rest
    obtain ⟨c, final, follows⟩ := rest.row row
    rw [show m.conversation = id by simpa using here] at final
    exact ⟨c, final, task, found, request, member, written, a, party, activity, acts, sender,
      role.imp_left follows.owner.trans⟩

end Execution

/-- Clients with any identities make requests and are served over sockets, all at the same time. A conversation is opened only
in a turn of an admin, a superadmin or the system; it is closed only in a turn of a request to close it, by its owner, an
admin or a superadmin; and users and guests neither change a conversation of somebody else nor add to its messages. Every
message was stored for a caller who is its sender, and who owns the conversation or is an admin, a superadmin or the
system. -/
theorem changed_by_owner_or_staff {database : Http.DatabaseHealth} {hub : Hub} (empty : hub.store = {})
    (undisturbed : hub.Undisturbed) {activities : List Activity} (clients : ∀ a ∈ activities, a.OfClient)
    {turns : List Turn} {log : List Occurrence} {y : Execution Unit}
    (runs : (Execution.serving database hub activities).run turns = (log, y)) (distinct : hub.Distinct y.hub)
    (id : ConversationId) :
    (∀ before task found request later, log = before ++ .asked task found request :: later →
      ∀ a, activities[task]? = some a →
        (∀ d, (found.answer request).2.store.get? id = some d → d.status = .opened →
          (∀ c, found.store.get? id = some c → c.status ≠ .opened) → ∃ r caller, a.request? = some r ∧
            r.caller = .ok caller ∧ (caller.role = .admin ∨ caller.role = .superadmin ∨ caller.role = .system)) ∧
        (∀ d, (found.answer request).2.store.get? id = some d → d.status = .closed →
          (∀ c, found.store.get? id = some c → c.status ≠ .closed) → ∃ r caller, a.request? = some r ∧
            r.closes? = some id ∧ r.caller = .ok caller ∧
            (d.owner = caller.user ∨ caller.role = .admin ∨ caller.role = .superadmin)) ∧
        (∀ r caller, a.request? = some r → r.caller = .ok caller → caller.role = .user ∨ caller.role = .guest →
          ∀ c, found.store.get? id = some c → c.owner ≠ caller.user →
            (found.answer request).2.store.get? id = some c ∧
            (found.answer request).2.store.history id = found.store.history id)) ∧
    ∀ m ∈ y.hub.store.history id, ∃ c, y.hub.store.get? id = some c ∧ ∃ task found request a r caller,
      .asked task found request ∈ log ∧ (Occurrence.asked task found request).written? id = some m ∧
      activities[task]? = some a ∧ a.request? = some r ∧ r.caller = .ok caller ∧ m.sender = caller.user ∧
      (c.owner = caller.user ∨ caller.role = .admin ∨ caller.role = .superadmin ∨ caller.role = .system) := by
  refine ⟨?_, ?_⟩
  · intro before task found request later split a activity
    obtain ⟨a', activity', step⟩ := Execution.makes_of_turn runs distinct split undisturbed
    obtain rfl : a' = a := Option.some.inj (activity'.symm.trans activity)
    have client := clients a' (List.mem_of_getElem? activity)
    refine ⟨?_, ?_, ?_⟩
    · intro d after opened new
      obtain ⟨party, acts, role⟩ := party_of_opened (step id) after opened new
      obtain ⟨⟨r, asks, caller, -⟩, -⟩ := client.caller acts
      exact ⟨r, party, asks, caller, party.role.opensConversations_iff.mp role⟩
    · intro d after closed new
      obtain ⟨party, acts, told, role⟩ := party_of_closed (step id) after closed new
      obtain ⟨⟨r, asks, caller, same⟩, -⟩ := client.caller acts
      exact ⟨r, party, asks, same ▸ told, caller, role.imp_right party.role.isAdmin_iff.mp⟩
    · intro r caller asks known role c stored other
      have acts : a'.party? = some caller := by
        cases a' with
        | operation work => cases asks
        | request _ | visit _ _ _ =>
          cases asks
          simp [Activity.party?, known, Except.toOption]
      have outside : ¬ caller.role.opensConversations = true := by
        rcases role with role | role <;> simp [role, Role.opensConversations]
      refine ⟨row_of_outsider (step id) acts outside stored other, ?_⟩
      obtain rfl := Store.get?_id stored
      exact Execution.history_of_outsider runs distinct clients split activity acts outside stored other
  · intro m there
    obtain ⟨c, final, task, found, request, member, written, a, party, activity, acts, sender, role⟩ :=
      Execution.author_of_message runs distinct empty clients there
    obtain ⟨⟨r, asks, caller, -⟩, -⟩ := (clients a (List.mem_of_getElem? activity)).caller acts
    exact ⟨c, final, task, found, request, a, r, party, member, written, activity, asks, caller, sender,
      role.imp_right party.role.opensConversations_iff.mp⟩

/-- An admin comes to a user's conversation over a socket and writes there; then its owner closes it. -/
theorem changed_by_owner_or_staff_of_socket :
    let hub : Hub := { settings := .default, clock := ⟨0, 0⟩, mint := fun n => .ofNat (n + 1) }
    let id : ConversationId := ⟨.ofNat 1⟩
    let customer : Identity := ⟨⟨.ofNat 1001⟩, .user⟩
    let admin : Identity := ⟨⟨.ofNat 1000⟩, .admin⟩
    let closing : Http.Request := .ofParty customer "POST" ("/api/v1/conversations/" ++ toString id ++ "/close") [] ""
    let activities : List Activity :=
      [.request (.ofParty customer "POST" "/api/v1/conversations" [("content-type", Http.bytesOf "application/json")]
        "\x7b\"content\":\"a\"\x7d"),
      .visit ⟨0⟩ (.forSocket admin ("/ws/conversations/" ++ toString id)) ["\x7b\"content\":\"b\"\x7d"], .request closing]
    let turns : List Turn := [.task 0 ⟨1, 0⟩, .task 1 ⟨2, 0⟩, .task 0 ⟨3, 0⟩, .task 1 ⟨4, 0⟩, .task 1 ⟨5, 0⟩, .task 1 ⟨6, 0⟩,
      .task 1 ⟨7, 0⟩, .task 2 ⟨8, 0⟩, .task 1 ⟨9, 0⟩, .task 1 ⟨10, 0⟩, .task 2 ⟨11, 0⟩, .task 1 ⟨12, 0⟩]
    let (log, y) := (Execution.serving .memory hub activities).run turns
    (y.hub.store.history id).map (fun m => (m.content, m.sender)) = [("a", customer.user), ("b", admin.user)] ∧
      (∀ m ∈ y.hub.store.history id, ∃ (task : Nat) (a : Activity) (r : Http.Request) (caller : Identity),
        activities[task]? = some a ∧ a.request? = some r ∧ r.caller = .ok caller ∧ m.sender = caller.user) ∧
      ∃ before found request later d caller, log = before ++ .asked 2 found request :: later ∧
        (found.answer request).2.store.get? id = some d ∧ d.status = .closed ∧ closing.closes? = some id ∧
        closing.caller = .ok caller ∧ (d.owner = caller.user ∨ caller.role = .admin ∨ caller.role = .superadmin) := by
  intro hub id customer admin closing activities turns
  have undisturbed : hub.Undisturbed := fun _ _ there => by cases there
  have clients : ∀ a ∈ activities, a.OfClient := by simp [activities, Activity.OfClient]
  have facts :
      let (log, y) := (Execution.serving .memory hub activities).run turns
      hub.Distinct y.hub ∧
        (y.hub.store.history id).map (fun m => (m.content, m.sender)) = [("a", customer.user), ("b", admin.user)] ∧
        log.any (·.passes fun task found request => task == 2 && (found.store.get? id).any (·.status == .opened) &&
          ((found.answer request).2.store.get? id).any (·.status == .closed)) = true := by
    unfold Hub.Distinct
    decide +kernel
  rcases runs : (Execution.serving .memory hub activities).run turns with ⟨log, y⟩
  rw [runs] at facts
  obtain ⟨distinct, history, turn⟩ := facts
  obtain ⟨turns, messages⟩ := changed_by_owner_or_staff rfl undisturbed clients runs distinct id
  refine ⟨history, ?_, ?_⟩
  · intro m there
    obtain ⟨-, -, task, -, -, a, r, caller, -, -, activity, asks, known, sender, -⟩ := messages m there
    exact ⟨task, a, r, caller, activity, asks, known, sender⟩
  · obtain ⟨before, task, found, request, later, split, turn⟩ := Occurrence.asked_of_passes turn
    simp only [Bool.and_eq_true, beq_iff_eq, Option.any_eq_true] at turn
    obtain ⟨⟨rfl, c, stored, opened⟩, d, row, closed⟩ := turn
    have new : ∀ e, found.store.get? id = some e → e.status ≠ .closed := by
      intro e same ended
      obtain rfl : e = c := Option.some.inj (same.symm.trans stored)
      cases opened.symm.trans ended
    obtain ⟨-, closes, -⟩ := turns before 2 found request later split (.request closing) rfl
    obtain ⟨r, caller, asks, told, known, role⟩ := closes d row closed new
    cases asks
    exact ⟨before, found, request, later, d, caller, split, row, closed, told, known, role⟩

end HelpDesk
