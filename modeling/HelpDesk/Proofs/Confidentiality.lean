import HelpDesk.Proofs.ActivityRows
import HelpDesk.Proofs.RegistryPlacements

/-! Who gets to see a frame, when rooms are entered only over sockets. The registry asks nobody who they are, and the room of
the dashboards has an identifier like that of a conversation: that no frame gets into the wrong hands rests on who was let in,
and on what is sent to which room. -/

namespace HelpDesk
open Registry

/-- Somebody came over a socket with the session, as the party. -/
def Visited (activities : List Activity) (session : SessionId) (party : Identity) : Prop :=
  ∃ r texts, .visit session r texts ∈ activities ∧ r.caller = .ok party

/-- The frame may be for the member of the room, when a task that has had the turns `os` gets it queued or parked. -/
inductive Confined (activities : List Activity) (os : List Occurrence) (task : Nat) (found : Hub) (room : ConversationId)
    (m : Member Parcel) : Frame → Prop
  /-- the message that the task has stored last, for the owner of its conversation, staff and the system -/
  | chat {msg : Message} (last : (os.filterMap (·.posted?)).getLast? = some msg) (here : msg.conversation = room)
      {c : Conversation} (stored : found.store.get? room = some c)
      (role : c.owner = m.identity.user ∨ m.identity.role = .admin ∨ m.identity.role = .superadmin ∨
        m.identity.role = .system) : Confined activities os task found room m (.chat (.ofMessage msg))
  /-- for staff -/
  | summaries (list : List Summary) (role : m.identity.role = .admin ∨ m.identity.role = .superadmin) :
      Confined activities os task found room m (.summaries list)
  /-- for the session that has sent a text, if the task's last turn showed that the conversation is closed -/
  | error {a : Activity} (activity : activities[task]? = some a) (own : a.session? = some m.session) {text : String}
      (sent : text ∈ a.texts) (meant : (InboundFrame.content? text).isSome) {o : Occurrence} (last : os.getLast? = some o)
      (refused : o.Refuses room) : Confined activities os task found room m (.error .conversationClosed)

namespace Activity
variable {a : Activity}

theorem visit_of_enters {activities : List Activity} (upgrades : ∀ c, .operation (.enter c) ∉ activities)
    (there : a ∈ activities) (enters : a.enters = true) : ∃ session r texts, a = .visit session r texts := by
  cases a with
  | visit session r texts => exact ⟨session, r, texts, rfl⟩
  | request r => cases enters
  | operation work =>
    cases work with
    | enter c => exact absurd there (upgrades c)
    | _ => cases enters

end Activity

namespace Hub
variable {activities : List Activity} {h k : Hub} {es : List Store.Entry}

/-- A member came over a socket and may be in the room. Only a dashboard holds, and what it holds are summaries. -/
structure Guards (activities : List Activity) (h : Hub) (room : ConversationId) (m : Member Parcel) : Prop where
  visited : Visited activities m.session m.identity
  admitted : h.Admits m.identity room
  parks : ∀ held, m.held = some held → room = .dashboard ∧ ∀ parcel ∈ held, ∃ list, parcel.frame = .summaries list

structure Guarded (activities : List Activity) (h : Hub) : Prop where
  valid : h.registry.Valid
  manned : h.registry.Manned
  guards : ∀ room, ∀ m ∈ h.registry.members room, h.Guards activities room m

theorem Guarded.initial (empty : h.registry = {}) : h.Guarded activities := by
  refine ⟨empty ▸ .initial, empty ▸ .initial, fun room m there => ?_⟩
  rw [empty] at there
  cases there

theorem Guarded.of_same (guarded : h.Guarded activities) (registry : k.registry = h.registry) (reaches : h.Reaches es k) :
    k.Guarded activities := by
  refine ⟨registry ▸ guarded.valid, registry ▸ guarded.manned, fun room m there => ?_⟩
  rw [registry] at there
  have guards := guarded.guards room m there
  exact ⟨guards.visited, reaches.admits guards.admitted, guards.parks⟩

theorem Guarded.next (guarded : h.Guarded activities) {e : Event Parcel} (registry : k.registry = h.registry.next e)
    (reaches : h.Reaches es k)
    (joins : ∀ room session party capacity holding, e = .join room session party capacity holding →
      Visited activities session party ∧ h.Admits party room ∧ (holding = true → room = .dashboard))
    (offers : ∀ p : Place, p.room = .dashboard → ∀ parcel ∈ e.offered p, ∃ list, parcel.frame = .summaries list) :
    k.Guarded activities := by
  refine ⟨registry ▸ guarded.valid.next e, registry ▸ guarded.manned.next guarded.valid e, fun room left there => ?_⟩
  rw [registry] at there
  rcases mem_next guarded.valid there with ⟨m, old, keeps⟩ | ⟨capacity, holding, joined, newcomer⟩
  · have guards := guarded.guards room m old
    refine ⟨?_, ?_, fun parked holds => ?_⟩
    · rw [keeps.session, keeps.identity]
      exact guards.visited
    · rw [keeps.identity]
      exact reaches.admits guards.admitted
    · rcases held_next guarded.valid guarded.manned old there keeps with free | ⟨held, held', more⟩
      · cases free.symm.trans holds
      · cases more.symm.trans holds
        obtain ⟨here, shown⟩ := guards.parks held held'
        refine ⟨here, fun parcel member => ?_⟩
        rcases List.mem_append.mp member with before | now
        · exact shown parcel before
        · exact offers _ here parcel now
  · obtain ⟨visited, admitted, dashboard⟩ := joins _ _ _ _ _ joined
    refine ⟨visited, reaches.admits admitted, fun held holds => ?_⟩
    rw [newcomer] at holds
    cases holding with
    | false => cases holds
    | true =>
      cases holds
      exact ⟨dashboard rfl, fun parcel none => by cases none⟩

theorem guarded_lasting (activities : List Activity) : Lasting (Guarded activities) := by
  refine ⟨fun now guarded => guarded.of_same rfl (.of_same rfl rfl rfl), ?_, ?_⟩
  · intro h queue guarded
    exact guarded.next (e := .receive queue) rfl (.of_same rfl rfl rfl) (fun _ _ _ _ _ same => by cases same)
      fun _ _ _ none => by cases none
  · intro h queue guarded
    exact guarded.next (e := .endReceiving queue) rfl (.of_same rfl rfl rfl) (fun _ _ _ _ _ same => by cases same)
      fun _ _ _ none => by cases none

end Hub

namespace Execution
variable {database : Http.DatabaseHealth} {hub : Hub} {activities : List Activity} {turns : List Turn}
  {before later : List Occurrence} {task : Nat} {found : Hub} {request : Request} {y : Execution Unit}
  (upgrades : ∀ c, .operation (.enter c) ∉ activities)
  (runs : (serving database hub activities).run turns = (before ++ .asked task found request :: later, y))
include upgrades runs

theorem guarded_of_answer (guarded : found.Guarded activities) : (found.answer request).2.Guarded activities := by
  obtain ⟨a, activity, may⟩ := may_ask runs rfl
  obtain ⟨es, reaches⟩ := found.answer_reaches request
  have registry := found.answer_registry request
  cases event : request.event? with
  | none =>
    rw [event] at registry
    exact guarded.of_same registry reaches
  | some e =>
    rw [event] at registry
    refine guarded.next registry reaches ?_ ?_
    · intro room session party capacity holding joined
      cases joined
      cases may with
      | joins enters acts own admitted capacity =>
        cases event
        have member := List.mem_of_getElem? activity
        obtain ⟨_, r, texts, rfl⟩ := a.visit_of_enters upgrades member enters
        cases own
        refine ⟨⟨r, texts, member, r.caller_of_toOption acts⟩, ?_, ?_⟩
        · rcases admitted with ⟨_, none⟩ | entitled
          · cases none
          · exact admits_of_entitled runs (entitled.mono (List.filter_subset_self _))
        · intro holding
          simpa [ConversationId.isDashboard] using holding
      | _ => cases event
    · intro p here parcel offered
      have offers := Activity.offers_of_offered may event offered
      generalize parcel.frame = frame at offers
      cases offers with
      | summaries list => exact ⟨list, rfl⟩
      | chat _ _ elsewhere => exact absurd here elsewhere
      | error _ _ _ elsewhere => exact absurd here elsewhere

variable (empty : hub.registry = {})
include empty

theorem guarded_of_asked : found.Guarded activities := by
  refine asked_invariant (Hub.guarded_lasting activities) runs (.initial empty) ?_
  intro first other hub asked rest earlier guarded
  subst earlier
  rw [List.append_assoc, List.cons_append] at runs
  exact guarded_of_answer upgrades runs guarded

theorem confined_of_owed {room : ConversationId} {m : Member Parcel} (there : m ∈ found.registry.members room)
    {e : Event Parcel} (event : request.event? = some e) {parcel : Parcel}
    (owed : Owed ⟨room, m.session, m.queue⟩ m e parcel) :
    Confined activities (before.filter (·.isOf task)) task found room m parcel.frame := by
  have guards := (guarded_of_asked upgrades runs empty).guards room m there
  have admitted := guards.admitted
  obtain ⟨a, activity, may⟩ := may_ask runs rfl
  have staff (here : room = .dashboard) : m.identity.role = .admin ∨ m.identity.role = .superadmin := by
    rw [Hub.Admits, if_pos here] at admitted
    exact m.identity.role.isAdmin_iff.mp admitted
  rcases owed with offered | ⟨released, parked⟩
  · have offers := Activity.offers_of_offered may event offered
    generalize parcel.frame = frame at offers
    cases offers with
    | summaries list here => exact .summaries list (staff here)
    | chat last here elsewhere =>
      rw [Hub.Admits, if_neg elsewhere] at admitted
      obtain ⟨c, stored, role⟩ := admitted
      exact .chat last here stored (role.imp_right m.identity.role.opensConversations_iff.mp)
    | error own sent meant elsewhere last refused => exact .error activity own sent meant last refused
  · cases holds : m.held with
    | none =>
      rw [holds] at parked
      cases parked
    | some held =>
      rw [holds] at parked
      obtain ⟨here, shown⟩ := guards.parks held holds
      obtain ⟨list, same⟩ := shown parcel parked
      rw [same]
      exact .summaries list (staff here)

end Execution

/-- Where rooms are entered only over sockets, whatever is put on a queue or parked for its receiver, in any turn, is for a
member of a room who came over a socket and may see it: the messages of a conversation are for its owner, staff and the
system, summaries are for staff, and an error is for the session whose own text was refused. -/
theorem placed_for_admitted {database : Http.DatabaseHealth} {hub : Hub} {activities : List Activity} {turns : List Turn}
    {before later : List Occurrence} {o : Occurrence} {y : Execution Unit} (empty : hub.registry = {})
    (upgrades : ∀ c, .operation (.enter c) ∉ activities)
    (runs : (Execution.serving database hub activities).run turns = (before ++ o :: later, y)) {e : Event Parcel}
    (event : o.event? = some e) {queue : QueueId} {parcel : Parcel}
    (places : (hub.registry.after (before.filterMap (·.event?))).Places e queue parcel) :
    ∃ task found request, o = .asked task found request ∧ ∃ room, ∃ m ∈ found.registry.members room,
      m.queue = queue ∧ Visited activities m.session m.identity ∧
      Confined activities (before.filter (·.isOf task)) task found room m parcel.frame := by
  have valid : (hub.registry.after (before.filterMap (·.event?))).Valid := (empty ▸ Valid.initial : hub.registry.Valid).after _
  have manned : (hub.registry.after (before.filterMap (·.event?))).Manned :=
    (empty ▸ Manned.initial : hub.registry.Manned).after (empty ▸ Valid.initial) _
  obtain ⟨room, m, there, rfl, owed⟩ := owed_of_places valid manned places
  cases o with
  | received queue =>
    cases event
    rcases owed with none | ⟨none, -⟩
    · cases none
    · exact absurd rfl none
  | gone queue =>
    cases event
    rcases owed with none | ⟨none, -⟩
    · cases none
    · exact absurd rfl none
  | asked task found request =>
    have registry : found.registry = hub.registry.after (before.filterMap (·.event?)) := (Execution.run_asked runs).1
    rw [← registry] at there
    have guards := (Execution.guarded_of_asked upgrades runs empty).guards room m there
    exact ⟨task, found, request, rfl, room, m, there, rfl, guards.visited,
      Execution.confined_of_owed upgrades runs empty there event owed⟩

/-- An admin listens at the dashboard while a user opens a conversation, writes there, and writes again when it is closed. -/
theorem placed_for_admitted_of_visits :
    let hub : Hub := { settings := .default, clock := ⟨0, 0⟩, mint := fun n => .ofNat (n + 1) }
    let id : ConversationId := ⟨.ofNat 1⟩
    let customer : Identity := ⟨⟨.ofNat 1001⟩, .user⟩
    let admin : Identity := ⟨⟨.ofNat 1000⟩, .admin⟩
    let activities : List Activity :=
      [.visit ⟨0⟩ (.forSocket admin "/ws/admin") [], .operation (.start customer "a" none),
      .visit ⟨1⟩ (.forSocket customer ("/ws/conversations/" ++ toString id))
        ["\x7b\"content\":\"b\"\x7d", "\x7b\"content\":\"c\"\x7d"], .operation (.close id admin)]
    let turns : List Turn := [.task 0 ⟨1, 0⟩, .task 0 ⟨2, 0⟩, .task 1 ⟨3, 0⟩, .task 1 ⟨4, 0⟩, .task 0 ⟨5, 0⟩, .task 2 ⟨6, 0⟩,
      .task 2 ⟨7, 0⟩, .task 2 ⟨8, 0⟩, .task 2 ⟨9, 0⟩, .task 2 ⟨10, 0⟩, .task 3 ⟨11, 0⟩, .task 3 ⟨12, 0⟩, .task 3 ⟨13, 0⟩,
      .task 2 ⟨14, 0⟩, .task 2 ⟨15, 0⟩]
    let shown : List (QueueId × Frame) := [(⟨0⟩, .summaries [⟨id, customer.user, .pending, ⟨3, 0⟩⟩]),
      (⟨1⟩, .chat ⟨"b", customer.user, ⟨9, 0⟩, false⟩), (⟨1⟩, .error .conversationClosed)]
    let (log, _) := (Execution.serving .memory hub activities).run turns
    ∀ s ∈ shown, ∃ before task found request later room m, log = before ++ .asked task found request :: later ∧
      m ∈ found.registry.members room ∧ m.queue = s.1 ∧ Visited activities m.session m.identity ∧
      Confined activities (before.filter (·.isOf task)) task found room m s.2 := by
  intro hub id customer admin activities turns shown
  have upgrades : ∀ c, .operation (.enter c) ∉ activities := by simp [activities]
  have facts :
      let (log, _) := (Execution.serving .memory hub activities).run turns
      ∀ s ∈ shown, log.any (·.passes fun _ found request => request.event?.any fun e =>
        (found.registry.added s.1 e ++
          ((found.registry.next e).parked .dashboard s.1).drop (found.registry.parked .dashboard s.1).length).any
            (·.frame = s.2)) = true := by
    decide +kernel
  rcases runs : (Execution.serving .memory hub activities).run turns with ⟨log, y⟩
  rw [runs] at facts
  intro s member
  obtain ⟨before, task, found, request, later, rfl, happened⟩ := Occurrence.asked_of_passes (facts s member)
  simp only [Option.any_eq_true, List.any_eq_true, decide_eq_true_eq] at happened
  obtain ⟨e, event, parcel, placed, frame⟩ := happened
  have places : found.registry.Places e s.1 parcel :=
    (List.mem_append.mp placed).imp_right fun parked => ⟨.dashboard, parked⟩
  rw [(Execution.run_asked runs).1] at places
  obtain ⟨_, _, _, same, room, m, present, owns, visited, confined⟩ :=
    placed_for_admitted rfl upgrades runs (o := .asked task found request) event places
  cases same
  rw [frame] at confined
  exact ⟨before, task, found, request, later, room, m, rfl, present, owns, visited, confined⟩

end HelpDesk
