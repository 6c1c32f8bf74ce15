import HelpDesk.Proofs.ActivityRows
import HelpDesk.Proofs.MeasuredRequests

/-! What is stored is well formed, whatever the parties do, all at the same time: every conversation has an identifier of its
own, a proper label and an opening message of its owner, and every message has a proper text and the flags of its sender. -/

namespace HelpDesk

namespace Store

structure WellFormed (s : Store) : Prop extends Valid s where
  named : ∀ c ∈ s.conversations, c.id ≠ .dashboard
  labelled : ∀ c ∈ s.conversations, Text.Proper c.label ∧ c.label.length ≤ Intake.maxLabelChars
  opened : ∀ c ∈ s.conversations, ∃ m, (s.history c.id).head? = some m ∧ m.sender = c.owner ∧
    m.content.utf8ByteSize ≤ Intake.maxContentBytes

theorem WellFormed.initial : WellFormed {} where
  toValid := .initial
  named c there := by cases there
  labelled c there := by cases there
  opened c there := by cases there

/-- The first message of a conversation stays the first. -/
theorem head?_history_snoc {s : Store} {id : ConversationId} {first : Message} (opening : (s.history id).head? = some first)
    (conversations : List Conversation) (m : Message) :
    (history ⟨conversations, s.messages ++ [m]⟩ id).head? = some first := by
  rw [history_snoc, List.head?_append, show history ⟨conversations, s.messages⟩ id = s.history id from rfl, opening]
  rfl

theorem WellFormed.next {s : Store} {e : Entry} (wellFormed : WellFormed s) (fresh : Fresh s [e])
    (named : Uuid.nil ∉ e.generated)
    (fit : ∀ starter label content, e.call = .start starter label content → Intake.Fit content label) :
    WellFormed (s.next e) := by
  have valid := wellFormed.toValid.next fresh
  generalize result : s.next e = after at valid
  cases result ▸ next_changes s e with
  | none => exact wellFormed
  | message draft asked stored active =>
    refine ⟨valid, wellFormed.named, wellFormed.labelled, fun c there => ?_⟩
    obtain ⟨m, opening, rest⟩ := wellFormed.opened c there
    exact ⟨m, head?_history_snoc opening _ _, rest⟩
  | @status d later given asked stored moves =>
    -- the new row has the identifier, the owner and the label of the one in its place
    have kept : ∀ c ∈ (s.put { d with status := later, assignee := given <|> d.assignee, updatedAt := e.clock 0 }).conversations,
        ∃ old ∈ s.conversations, old.id = c.id ∧ old.owner = c.owner ∧ old.label = c.label := by
      intro c there
      rcases mem_put.mp there with ⟨present, -⟩ | ⟨rfl, -⟩
      · exact ⟨c, present, rfl, rfl, rfl⟩
      · exact ⟨d, mem_of_get? stored, rfl, rfl, rfl⟩
    refine ⟨valid, ?_, ?_, ?_⟩ <;> intro c there <;> obtain ⟨old, present, id, owner, label⟩ := kept c there
    · exact id ▸ wellFormed.named old present
    · exact label ▸ wellFormed.labelled old present
    · rw [← id, ← owner]
      exact wellFormed.opened old present
  | @start starter label content c m asked vacant row opening =>
    have fit := fit starter label content asked
    have name : e.fresh 0 ≠ Uuid.nil := by
      intro same
      refine named (List.mem_map.mpr ⟨0, List.mem_range.mpr ?_, same⟩)
      rw [asked]
      exact Nat.succ_pos 1
    have unused : s.get? c.id = Option.none := by
      rw [row]
      exact fresh.unused (by simp [asked, Call.creates])
    have first : history ⟨s.conversations ++ [c], s.messages ++ [m]⟩ c.id = [m] := by
      have before : history ⟨s.conversations ++ [c], s.messages⟩ c.id = [] :=
        wellFormed.toValid.history_of_unused unused
      rw [history_snoc, before, if_pos (by rw [opening])]
      rfl
    refine ⟨valid, ?_, ?_, ?_⟩ <;> intro d there <;>
      rcases List.mem_append.mp there with old | new
    · exact wellFormed.named d old
    · rw [List.mem_singleton.mp new, row]
      exact fun same => name (congrArg (·.uuid) same)
    · exact wellFormed.labelled d old
    · rw [List.mem_singleton.mp new, row]
      exact ⟨fit.name, fit.length⟩
    · obtain ⟨n, opening, rest⟩ := wellFormed.opened d old
      exact ⟨n, head?_history_snoc opening _ _, rest⟩
    · rw [List.mem_singleton.mp new, first]
      refine ⟨m, rfl, ?_, ?_⟩
      · rw [opening, row]
      · rw [opening]
        exact fit.size

end Store

namespace Hub

/-- A request that is carried out goes through the store; one that is not leaves the hub as it was. -/
theorem perform_reaches (h : Hub) (call : Store.Call) :
    (h.perform call).2 = h ∨ h.Reaches [h.entry call] (h.perform call).2 := by
  simp only [perform]
  cases performed : h.store.perform h.readings h.fresh call with
  | error error => exact .inl rfl
  | ok result =>
    refine .inr ⟨?_, rfl, Nat.le_add_right _ _, ?_⟩
    · simp [Store.next, entry, performed]
    · simp [Store.Entry.generated, entry]

/-- The identifiers that are minted from one hub to another are none of them nil. -/
def Named (h k : Hub) : Prop :=
  Uuid.nil ∉ (List.range (k.minted - h.minted)).map h.fresh

theorem Reaches.named_iff {h k : Hub} {es : List Store.Entry} (reaches : h.Reaches es k) :
    h.Named k ↔ Uuid.nil ∉ es.flatMap Store.Entry.generated := by
  rw [Named, reaches.generated]

theorem Reaches.named {h k l : Hub} {first last : List Store.Entry} (a : h.Reaches first k) (b : k.Reaches last l)
    (named : h.Named l) : h.Named k ∧ k.Named l := by
  rw [(a.trans b).named_iff, List.flatMap_append, List.mem_append, not_or] at named
  rwa [a.named_iff, b.named_iff]

theorem Reaches.wellFormed {h k : Hub} {e : Store.Entry} (reaches : h.Reaches [e] k) (wellFormed : h.store.WellFormed)
    (distinct : h.Distinct k) (named : h.Named k)
    (fit : ∀ starter label content, e.call = .start starter label content → Intake.Fit content label) :
    k.store.WellFormed := by
  rw [reaches.named_iff, List.flatMap_singleton] at named
  rw [reaches.store]
  exact wellFormed.next (reaches.fresh distinct) named fit

section Requests
variable {h : Hub} {settings : Settings} {texts : List String} (wellFormed : h.store.WellFormed)
include wellFormed

theorem perform_wellFormed {call : Store.Call} (measured : Request.Measured settings texts (.store call))
    (distinct : h.Distinct (h.perform call).2) (named : h.Named (h.perform call).2) :
    (h.perform call).2.store.WellFormed := by
  rcases h.perform_reaches call with same | reaches
  · rwa [same]
  · refine reaches.wellFormed wellFormed distinct named ?_
    rintro starter label content rfl
    exact measured.fit

theorem answer_wellFormed {request : Request} (measured : request.Measured settings texts)
    (distinct : h.Distinct (h.answer request).2) (named : h.Named (h.answer request).2) :
    (h.answer request).2.store.WellFormed := by
  cases request with
  | rooms command => exact wellFormed
  | join room session identity capacity holding => exact wellFormed
  | roomCount => exact wellFormed
  | store call =>
    change h.Distinct (h.callStore call).2 at distinct
    change h.Named (h.callStore call).2 at named
    show (h.callStore call).2.store.WellFormed
    have goes := h.callStore_goes call
    generalize h.callStore call = outcome at goes distinct named
    cases goes with
    | failed error faults => exact wellFormed
    | performed faults => exact perform_wellFormed (h := { h with faults }) wellFormed measured distinct named
    | @overtaken status faults inherits disturbed answer k performed =>
      have carried := perform_wellFormed (h := { h with faults }) wellFormed measured
      have reaches : ∃ es, Hub.Reaches { h with faults } es k := by
        rcases Hub.perform_reaches { h with faults } call with same | reaches <;> rw [performed] at *
        · exact ⟨[], same ▸ .refl _⟩
        · exact ⟨_, reaches⟩
      rw [performed] at carried
      obtain ⟨es, reaches⟩ := reaches
      have moved := k.moveIfPossible_reaches call.subject status
      obtain ⟨before, after⟩ := reaches.named moved named
      refine moved.wellFormed (carried (reaches.distinct_left moved distinct) before)
        (reaches.distinct_right moved distinct) after ?_
      intro starter label content other
      cases other

end Requests

theorem message_of_started {h : Hub} {starter : Identity} {label content : String} {c : Conversation} {opening : Message}
    (started : (h.answer (.store (.start starter label content))).1 = (.ok (.created c opening) : Except StoreError Start)) :
    ∃ id, opening = ⟨id, c.id, starter.user, content, starter.role.isSystem, starter.role.isAdmin, h.readings 1⟩ := by
  have called := h.callStore_called (.start starter label content)
  change (h.callStore (.start starter label content)).1 = _ at started
  generalize h.callStore (.start starter label content) = outcome at called started
  cases called with
  | failed error l same registry => cases started
  | carried answer k l performed reaches others overtaken registry =>
    generalize k.store = t at performed
    cases Store.performed_of_ok performed with
    | alreadyOpen active => cases started
    | created vacant row message =>
      cases started
      exact ⟨_, message⟩

end Hub

theorem Role.not_both (role : Role) : ¬ (role.isSystem = true ∧ role.isAdmin = true) := by
  cases role <;> simp [isSystem, isAdmin]

namespace Activity

/-- The message is one of the activity's own: it opens a conversation that the party starts, or it is what the party says
over a socket. -/
structure Owns (a : Activity) (settings : Settings) (request : Request) (m : Message) (party : Identity) : Prop where
  acts : a.party? = some party
  sender : m.sender = party.user
  system : m.isSystem = party.role.isSystem
  staff : m.isAdmin = party.role.isAdmin
  content : Text.Proper m.content
  source : (∃ label, request = .store (.start party label m.content)) ∨
    ∃ text ∈ a.texts, InboundFrame.content? text = some m.content ∧ m.content.utf8ByteSize ≤ settings.maxFrameBytes

end Activity

namespace Execution
variable {database : Http.DatabaseHealth} {hub : Hub} {activities : List Activity} {turns : List Turn}
  {log : List Occurrence} {y : Execution Unit} (runs : (serving database hub activities).run turns = (log, y))
include runs

theorem owner_of_posted {task : Nat} {found : Hub} {request : Request} {m : Message}
    (there : .asked task found request ∈ log) (posted : request.posted? (found.answer request).1 = some m) :
    ∃ a party, activities[task]? = some a ∧ a.Owns hub.settings request m party := by
  obtain ⟨a, activity, measured⟩ := asks_measured runs there
  obtain ⟨before, later, split⟩ := List.append_of_mem there
  obtain ⟨a', activity', may⟩ := may_ask runs split
  obtain rfl : a' = a := Option.some.inj (activity'.symm.trans activity)
  cases measured with
  | silent silent => cases (silent _).symm.trans posted
  | @opening starter content label fit =>
    obtain ⟨c, started⟩ : ∃ c, (found.answer (.store (.start starter label content))).1 =
        (.ok (.created c m) : Except StoreError Start) := by
      generalize (found.answer (.store (.start starter label content))).1 = reply at posted
      rcases reply with error | (⟨c, opening⟩ | c) <;> cases posted
      exact ⟨c, rfl⟩
    obtain ⟨_, rfl⟩ := Hub.message_of_started started
    cases may with
    | starts acts label content => exact ⟨a', starter, activity, acts, rfl, rfl, rfl, fit.message, .inl ⟨label, rfl⟩⟩
  | @message draft text sent short meant =>
    have created : (found.answer (.store (.createMessage draft))).1 = (.ok m : Except StoreError Message) := by
      generalize (found.answer (.store (.createMessage draft))).1 = reply at posted
      cases reply <;> cases posted
      rfl
    obtain ⟨_, rfl⟩ := Hub.message_of_created created
    obtain ⟨proper, size⟩ := InboundFrame.content_short meant
    cases may with
    | @writes party acts room elsewhere admitted content =>
      exact ⟨a', party, activity, acts, rfl, rfl, rfl, proper, .inr ⟨text, sent, meant, size.trans short⟩⟩

theorem named_of_asked (named : hub.Named y.hub) {task : Nat} {found : Hub} {request : Request}
    (there : .asked task found request ∈ log) : found.Named (found.answer request).2 := by
  obtain ⟨before, later, rfl⟩ := List.append_of_mem there
  obtain ⟨-, ⟨_, start⟩, v, _, after, onward⟩ := run_asked runs
  obtain ⟨_, answered⟩ := found.answer_reaches request
  obtain ⟨-, _, rest⟩ := run_hub onward
  rw [after] at rest
  exact (answered.named rest (start.named (answered.trans rest) named).2).1

theorem run_wellFormed (empty : hub.store = {}) (distinct : hub.Distinct y.hub) (named : hub.Named y.hub) :
    y.hub.store.WellFormed := by
  have initial : (serving database hub activities).hub.store.WellFormed := by
    show hub.store.WellFormed
    rw [empty]
    exact .initial
  refine run_invariant (.of_store Store.WellFormed) runs initial ?_
  rintro before task found request later rfl wellFormed
  have there : .asked task found request ∈ before ++ .asked task found request :: later :=
    List.mem_append_right _ List.mem_cons_self
  obtain ⟨a, -, measured⟩ := asks_measured runs there
  exact Hub.answer_wellFormed wellFormed measured (distinct_of_asked runs distinct there) (named_of_asked runs named there)

end Execution

/-- Whatever the parties do, all at the same time, and whatever fails meanwhile: every conversation that is stored has an
identifier that is not nil, a proper label of at most 255 characters and a first message, which is its owner's and has at
most 50,000 bytes. Every message belongs to a stored conversation and has a proper text; it was stored for a party that is
its sender and whose role its flags are, of which at most one is set; and unless it opened the conversation, it is what a
text of that party says and has at most as many bytes as a frame may have. -/
theorem stored_data_well_formed {database : Http.DatabaseHealth} {hub : Hub} (empty : hub.store = {})
    {activities : List Activity} {turns : List Turn} {log : List Occurrence}
    {y : Execution Unit} (runs : (Execution.serving database hub activities).run turns = (log, y))
    (distinct : hub.Distinct y.hub) (named : hub.Named y.hub) :
    (∀ c ∈ y.hub.store.conversations, c.id.uuid ≠ Uuid.nil ∧
      c.label ≠ "" ∧ Text.Trimmed c.label ∧ c.label.length ≤ 255 ∧
      ∃ m, (y.hub.store.history c.id).head? = some m ∧ m.sender = c.owner ∧ m.content.utf8ByteSize ≤ 50000) ∧
    ∀ m ∈ y.hub.store.messages, (∃ c ∈ y.hub.store.conversations, c.id = m.conversation) ∧
      m.content ≠ "" ∧ Text.Trimmed m.content ∧ ¬ (m.isSystem = true ∧ m.isAdmin = true) ∧
      ∃ task found request a party, .asked task found request ∈ log ∧
        (Occurrence.asked task found request).posted? = some m ∧ activities[task]? = some a ∧
        a.party? = some party ∧ m.sender = party.user ∧
        m.isSystem = party.role.isSystem ∧ m.isAdmin = party.role.isAdmin ∧
        ((∃ label, request = .store (.start party label m.content)) ∨
          ∃ text ∈ a.texts, InboundFrame.content? text = some m.content ∧
            m.content.utf8ByteSize ≤ hub.settings.maxFrameBytes) := by
  have wellFormed := Execution.run_wellFormed runs empty distinct named
  refine ⟨fun c there => ?_, fun m there => ?_⟩
  · obtain ⟨name, short⟩ := wellFormed.labelled c there
    refine ⟨fun same => wellFormed.named c there ?_, name.nonempty, name.trimmed, short, wellFormed.opened c there⟩
    obtain ⟨⟨uuid⟩, _⟩ := c
    exact congrArg ConversationId.mk same
  · have posted := Execution.run_messages runs
    rw [show (Execution.serving database hub activities).hub.store = {} from empty, List.nil_append] at posted
    obtain ⟨o, member, stored⟩ := List.mem_filterMap.mp (posted ▸ there)
    cases o with
    | received queue => cases stored
    | gone queue => cases stored
    | asked task found request =>
      obtain ⟨a, party, activity, owns⟩ := Execution.owner_of_posted runs member stored
      refine ⟨wellFormed.messages m there, owns.content.nonempty, owns.content.trimmed, ?_, task, found, request, a, party,
        member, stored, activity, owns.acts, owns.sender, owns.system, owns.staff, owns.source⟩
      rw [owns.system, owns.staff]
      exact party.role.not_both

/-- A customer's blank label and padded content, and an admin's text with an escape in it, are stored as they should be. -/
theorem stored_data_well_formed_of_escape :
    let hub : Hub := { settings := .default, clock := ⟨0, 0⟩, mint := fun n => .ofNat (n + 1) }
    let id : ConversationId := ⟨.ofNat 1⟩
    let customer : Identity := ⟨⟨.ofNat 1001⟩, .user⟩
    let admin : Identity := ⟨⟨.ofNat 1000⟩, .admin⟩
    let text := "\x7b\"content\":\" \\u0062 \"\x7d"
    let activities : List Activity :=
      [.operation (.start customer " a " (some "  ")),
        .visit ⟨0⟩ (.forSocket admin ("/ws/conversations/" ++ toString id)) [text]]
    let turns : List Turn := [.task 0 ⟨1, 0⟩, .task 0 ⟨2, 0⟩, .task 1 ⟨3, 0⟩, .task 1 ⟨4, 0⟩, .task 1 ⟨5, 0⟩, .task 1 ⟨6, 0⟩,
      .task 1 ⟨7, 0⟩, .task 1 ⟨8, 0⟩, .task 1 ⟨9, 0⟩, .task 1 ⟨10, 0⟩]
    let (log, y) := (Execution.serving .memory hub activities).run turns
    y.hub.store.conversations.map (·.label) = ["New Chat"] ∧
      y.hub.store.messages.map (fun m => (m.content, m.isSystem, m.isAdmin)) = [("a", false, false), ("b", false, true)] ∧
      (∀ c ∈ y.hub.store.conversations, c.id.uuid ≠ Uuid.nil ∧
        ∃ m, (y.hub.store.history c.id).head? = some m ∧ m.sender = c.owner) ∧
      ∀ m ∈ y.hub.store.messages, Text.Trimmed m.content ∧ ∃ task found request a party, .asked task found request ∈ log ∧
        activities[task]? = some a ∧ a.party? = some party ∧ m.sender = party.user ∧
        ((∃ label, request = .store (.start party label m.content)) ∨
          ∃ text ∈ a.texts, InboundFrame.content? text = some m.content) := by
  intro hub id customer admin text activities turns
  have facts :
      let (_, y) := (Execution.serving .memory hub activities).run turns
      hub.Distinct y.hub ∧ hub.Named y.hub ∧ y.hub.store.conversations.map (·.label) = ["New Chat"] ∧
        y.hub.store.messages.map (fun m => (m.content, m.isSystem, m.isAdmin)) =
          [("a", false, false), ("b", false, true)] := by
    unfold Hub.Distinct Hub.Named
    decide +kernel
  rcases runs : (Execution.serving .memory hub activities).run turns with ⟨log, y⟩
  rw [runs] at facts
  obtain ⟨distinct, named, labels, contents⟩ := facts
  obtain ⟨conversations, messages⟩ := stored_data_well_formed rfl runs distinct named
  refine ⟨labels, contents, fun c there => ?_, fun m there => ?_⟩
  · obtain ⟨name, -, -, -, m, opening, sender, -⟩ := conversations c there
    exact ⟨name, m, opening, sender⟩
  · obtain ⟨-, -, trimmed, -, task, found, request, a, party, member, -, activity, acts, sender, -, -, source⟩ :=
      messages m there
    refine ⟨trimmed, task, found, request, a, party, member, activity, acts, sender, source.imp_right ?_⟩
    rintro ⟨text, sent, meant, -⟩
    exact ⟨text, sent, meant⟩

end HelpDesk
