import HelpDesk.Proofs.BoundedPrograms
import HelpDesk.Proofs.ConnectionTexts
import HelpDesk.Proofs.RegistryOffers

/-! What a connection returns about a text, and what it has done by then. The outcome is told by the text and by what the store
replied; a message is stored and offered to the room exactly with the outcome that tells of it. -/

namespace HelpDesk

namespace Occurrence

/-- In a turn like this no conversation is read and no message stored. -/
structure Further (o : Occurrence) : Prop where
  unloaded : o.loaded? = none
  uninserted : o.inserted? = none
  unposted : o.posted? = none

theorem Opens.further {o : Occurrence} (opens : o.Opens) : o.Further := by
  cases opens with
  | moves task hub id status assignee => exact ⟨rfl, rfl, rfl⟩
  | shows task hub frame => exact ⟨rfl, rfl, rfl⟩

section Further
variable {os : List Occurrence} (further : ∀ o ∈ os, o.Further)
include further

theorem loaded_of_further : os.filterMap (·.loaded?) = [] :=
  List.filterMap_eq_nil_iff.mpr fun o there => (further o there).unloaded

theorem inserted_of_further : os.filterMap (·.inserted?) = [] :=
  List.filterMap_eq_nil_iff.mpr fun o there => (further o there).uninserted

theorem posted_of_further : os.filterMap (·.posted?) = [] :=
  List.filterMap_eq_nil_iff.mpr fun o there => (further o there).unposted

end Further

end Occurrence

namespace Connection
variable {c : Connection} {settings : Settings} {text : String} {os : List Occurrence} {outcome : Outcome} {m : Message}

theorem Refuses.further (refuses : c.Refuses os) : ∀ o ∈ os, o.Further := by
  cases refuses with
  | intro task hub frame =>
    intro o there
    rw [List.mem_singleton.mp there]
    exact ⟨rfl, rfl, rfl⟩

theorem Says.further (tells : c.Says m os) : ∀ o ∈ os, o.Further := by
  cases tells with
  | undated => exact List.forall_mem_nil _
  | dated task hub frame dated =>
    intro o there
    rw [List.mem_singleton.mp there]
    exact ⟨rfl, rfl, rfl⟩

/-- What a conversation was read as and a message was stored as, and the outcome that follows from this. -/
inductive Judges (c : Connection) (settings : Settings) (text : String) :
    List (Except StoreError Conversation) → List (Except StoreError Message) → Outcome → Prop
  | dropped {outcome : Outcome} (unaccepted : ∀ content, ¬ c.Accepts settings text content)
      (early : outcome = .oversized ∨ outcome = .ignored ∨ outcome = .malformed) : Judges c settings text [] [] outcome
  | unloaded {content : String} (accepts : c.Accepts settings text content) (error : StoreError) :
      Judges c settings text [.error error] [] .persistFailed
  | closed {content : String} (accepts : c.Accepts settings text content) {current : Conversation}
      (final : current.status.isFinal = true) : Judges c settings text [.ok current] [] .conversationClosed
  | refused {content : String} (accepts : c.Accepts settings text content) {current : Conversation}
      (active : current.status.isFinal = false) (id : ConversationId) :
      Judges c settings text [.ok current] [.error (.closed id)] .conversationClosed
  | failed {content : String} (accepts : c.Accepts settings text content) {current : Conversation}
      (active : current.status.isFinal = false) {error : StoreError} (other : ∀ id, error ≠ .closed id) :
      Judges c settings text [.ok current] [.error error] .persistFailed
  | delivered {content : String} (accepts : c.Accepts settings text content) {current : Conversation}
      (active : current.status.isFinal = false) (m : Message) :
      Judges c settings text [.ok current] [.ok m] (.delivered m)

section Judges
variable {loaded : List (Except StoreError Conversation)} {inserted : List (Except StoreError Message)}
  (judges : c.Judges settings text loaded inserted outcome)
include judges

theorem Judges.closed_iff : outcome = .conversationClosed ↔ (∃ content, c.Accepts settings text content) ∧
    ((∃ current : Conversation, .ok current ∈ loaded ∧ current.status.isFinal = true) ∨
      ∃ id, .error (.closed id) ∈ inserted) := by
  cases judges with
  | dropped unaccepted early => rcases early with rfl | rfl | rfl <;> simp [unaccepted]
  | unloaded accepts error => simp
  | closed accepts final => simpa [final] using ⟨_, accepts⟩
  | refused accepts active id => simpa using ⟨_, accepts⟩
  | failed accepts active other => simp [active, fun id => (other id).symm]
  | delivered accepts active m => simp [active]

theorem Judges.failed_iff : outcome = .persistFailed ↔ (∃ content, c.Accepts settings text content) ∧
    ((∃ error, .error error ∈ loaded) ∨ ∃ error, (∀ id, error ≠ .closed id) ∧ .error error ∈ inserted) := by
  cases judges with
  | dropped unaccepted early => rcases early with rfl | rfl | rfl <;> simp [unaccepted]
  | unloaded accepts error => simpa using ⟨_, accepts⟩
  | closed accepts final => simp
  | refused accepts active id => simp
  | @failed content accepts current active error other => simpa using ⟨⟨_, accepts⟩, other⟩
  | delivered accepts active m => simp

theorem Judges.delivered_iff (m : Message) : outcome = .delivered m ↔ .ok m ∈ inserted := by
  cases judges with
  | dropped unaccepted early => rcases early with rfl | rfl | rfl <;> simp
  | unloaded | closed | refused | failed => simp
  | delivered accepts active n => simp [eq_comm]

end Judges

theorem further_of_told {moving saying : List Occurrence} (opens : ∀ o ∈ moving, o.Opens) (tells : c.Says m saying) :
    ∀ o ∈ moving ++ saying, o.Further := by
  intro o there
  rcases List.mem_append.mp there with there | there
  · exact (opens o there).further
  · exact tells.further o there

/-- The outcome is what the text makes it, and what the store replies in these turns. -/
structure Decided (c : Connection) (settings : Settings) (text : String) (os : List Occurrence) (outcome : Outcome) :
    Prop where
  oversized : outcome = .oversized ↔ settings.maxFrameBytes < text.utf8ByteSize
  ignored : outcome = .ignored ↔ text.utf8ByteSize ≤ settings.maxFrameBytes ∧ c.isDashboard = true
  malformed : outcome = .malformed ↔ text.utf8ByteSize ≤ settings.maxFrameBytes ∧ c.isDashboard = false ∧
    InboundFrame.content? text = none
  failed : outcome = .persistFailed ↔ (∃ content, c.Accepts settings text content) ∧
    ((∃ error, .error error ∈ os.filterMap (·.loaded?)) ∨
      ∃ error, (∀ id, error ≠ .closed id) ∧ .error error ∈ os.filterMap (·.inserted?))
  closed : outcome = .conversationClosed ↔ (∃ content, c.Accepts settings text content) ∧
    ((∃ current : Conversation, .ok current ∈ os.filterMap (·.loaded?) ∧ current.status.isFinal = true) ∨
      ∃ id, .error (.closed id) ∈ os.filterMap (·.inserted?))
  delivered : ∀ m, outcome = .delivered m ↔ .ok m ∈ os.filterMap (·.inserted?)

/-- In these turns the message of the outcome is stored: the text as it is read, in the name of the sender, at the time that
the clock shows. If there is none, nothing is written. -/
structure Stored (c : Connection) (text : String) (os : List Occurrence) (outcome : Outcome) : Prop where
  posted : os.filterMap (·.posted?) = outcome.message?.toList
  message : ∀ m, outcome.message? = some m → c.Writes text m ∧ ∃ task hub,
    .asked task hub (.store (.createMessage (.ofSender c.room c.identity m.content))) ∈ os ∧ m.createdAt = hub.clock ∧
      (hub.answer (.store (.createMessage (.ofSender c.room c.identity m.content)))).2.store.messages =
        hub.store.messages ++ [m]
  nothing : outcome.message? = none → ∀ o ∈ os, o.Unwriting

/-- In these turns everybody in the room is offered the message of the outcome, once, if the message has a text; and the
dashboards may be shown a conversation. If the conversation was closed, the sender alone is told so. -/
structure Sent (c : Connection) (os : List Occurrence) (outcome : Outcome) : Prop where
  nothing : outcome.message? = none → outcome ≠ .conversationClosed → os.filterMap (·.event?) = []
  refusal : outcome = .conversationClosed → ∃ parcel : Parcel, parcel.frame = .error .conversationClosed ∧
    os.filterMap (·.event?) = [.command (.sendTo c.room c.session parcel)]
  chat : ∀ m, outcome.message? = some m → c.room ≠ .dashboard ∧ ∃ shown said,
    os.filterMap (·.event?) = shown ++ said ∧
    (∀ e ∈ shown, ∃ parcel : Parcel, e = .command (.broadcast .dashboard parcel) ∧
      ∃ list, parcel.frame = .summaries list) ∧
    (m.createdAt.toChars?.isSome = true → ∃ parcel : Parcel, said = [.command (.broadcast c.room parcel)] ∧
      parcel.frame = .chat (.ofMessage m) ∧
      ∀ p : Registry.Place, p.room = c.room → (os.filterMap (·.event?)).flatMap (·.offered p) = [parcel]) ∧
    (m.createdAt.toChars?.isSome = false → said = [])

section Takes
variable (takes : c.Takes settings text os outcome)
include takes

theorem Takes.oversized_iff : outcome = .oversized ↔ settings.maxFrameBytes < text.utf8ByteSize := by
  cases takes with
  | oversized large => simpa using large
  | ignored fits | malformed fits => simpa using fits
  | unloaded accepts | closed accepts | refused accepts | failed accepts | delivered accepts => simpa using accepts.fits

theorem Takes.ignored_iff :
    outcome = .ignored ↔ text.utf8ByteSize ≤ settings.maxFrameBytes ∧ c.isDashboard = true := by
  cases takes with
  | oversized large => simp [Nat.not_le.mpr large]
  | ignored fits listens => simp [fits, listens]
  | malformed fits speaks => simp [speaks]
  | unloaded accepts | closed accepts | refused accepts | failed accepts | delivered accepts => simp [accepts.speaks]

theorem Takes.malformed_iff : outcome = .malformed ↔ text.utf8ByteSize ≤ settings.maxFrameBytes ∧
    c.isDashboard = false ∧ InboundFrame.content? text = none := by
  cases takes with
  | oversized large => simp [Nat.not_le.mpr large]
  | ignored fits listens => simp [listens]
  | malformed fits speaks unread => simp [fits, speaks, unread]
  | unloaded accepts | closed accepts | refused accepts | failed accepts | delivered accepts => simp [accepts.read]

theorem Takes.judges : c.Judges settings text (os.filterMap (·.loaded?)) (os.filterMap (·.inserted?)) outcome := by
  cases takes with
  | oversized large => exact .dropped (fun _ accepts => absurd accepts.fits (Nat.not_le.mpr large)) (.inl rfl)
  | ignored fits listens =>
    refine .dropped (fun _ accepts => ?_) (.inr (.inl rfl))
    cases listens.symm.trans accepts.speaks
  | malformed fits speaks unread =>
    refine .dropped (fun _ accepts => ?_) (.inr (.inr rfl))
    cases unread.symm.trans accepts.read
  | unloaded accepts failed =>
    rw [List.filterMap_cons_some (loaded?_of_get failed)]
    exact .unloaded accepts _
  | closed accepts loaded final refuses =>
    rw [List.filterMap_cons_some (loaded?_of_get loaded), Occurrence.loaded_of_further refuses.further,
      List.filterMap_cons_none rfl, Occurrence.inserted_of_further refuses.further]
    exact .closed accepts final
  | refused accepts loaded active failed refuses =>
    rw [List.filterMap_cons_some (loaded?_of_get loaded), List.filterMap_cons_none rfl,
      Occurrence.loaded_of_further refuses.further, List.filterMap_cons_none rfl,
      List.filterMap_cons_some (inserted?_of_insert failed), Occurrence.inserted_of_further refuses.further]
    exact .refused accepts active _
  | failed accepts loaded active failed other =>
    rw [List.filterMap_cons_some (loaded?_of_get loaded), List.filterMap_cons_none rfl, List.filterMap_cons_none rfl,
      List.filterMap_cons_some (inserted?_of_insert failed)]
    exact .failed accepts active other
  | @delivered _ _ _ _ _ _ m _ _ accepts loaded active stored opens tells =>
    have further := further_of_told opens tells
    rw [List.filterMap_cons_some (loaded?_of_get loaded), List.filterMap_cons_none rfl,
      Occurrence.loaded_of_further further, List.filterMap_cons_none rfl,
      List.filterMap_cons_some (inserted?_of_insert stored), Occurrence.inserted_of_further further]
    exact .delivered accepts active m

theorem Takes.decided : c.Decided settings text os outcome :=
  ⟨takes.oversized_iff, takes.ignored_iff, takes.malformed_iff, takes.judges.failed_iff, takes.judges.closed_iff,
    takes.judges.delivered_iff⟩

theorem Takes.posted : os.filterMap (·.posted?) = outcome.message?.toList := by
  cases takes with
  | oversized | ignored | malformed => rfl
  | unloaded => rfl
  | closed _ _ _ refuses =>
    rw [List.filterMap_cons_none rfl, Occurrence.posted_of_further refuses.further]
    rfl
  | refused _ _ _ failed refuses =>
    rw [List.filterMap_cons_none rfl, List.filterMap_cons_none (posted?_of_insert failed),
      Occurrence.posted_of_further refuses.further]
    rfl
  | failed _ _ _ failed =>
    rw [List.filterMap_cons_none rfl, List.filterMap_cons_none (posted?_of_insert failed)]
    rfl
  | delivered _ _ _ stored opens tells =>
    rw [List.filterMap_cons_none rfl, List.filterMap_cons_some (posted?_of_insert stored),
      Occurrence.posted_of_further (further_of_told opens tells)]
    rfl

theorem Takes.unwriting (undelivered : outcome.message? = none) : ∀ o ∈ os, o.Unwriting := by
  have refusing {refusal : List Occurrence} (refuses : c.Refuses refusal) : ∀ o ∈ refusal, o.Unwriting := by
    cases refuses with
    | intro task hub frame =>
      intro o there
      rw [List.mem_singleton.mp there]
      exact .inl rfl
  cases takes with
  | oversized | ignored | malformed => exact List.forall_mem_nil _
  | unloaded => exact List.forall_mem_cons.mpr ⟨unwriting_of_get _ _ _, List.forall_mem_nil _⟩
  | closed _ _ _ refuses => exact List.forall_mem_cons.mpr ⟨unwriting_of_get _ _ _, refusing refuses⟩
  | refused _ _ _ failed refuses =>
    exact List.forall_mem_cons.mpr ⟨unwriting_of_get _ _ _,
      List.forall_mem_cons.mpr ⟨.inl (store_of_failed failed), refusing refuses⟩⟩
  | failed _ _ _ failed =>
    exact List.forall_mem_cons.mpr ⟨unwriting_of_get _ _ _,
      List.forall_mem_cons.mpr ⟨.inl (store_of_failed failed), List.forall_mem_nil _⟩⟩
  | delivered => cases undelivered

theorem Takes.stored : c.Stored text os outcome := by
  refine ⟨takes.posted, fun m message => ?_, takes.unwriting⟩
  cases takes with
  | oversized | ignored | malformed | unloaded | closed | refused | failed => cases message
  | @delivered content _ _ _ hub _ m _ _ accepts _ _ stored =>
    cases message
    have appends := hub.answer_messages (.store (.createMessage (.ofSender c.room c.identity content)))
    rw [stored] at appends
    obtain ⟨writes, clock⟩ := accepts.writes_of_created stored
    obtain rfl : m.content = content := Option.some.inj (writes.content.symm.trans accepts.read)
    exact ⟨writes, _, _, List.mem_cons_of_mem _ List.mem_cons_self, clock, appends⟩

theorem Takes.sent : c.Sent os outcome := by
  cases takes with
  | oversized | ignored | malformed | unloaded | failed =>
    exact ⟨fun _ _ => rfl, (fun same => by cases same), (fun m same => by cases same)⟩
  | closed _ _ _ refuses | refused _ _ _ _ refuses =>
    cases refuses with
    | intro task hub frame =>
      exact ⟨fun _ other => absurd rfl other, fun _ => ⟨_, frame, rfl⟩, (fun m same => by cases same)⟩
  | @delivered _ _ _ _ _ _ _ moving saying accepts _ _ _ opens tells =>
    refine ⟨(fun same => by cases same), (fun same => by cases same), fun m message => ?_⟩
    cases message
    have elsewhere : c.room ≠ .dashboard := by
      intro same
      have speaks := accepts.speaks
      simp [isDashboard, ConversationId.isDashboard, same] at speaks
    have shows : ∀ e ∈ moving.filterMap (·.event?), ∃ parcel : Parcel, e = .command (.broadcast .dashboard parcel) ∧
        ∃ list, parcel.frame = .summaries list := by
      intro e there
      obtain ⟨o, member, event⟩ := List.mem_filterMap.mp there
      cases opens o member with
      | moves => cases event
      | shows task hub frame =>
        cases event
        exact ⟨_, rfl, _, frame⟩
    refine ⟨elsewhere, moving.filterMap (·.event?), saying.filterMap (·.event?), ?_, shows, ?_⟩
    · rw [List.filterMap_cons_none rfl, List.filterMap_cons_none rfl, List.filterMap_append]
    · cases tells with
      | undated undated => exact ⟨fun dated => by simp [undated] at dated, fun _ => rfl⟩
      | dated task hub frame dated =>
        refine ⟨fun _ => ⟨_, rfl, frame, fun p here => ?_⟩, fun undated => by simp [dated] at undated⟩
        have nothing : (moving.filterMap (·.event?)).flatMap (·.offered p) = [] := by
          rw [List.flatMap_eq_nil_iff]
          intro e there
          obtain ⟨parcel, rfl, -⟩ := shows e there
          exact if_neg fun same => elsewhere (here.symm.trans same.symm)
        rw [List.filterMap_cons_none rfl, List.filterMap_cons_none rfl, List.filterMap_append, List.flatMap_append, nothing]
        exact congrArg (· ++ []) (if_pos here.symm)

end Takes

end Connection

/-- A request to the rooms finds a registry in order, and does to each seat what it does to a member. -/
theorem Execution.acts_of_asked {α : Type} {x y : Execution α} {turns : List Turn} {log : List Occurrence}
    (runs : x.run turns = (log, y)) {past : List (Registry.Event Parcel)}
    (history : x.hub.registry = ({} : Registry Parcel).after past) {task : Nat} {hub : Hub}
    {command : Registry.Command Parcel} (there : .asked task hub (.rooms command) ∈ log) :
    Registry.Valid hub.registry ∧ Registry.Acts hub.registry (hub.answer (.rooms command)).2.registry command := by
  obtain ⟨before, later, rfl⟩ := List.append_of_mem there
  obtain ⟨registry, -, -⟩ := run_asked runs
  have valid : Registry.Valid hub.registry := by
    rw [registry, history]
    exact (Registry.Valid.initial.after past).after _
  exact ⟨valid, Registry.apply_acts valid command⟩

/-- A text comes to its outcome in five turns at most, whatever others do and whatever the store replies. Its size, the room
and its form are looked at first, in this order; then whether the conversation can be read and is not closed; then whether
the message can be stored. A message that is stored is the outcome, whether or not it opens the conversation, and it is
offered once to everybody in the room, if its time has a text. If the conversation was closed when it was read, or when the
message was to be stored, the sender alone is told so. In all other cases nothing is sent; and nothing is written to the
store unless a message is stored. In rooms that came about event by event, what is sent does to each seat what it does to a
member. -/
theorem Execution.text_outcome {x y : Execution Outcome} {turns : List Turn} {log : List Occurrence} {n : Nat}
    {c : Connection} {settings : Settings} {text : String} (there : x.tasks[n]? = some (c.handleText settings text))
    (runs : x.run turns = (log, y)) :
    let own := log.filter (·.isOf n)
    (5 ≤ turns.countP (·.isOf n) → ∃ outcome, y.value? n = some outcome) ∧
    y.hub.store.messages = x.hub.store.messages ++ log.filterMap (·.posted?) ∧
    (∀ past, x.hub.registry = ({} : Registry Parcel).after past → ∀ hub command, .asked n hub (.rooms command) ∈ log →
      Registry.Valid hub.registry ∧ Registry.Acts hub.registry (hub.answer (.rooms command)).2.registry command) ∧
    ∀ outcome, y.value? n = some outcome →
      c.Decided settings text own outcome ∧ c.Stored text own outcome ∧ c.Sent own outcome := by
  intro own
  refine ⟨value_of_within (c.within_handleText settings text) there runs, run_messages runs,
    fun past history hub command => acts_of_asked runs history, fun outcome finished => ?_⟩
  obtain ⟨last, ends, path⟩ := run_path runs there
  have result : last.value? = some outcome := by simpa [value?, ends] using finished
  rw [Program.eq_done_of_value? result] at path
  have takes := Connection.takes_of_path path
  exact ⟨takes.decided, takes.stored, takes.sent⟩

/-- A member of staff writes, and the message is delivered though the conversation cannot be opened. Then a customer writes
while the conversation is being closed: it was not closed yet when it was read, but is when the message is to be stored. -/
theorem Execution.text_outcome_of_race :
    let customer : Connection := ⟨⟨1⟩, ⟨⟨.ofNat 1001⟩, .user⟩, ⟨.ofNat 1⟩⟩
    let staff : Connection := ⟨⟨2⟩, ⟨⟨.ofNat 1000⟩, .admin⟩, ⟨.ofNat 1⟩⟩
    let row : Conversation := ⟨⟨.ofNat 1⟩, ⟨.ofNat 1001⟩, none, "a", .pending, ⟨0, 0⟩, ⟨0, 0⟩⟩
    let past : List (Registry.Event Parcel) := [.join customer.room customer.session customer.identity 2 false,
      .join staff.room staff.session staff.identity 2 false]
    let hub : Hub := {
      settings := .default
      store := ⟨[row], []⟩
      registry := ({} : Registry Parcel).after past
      clock := ⟨0, 0⟩
      mint := fun n => .ofNat (n + 2)
      faults := fun method => if method = .setStatus then [some (.fail .notFound)] else [] }
    let x : Execution Outcome := ⟨hub, [staff.handleText .default "\x7b\"content\":\" b \"\x7d",
      customer.handleText .default "\x7b\"content\":\"c\"\x7d",
      (Lifecycle.close customer.room staff.identity).bind fun _ => .done .ignored]⟩
    let turns : List Turn := [.task 0 ⟨1, 0⟩, .task 0 ⟨2, 0⟩, .task 0 ⟨3, 0⟩, .task 0 ⟨4, 0⟩, .task 1 ⟨5, 0⟩, .task 2 ⟨6, 0⟩,
      .task 2 ⟨7, 0⟩, .task 1 ⟨8, 0⟩, .task 1 ⟨9, 0⟩]
    let (log, y) := x.run turns
    (∃ m, y.value? 0 = some (.delivered m) ∧ staff.Writes "\x7b\"content\":\" b \"\x7d" m ∧
      (log.filter (·.isOf 0)).filterMap (·.posted?) = [m] ∧ ∃ parcel : Parcel, parcel.frame = .chat (.ofMessage m) ∧
        ∀ session queue, ((log.filter (·.isOf 0)).filterMap (·.event?)).flatMap
          (·.offered ⟨staff.room, session, queue⟩) = [parcel]) ∧
    y.value? 1 = some .conversationClosed ∧ (log.filter (·.isOf 1)).filterMap (·.posted?) = [] ∧
      ∃ parcel : Parcel, parcel.frame = .error .conversationClosed ∧
        (log.filter (·.isOf 1)).filterMap (·.event?) = [.command (.sendTo customer.room customer.session parcel)] := by
  intro customer staff row past hub x turns
  have delivered : ((x.run turns).2.value? 0).bind (·.message?) =
      some ⟨⟨.ofNat 2⟩, staff.room, staff.identity.user, "b", false, true, ⟨2, 0⟩⟩ := by decide +kernel
  have refused : (x.run turns).2.value? 1 = some .conversationClosed := by decide +kernel
  rcases runs : x.run turns with ⟨log, y⟩
  rw [runs] at delivered refused
  obtain ⟨outcome, first, message⟩ := Option.bind_eq_some_iff.mp delivered
  obtain ⟨-, -, -, of_staff⟩ := text_outcome rfl runs (n := 0)
  obtain ⟨-, -, -, of_customer⟩ := text_outcome rfl runs (n := 1)
  obtain ⟨-, stored, sent⟩ := of_staff outcome first
  obtain ⟨-, unstored, refusing⟩ := of_customer _ refused
  obtain ⟨-, shown, said, -, -, dated, -⟩ := sent.chat _ message
  obtain ⟨parcel, -, frame, offered⟩ := dated (by decide +kernel)
  refine ⟨⟨_, ?_, (stored.message _ message).1, ?_, parcel, frame, fun session queue => offered _ rfl⟩, refused,
    unstored.posted, refusing.refusal rfl⟩
  · rw [first]
    cases outcome with
    | delivered m => exact congrArg some (congrArg Outcome.delivered (Option.some.inj message))
    | oversized | malformed | ignored | conversationClosed | persistFailed => cases message
  · rw [stored.posted, message]
    rfl

end HelpDesk
