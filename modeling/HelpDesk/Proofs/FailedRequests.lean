import HelpDesk.Proofs.Activities
import HelpDesk.Proofs.FailedOperations

/-! Requests that are refused, and requests that fail, leave no trace: an answer that says so was found before anything
was written. The only way to an answer that fails after a change would be a result without a text, and where the clock
and the stored moments can be written every result has one. -/

namespace HelpDesk
open Json

/-- The local year is one that can be written. -/
def Moment.Encodable (m : Moment) : Prop :=
  0 ≤ m.localDate.year ∧ m.localDate.year ≤ 9999

instance (m : Moment) : Decidable m.Encodable :=
  inferInstanceAs (Decidable (_ ∧ _))

theorem Moment.Encodable.exists_toChars? {m : Moment} (encodable : m.Encodable) : ∃ cs, m.toChars? = some cs :=
  ⟨_, if_pos encodable⟩

theorem Conversation.exists_write {c : Conversation} (created : c.createdAt.Encodable) (updated : c.updatedAt.Encodable) :
    ∃ text, Conversation.codec.write c = some text := by
  obtain ⟨_, createdAt⟩ := created.exists_toChars?
  obtain ⟨_, updatedAt⟩ := updated.exists_toChars?
  cases assignee : c.assignee <;>
    simp [Conversation.codec, Codec.map, Codec.record, Fields.write, ConversationId.codec, UserId.codec, Codec.uuid,
      Codec.spelled, Codec.optional, Codec.text, Status.codec, Codec.oneOf, Codec.moment, createdAt, updatedAt, assignee]

theorem Message.exists_write {m : Message} (sent : m.createdAt.Encodable) : ∃ text, Message.codec.write m = some text := by
  obtain ⟨_, createdAt⟩ := sent.exists_toChars?
  simp [Message.codec, Codec.map, Codec.record, Fields.write, MessageId.codec, ConversationId.codec, UserId.codec,
    Codec.uuid, Codec.spelled, Codec.text, Codec.flag, Codec.moment, createdAt]

namespace Http

/-- An answer that tells of no error. -/
def Answer.Succeeds (a : Answer) : Prop :=
  a.status < 400

/-- Is the request refused, or has it failed? Not if its connection becomes a socket. -/
def Response.failed : Response → Bool
  | .answer a => 400 ≤ a.status
  | .upgrade _ _ => false

def Response.Succeeds (response : Response) : Prop :=
  response.failed = false

theorem Answer.Succeeds.answer {a : Answer} (succeeds : a.Succeeds) : (Response.answer a).Succeeds := by
  simpa [Response.Succeeds, Response.failed, Answer.Succeeds] using succeeds

section Routes
open Program
variable {caller : Identity}

theorem leaves_visibleConversation (id : ConversationId) :
    (visibleConversation id caller).Leaves Moment.Encodable fun _ => False := by
  refine leaves_read (.get id) rfl fun reply => ?_
  cases reply with
  | error error => exact leaves_done _
  | ok c =>
    dsimp only
    split <;> exact leaves_done _

theorem Route.leaves_reportHealth (database : DatabaseHealth) :
    (Route.reportHealth database).Leaves Moment.Encodable Answer.Succeeds :=
  fun h _ => .inl (.refl h)

theorem Route.leaves_start (request : StartRequest) :
    (Route.start caller request).Leaves Moment.Encodable Answer.Succeeds := by
  refine (Intake.leaves_start caller request.content request.label).bind (fun result => ?_) ?_
  · rcases result with error | (⟨c, m⟩ | c) <;> exact leaves_done _
  · intro result started h
    cases started with
    | created created updated sent =>
      obtain ⟨_, conversation⟩ := Conversation.exists_write created updated
      obtain ⟨_, message⟩ := Message.exists_write sent
      show Answer.Succeeds (.json 201 _)
      simp [conversation, message, Answer.json, Answer.Succeeds]
    | found created updated =>
      obtain ⟨_, conversation⟩ := Conversation.exists_write created updated
      show Answer.Succeeds (.json 200 _)
      simp [conversation, Answer.json, Answer.Succeeds]

theorem Route.leaves_close (id : ConversationId) : (Route.close caller id).Leaves Moment.Encodable Answer.Succeeds := by
  refine (Lifecycle.leaves_close id caller).bind (fun result => ?_) ?_
  · cases result <;> exact leaves_done _
  · rintro _ ⟨c, rfl, created, updated⟩ h
    obtain ⟨_, conversation⟩ := Conversation.exists_write created updated
    show Answer.Succeeds (.json 200 _)
    simp [conversation, Answer.json, Answer.Succeeds]

theorem Route.leaves_showConversation (id : ConversationId) :
    (Route.showConversation caller id).Leaves Moment.Encodable Answer.Succeeds := by
  refine (leaves_visibleConversation id).bind (fun result => ?_) fun _ impossible => impossible.elim
  cases result <;> exact leaves_done _

theorem Route.leaves_showMessages (id : ConversationId) (page : Page) :
    (Route.showMessages caller id page).Leaves Moment.Encodable Answer.Succeeds := by
  refine (leaves_visibleConversation id).bind (fun result => ?_) fun _ impossible => impossible.elim
  cases result with
  | error error => exact leaves_done _
  | ok c =>
    refine leaves_read (.listMessages c.id page.effectiveLimit page.effectiveOffset) rfl fun reply => ?_
    cases reply <;> exact leaves_done _

theorem Route.leaves_openSocket (id : ConversationId) :
    (Route.openSocket caller id).Leaves Moment.Encodable Response.Succeeds := by
  unfold Route.openSocket
  split
  · exact leaves_done _
  · refine leaves_read (.get id) rfl fun reply => ?_
    cases reply with
    | error error => exact leaves_done _
    | ok c =>
      dsimp only
      split
      · exact leaves_done _
      · split <;> exact leaves_done _

theorem leaves_answer {program : Program Answer} (leaves : program.Leaves Moment.Encodable Answer.Succeeds) :
    (Response.answer <$> program).Leaves Moment.Encodable Response.Succeeds :=
  leaves.bind (fun _ => leaves_done _) fun _ succeeds _ => succeeds.answer

theorem Route.leaves_withRead {α : Type} {read : Except Rejection α} {next : α → Program Response}
    (rest : ∀ value, (next value).Leaves Moment.Encodable Response.Succeeds) :
    (Route.withRead read next).Leaves Moment.Encodable Response.Succeeds := by
  cases read with
  | ok value => exact rest value
  | error rejection => exact leaves_done _

theorem Route.leaves_withCaller {r : Request} {next : Identity → Program Response}
    (rest : ∀ caller, (next caller).Leaves Moment.Encodable Response.Succeeds) :
    (Route.withCaller r next).Leaves Moment.Encodable Response.Succeeds := by
  unfold Route.withCaller
  split
  · exact rest _
  · exact leaves_done _

theorem Route.leaves_respond (route : Route) (database : DatabaseHealth) (r : Request) :
    (route.respond database r).Leaves Moment.Encodable Response.Succeeds := by
  cases route with
  | health => exact leaves_answer (leaves_reportHealth database)
  | liveness => exact leaves_done _
  | readiness => exact leaves_done _
  | conversations => exact leaves_withCaller fun _ => leaves_withRead fun request => leaves_answer (leaves_start request)
  | conversation segment =>
    exact leaves_withCaller fun _ => leaves_withRead fun id => leaves_answer (leaves_showConversation id)
  | messages segment =>
    exact leaves_withCaller fun _ => leaves_withRead fun id => leaves_withRead fun page =>
      leaves_answer (leaves_showMessages id page)
  | closing segment => exact leaves_withCaller fun _ => leaves_withRead fun id => leaves_answer (leaves_close id)
  | socket segment =>
    exact leaves_withRead fun _ => leaves_withCaller fun _ => leaves_withRead fun id => leaves_openSocket id
  | dashboardSocket => exact leaves_withRead fun _ => leaves_withCaller fun _ => leaves_done _

theorem Response.Succeeds.forMethod {response : Response} (succeeds : response.Succeeds) (method : String) :
    (response.forMethod method).Succeeds := by
  cases response with
  | upgrade identity room => exact succeeds
  | answer a =>
    show Response.Succeeds (.answer (if method == "HEAD" then .bare a.status else a))
    split <;> exact succeeds

/-- Any request is answered without an error, or has left the hub as it was. -/
theorem leaves_respond (database : DatabaseHealth) (r : Request) :
    (Http.respond database r).Leaves Moment.Encodable Response.Succeeds := by
  unfold Http.respond
  split
  · exact leaves_done _
  · split
    · exact leaves_done _
    · next route _ =>
      split
      · exact (route.leaves_respond database r).bind (fun _ => leaves_done _) fun _ succeeds _ => succeeds.forMethod _
      · exact leaves_done _

end Routes

end Http

/-- The tables, the rooms and the queues are as they were. -/
structure Hub.Traceless (h k : Hub) : Prop where
  store : k.store = h.store
  registry : k.registry = h.registry

theorem Hub.Untouched.traceless {h k : Hub} (untouched : h.Untouched k) : h.Traceless k :=
  ⟨untouched.store, untouched.registry⟩

/-- An operation that tells of errors only where it has written nothing. -/
theorem Program.Leaves.traceless {α : Type} {dated : Moment → Prop} {written : α → Prop} {program : Program α}
    (leaves : program.Leaves dated written) {h : Hub} (orderly : h.Orderly dated) (silent : ¬ written (h.run program).1) :
    h.Traceless (h.run program).2 :=
  ((leaves h orderly).resolve_right silent).traceless

/-- A store that fails has changed nothing; nor has an operation that fails or a request that is answered with an error,
whatever failures are to come and wherever they come, if nobody else moves conversations meanwhile: what others do is not
undone. Whoever starts a conversation in the end has the same as if all the starts that failed had not been tried. -/
theorem failures_leave_no_trace :
    (∀ (h : Hub) (call : Store.Call) (error : StoreError), (h.callStore call).1 = .error error →
      h.Traceless (h.callStore call).2) ∧
    ∀ h : Hub, h.Undisturbed →
      (∀ (starter : Identity) (content : String) (label : Option String) (error : IntakeError),
        (h.run (Intake.start starter content label)).1 = .error error →
          h.Traceless (h.run (Intake.start starter content label)).2) ∧
      (∀ (id : ConversationId) (party : Identity) (error : LifecycleError),
        (h.run (Lifecycle.close id party)).1 = .error error → h.Traceless (h.run (Lifecycle.close id party)).2) ∧
      (∀ (id : ConversationId) (party : Identity) (error : LifecycleError),
        (h.run (Lifecycle.memberJoined id party)).1 = .error error →
          h.Traceless (h.run (Lifecycle.memberJoined id party)).2) ∧
      (∀ (read : Conversation) (party : Identity) (error : LifecycleError),
        (h.run (Lifecycle.messageStored read party)).1 = .error error →
          h.Traceless (h.run (Lifecycle.messageStored read party)).2) ∧
      (∀ (attempts : List Starting) (last : Starting) (outcome : Start), h.Fail attempts →
        ((h.afterAttempts attempts).attempt last).1 = .ok outcome →
          (h.working.attempt last).1 = .ok outcome ∧
            (h.working.attempt last).2.Traceless ((h.afterAttempts attempts).attempt last).2) ∧
      ((∀ n, (h.readings n).Encodable) → h.store.Dated Moment.Encodable →
        ∀ (database : Http.DatabaseHealth) (r : Http.Request),
          (h.run (Http.respond database r)).1.failed = true → h.Traceless (h.run (Http.respond database r)).2) := by
  refine ⟨fun h call error failed => (Hub.callStore_error failed).traceless, fun h undisturbed => ?_⟩
  have orderly := undisturbed.orderly
  refine ⟨?_, ?_, ?_, ?_, ?_, ?_⟩
  · intro starter content label error failed
    apply (Intake.leaves_start starter content label).traceless orderly
    rw [failed]
    rintro ⟨⟩
  · intro id party error failed
    apply (Lifecycle.leaves_close id party).traceless orderly
    rintro ⟨c, told, -⟩
    cases failed.symm.trans told
  · intro id party error failed
    apply (Lifecycle.leaves_memberJoined id party).traceless orderly
    rintro ⟨opened, told⟩
    cases failed.symm.trans told
  · intro read party error failed
    apply (Lifecycle.leaves_messageStored read party).traceless orderly
    rintro ⟨opened, told⟩
    cases failed.symm.trans told
  · intro attempts last outcome fail started
    have still := Hub.afterAttempts_undisturbed undisturbed attempts
    obtain ⟨clock, faults, same⟩ := fail.exists_eq undisturbed
    rw [same] at started still ⊢
    rcases succeeded : ({ h with clock, faults } : Hub).attempt last with ⟨result, k⟩
    rw [succeeded] at started
    cases started
    have alone : h.working.attempt last = (.ok outcome, k.working) :=
      Hub.working_start (h := { h with clock := last.now, faults }) still succeeded
    rw [alone]
    exact ⟨rfl, rfl, rfl⟩
  · intro clock stored database r failed
    apply (Http.leaves_respond database r).traceless ⟨undisturbed, clock, stored⟩
    intro succeeds
    cases failed.symm.trans succeeds

theorem exists_ok {ε α : Type} {result : Except ε α} (some : result.toOption.isSome = true) : ∃ value, result = .ok value := by
  cases result with
  | error error => cases some
  | ok value => exact ⟨value, rfl⟩

/-- A start with a blank text and one that the store fails come before one that succeeds; then the owner's request to
close the conversation fails, too. -/
theorem failures_leave_no_trace_of_outage :
    let hub : Hub := { settings := .default, clock := ⟨0, 0⟩, mint := fun n => .ofNat (n + 1), faults := fun method =>
      if method = .start then [some (.fail (.database .poolTimedOut))]
      else if method = .setStatus then [some (.fail (.database .unreachable))] else [] }
    let customer : Identity := ⟨⟨.ofNat 1001⟩, .user⟩
    let attempts : List Starting := [⟨⟨1, 0⟩, customer, " ", none⟩, ⟨⟨2, 0⟩, customer, "a", none⟩]
    let last : Starting := ⟨⟨3, 0⟩, customer, "a", none⟩
    let later := ((hub.afterAttempts attempts).attempt last).2
    let closing : Http.Request :=
      .ofParty customer "POST" ("/api/v1/conversations/" ++ toString (ConversationId.mk (.ofNat 1)) ++ "/close") [] ""
    hub.Fail attempts ∧ later.store.messages.map (·.content) = ["a"] ∧
      (hub.working.attempt last).2.Traceless later ∧ (later.run (Http.respond .memory closing)).1.failed = true ∧
      later.Traceless (later.run (Http.respond .memory closing)).2 := by
  intro hub customer attempts last later closing
  have undisturbed : hub.Undisturbed := by
    intro method fault there status same
    subst same
    cases method <;> simp [hub] at there
  have fail : hub.Fail attempts :=
    ⟨⟨.emptyContent, by decide +kernel⟩, ⟨.store (.database .poolTimedOut), by decide +kernel⟩, trivial⟩
  have still : later.Undisturbed := Hub.attempt_undisturbed (Hub.afterAttempts_undisturbed undisturbed attempts) last
  have facts : ((hub.afterAttempts attempts).attempt last).1.toOption.isSome = true ∧
      later.store.messages.map (·.content) = ["a"] ∧ (later.run (Http.respond .memory closing)).1.failed = true ∧
      (later.readings 0).Encodable ∧ (later.readings 1).Encodable ∧
      (∀ c ∈ later.store.conversations, c.createdAt.Encodable ∧ c.updatedAt.Encodable) ∧
      ∀ m ∈ later.store.messages, m.createdAt.Encodable := by
    decide +kernel
  obtain ⟨started, contents, failed, first, again, conversations, messages⟩ := facts
  have clock : ∀ n, (later.readings n).Encodable
    | 0 => first
    | _ + 1 => again
  obtain ⟨begun, outcome⟩ := exists_ok started
  obtain ⟨-, operations⟩ := failures_leave_no_trace
  obtain ⟨-, -, -, -, starts, -⟩ := operations hub undisturbed
  obtain ⟨-, -, -, -, -, requests⟩ := operations later still
  exact ⟨fail, contents, (starts attempts last begun fail outcome).2, failed,
    requests clock ⟨conversations, messages⟩ .memory closing failed⟩

end HelpDesk
