import HelpDesk.Proofs.Activities
import HelpDesk.Proofs.TextSizes

/-! What is asked to be stored. Whoever starts a conversation has had its opening message and its label measured, and whoever
adds a message to one has taken it from a text of its own that was not too long. Nothing else stores a text. -/

namespace HelpDesk

/-- The request stores no text, or one that was measured. -/
inductive Request.Measured (settings : Settings) (texts : List String) : Request → Prop
  | silent {request : Request} (silent : ∀ reply, request.posted? reply = none) : Measured settings texts request
  | opening (starter : Identity) {content label : String} (fit : Intake.Fit content label) :
      Measured settings texts (.store (.start starter label content))
  | message {draft : Draft} {text : String} (sent : text ∈ texts) (short : text.utf8ByteSize ≤ settings.maxFrameBytes)
      (meant : InboundFrame.content? text = some draft.content) :
      Measured settings texts (.store (.createMessage draft))

theorem Request.Measured.fit {settings : Settings} {texts : List String} {starter : Identity} {content label : String}
    (measured : Request.Measured settings texts (.store (.start starter label content))) : Intake.Fit content label := by
  cases measured with
  | opening starter fit => exact fit
  | silent silent =>
    have stored (c : Conversation) (m : Message) := silent (.ok (.created c m) : Except StoreError Start)
    cases stored ⟨.dashboard, starter.user, none, label, .pending, .ofUnix 0 0, .ofUnix 0 0⟩
      ⟨⟨.nil⟩, .dashboard, starter.user, content, false, false, .ofUnix 0 0⟩

section Programs
variable {settings : Settings} {texts : List String}

theorem measured_lifecycle : Lifecycle.Permits (Request.Measured settings texts) :=
  ⟨fun _ => .silent fun _ => rfl, fun _ _ _ => .silent fun _ => rfl, fun _ => .silent fun _ => rfl⟩

theorem Dashboard.asks_sendSnapshot (session : SessionId) :
    (sendSnapshot session).Asks (Request.Measured settings texts) := by
  refine .ask (.silent fun _ => rfl) fun reply => ?_
  cases reply with
  | error error => exact .ask (.silent fun _ => rfl) fun _ => .done _
  | ok cs => exact .ask (.silent fun _ => rfl) fun _ => .done _

theorem Intake.asks_start (starter : Identity) (content : String) (label : Option String) :
    (start starter content label).Asks (Request.Measured settings texts) := by
  unfold start
  split
  · exact .done _
  · next content label checked =>
    refine .ask (.opening starter (fit_of_check checked)) fun reply => ?_
    rcases reply with error | (⟨c, opening⟩ | c)
    · exact .done _
    · exact (Program.announces_announce measured_lifecycle.announce c).asks.bind fun _ => .done _
    · exact .done _

namespace Connection

theorem asks_refuse (c : Connection) : c.refuse.Asks (Request.Measured settings texts) :=
  (Program.announces_sendTo (fun _ => .silent fun _ => rfl) _).asks.bind fun _ => .done _

theorem asks_deliver (c : Connection) (current : Conversation) {text content : String} (sent : text ∈ texts)
    (short : text.utf8ByteSize ≤ settings.maxFrameBytes) (meant : InboundFrame.content? text = some content) :
    (c.deliver current content).Asks (Request.Measured settings texts) := by
  refine .ask (.message sent short meant) fun reply => ?_
  rcases reply with (_ | _ | _ | _) | m
  · exact .done _
  · exact c.asks_refuse
  · exact .done _
  · exact .done _
  · refine (Lifecycle.announces_messageStored measured_lifecycle current c.identity).asks.bind fun _ => ?_
    exact (Program.announces_broadcast (fun _ => .silent fun _ => rfl) _).asks.bind fun _ => .done _

theorem asks_handleText (c : Connection) {text : String} (sent : text ∈ texts) :
    (c.handleText settings text).Asks (Request.Measured settings texts) := by
  unfold handleText
  split
  · exact .done _
  · next short =>
    split
    · exact .done _
    · split
      · exact .done _
      · next content meant =>
        refine .ask (.silent fun _ => rfl) fun reply => ?_
        cases reply with
        | error error => exact .done _
        | ok current =>
          simp only [Program.bind]
          split
          · exact c.asks_refuse
          · exact c.asks_deliver current sent (Nat.le_of_not_lt short) meant

theorem asks_readTexts (c : Connection) {others : List String} (sent : others ⊆ texts) :
    (c.readTexts settings others).Asks (Request.Measured settings texts) := by
  induction others with
  | nil => exact .done _
  | cons text others ih =>
    refine (c.asks_handleText (sent List.mem_cons_self)).bind fun _ => ?_
    exact (ih (List.subset_of_cons_subset sent)).bind fun _ => .done _

theorem asks_enter (c : Connection) : (c.enter settings).Asks (Request.Measured settings texts) := by
  have afterJoin : c.afterJoin.Asks (Request.Measured settings texts) := by
    unfold afterJoin
    split
    · exact (Dashboard.asks_sendSnapshot c.session).bind fun _ => .done _
    · exact (Lifecycle.announces_memberJoined measured_lifecycle c.room c.identity).asks.bind fun _ => .done _
  exact .ask (.silent fun _ => rfl) fun _ => afterJoin.bind fun _ => .done _

theorem asks_leave (c : Connection) : c.leave.Asks (Request.Measured settings texts) :=
  .ask (.silent fun _ => rfl) fun _ => .done _

end Connection

theorem Operation.asks (work : Operation) : (work.program settings).Asks (Request.Measured settings work.texts) := by
  cases work with
  | start starter content label => exact (Intake.asks_start starter content label).bind fun _ => .done _
  | close id party => exact (Lifecycle.announces_close measured_lifecycle id party).asks.bind fun _ => .done _
  | memberJoined id party => exact (Lifecycle.announces_memberJoined measured_lifecycle id party).asks.bind fun _ => .done _
  | messageStored read party =>
    exact (Lifecycle.announces_messageStored measured_lifecycle read party).asks.bind fun _ => .done _
  | enter c => exact c.asks_enter.bind fun _ => .done _
  | text c words => exact (c.asks_handleText List.mem_cons_self).bind fun _ => .done _
  | leave c => exact c.asks_leave

namespace Http

theorem asks_visibleConversation (id : ConversationId) (caller : Identity) :
    (visibleConversation id caller).Asks (Request.Measured settings texts) := by
  refine .ask (.silent fun _ => rfl) fun reply => ?_
  cases reply with
  | error error => exact .done _
  | ok c =>
    simp only [Program.bind]
    split <;> exact .done _

namespace Route

theorem asks_start (caller : Identity) (request : StartRequest) :
    (start caller request).Asks (Request.Measured settings texts) := by
  refine (Intake.asks_start caller request.content request.label).bind fun result => ?_
  rcases result with error | (⟨c, opening⟩ | c) <;> exact .done _

theorem asks_showMessages (caller : Identity) (id : ConversationId) (page : Page) :
    (showMessages caller id page).Asks (Request.Measured settings texts) := by
  refine (asks_visibleConversation id caller).bind fun result => ?_
  cases result with
  | error error => exact .done _
  | ok c =>
    refine .ask (.silent fun _ => rfl) fun reply => ?_
    cases reply <;> exact .done _

theorem asks_openSocket (caller : Identity) (id : ConversationId) :
    (openSocket caller id).Asks (Request.Measured settings texts) := by
  unfold openSocket
  split
  · exact .done _
  · refine .ask (.silent fun _ => rfl) fun reply => ?_
    cases reply with
    | error error => exact .done _
    | ok c =>
      simp only [Program.bind]
      split
      · exact .done _
      · split <;> exact .done _

theorem asks_withRead {α : Type} {read : Except Rejection α} {next : α → Program Response}
    (rest : ∀ value, (next value).Asks (Request.Measured settings texts)) :
    (withRead read next).Asks (Request.Measured settings texts) := by
  cases read with
  | ok value => exact rest value
  | error rejection => exact .done _

theorem asks_withCaller {r : Request} {next : Identity → Program Response}
    (rest : ∀ caller, (next caller).Asks (HelpDesk.Request.Measured settings texts)) :
    (withCaller r next).Asks (HelpDesk.Request.Measured settings texts) := by
  unfold withCaller
  split
  · exact rest _
  · exact .done _

theorem asks_respond (route : Route) (database : DatabaseHealth) (r : Request) :
    (route.respond database r).Asks (HelpDesk.Request.Measured settings texts) := by
  cases route with
  | health => exact .map (.ask (.silent fun _ => rfl) fun _ => .done _) _
  | liveness => exact .done _
  | readiness => exact .done _
  | conversations => exact asks_withCaller fun caller => asks_withRead fun request => (asks_start caller request).map _
  | conversation segment =>
    refine asks_withCaller fun caller => asks_withRead fun id => .map ?_ _
    refine (asks_visibleConversation id caller).bind fun result => ?_
    cases result <;> exact .done _
  | messages segment =>
    exact asks_withCaller fun caller => asks_withRead fun id => asks_withRead fun page =>
      (asks_showMessages caller id page).map _
  | closing segment =>
    refine asks_withCaller fun caller => asks_withRead fun id => .map ?_ _
    refine (Lifecycle.announces_close measured_lifecycle id caller).asks.bind fun result => ?_
    cases result <;> exact .done _
  | socket segment =>
    exact asks_withRead fun _ => asks_withCaller fun caller => asks_withRead fun id => asks_openSocket caller id
  | dashboardSocket => exact asks_withRead fun _ => asks_withCaller fun caller => .done _

end Route

theorem asks_respond (database : DatabaseHealth) (r : Request) :
    (Http.respond database r).Asks (HelpDesk.Request.Measured settings texts) := by
  unfold Http.respond
  split
  · exact .done _
  · split
    · exact .done _
    · next route _ =>
      split
      · exact (route.asks_respond database r).map _
      · exact .done _

end Http

theorem Activity.asks (a : Activity) (database : Http.DatabaseHealth) :
    (a.program database settings).Asks (Request.Measured settings a.texts) := by
  cases a with
  | operation work => exact work.asks
  | request r => exact (Http.asks_respond database _).bind fun _ => .done _
  | visit session r texts =>
    refine (Http.asks_respond database _).bind fun response => ?_
    cases response with
    | answer answer => exact .done _
    | upgrade party room =>
      let c : Connection := ⟨session, party, room⟩
      refine c.asks_enter.bind fun _ => ?_
      exact (c.asks_readTexts (List.Subset.refl texts)).bind fun _ => c.asks_leave

end Programs

/-- In every turn, an activity asks only to store what was measured. -/
theorem Execution.asks_measured {database : Http.DatabaseHealth} {hub : Hub} {activities : List Activity}
    {turns : List Turn} {log : List Occurrence} {y : Execution Unit}
    (runs : (serving database hub activities).run turns = (log, y)) {task : Nat} {found : Hub} {request : Request}
    (there : .asked task found request ∈ log) :
    ∃ a, activities[task]? = some a ∧ request.Measured hub.settings a.texts := by
  obtain ⟨before, later, rfl⟩ := List.append_of_mem there
  obtain ⟨program, last, task, path⟩ := run_program runs rfl
  have task : (activities.map (·.program database hub.settings))[_]? = some program := task
  rw [List.getElem?_map, Option.map_eq_some_iff] at task
  obtain ⟨a, activity, rfl⟩ := task
  exact ⟨a, activity, path.asks (a.asks database) (List.mem_append_right _ List.mem_cons_self)⟩

end HelpDesk
