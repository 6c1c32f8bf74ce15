import HelpDesk.Proofs.Activities

/-! No activity asks for anything that it may not ask for: what it was answered before is what allows it to go on. -/

namespace HelpDesk

namespace Activity

/-- The program asks for nothing that the activity may not ask for. -/
abbrev Permits {α : Type} (a : Activity) (os : List Occurrence) (program : Program α) : Prop :=
  program.Obeys a.MayAsk (fun _ _ => True) os

variable {a : Activity} {os : List Occurrence}

theorem permits_broadcast {room : ConversationId} {frame : Frame}
    (may : ∀ parcel, frame.pack? = some parcel → a.MayAsk os (.rooms (.broadcast room parcel))) :
    a.Permits os (Program.broadcast room frame) := by
  unfold Program.broadcast
  cases packed : frame.pack? with
  | none => exact .done trivial
  | some parcel => exact .ask (may parcel packed) fun _ _ => .done trivial

theorem permits_announce (c : Conversation) : a.Permits os (Dashboard.announce c) :=
  permits_broadcast fun _ packed => .announces packed

theorem permits_sendSnapshot {session : SessionId} (own : a.session? = some session) :
    a.Permits os (Dashboard.sendSnapshot session) := by
  refine .ask .listActive fun task hub => ?_
  generalize (hub.answer (.store .listActive)).1 = reply
  cases reply with
  | error error => exact .ask (.releases own fun _ none => by cases none) fun _ _ => .done trivial
  | ok cs =>
    refine .ask (.releases own fun parcel packed => ?_) fun _ _ => .done trivial
    exact ⟨_, Frame.frame_of_pack? packed⟩

section Lifecycle
variable {party : Identity} (acts : a.party? = some party)

theorem permits_move {id : ConversationId} {status : Status} {assignee : Option UserId}
    (may : a.MayAsk os (.store (.setStatus id status assignee))) : a.Permits os (Lifecycle.move id status assignee) := by
  refine .ask may fun task hub => ?_
  generalize (hub.answer (.store (.setStatus id status assignee))).1 = reply
  cases reply with
  | error error => exact .done trivial
  | ok moved => exact (permits_announce moved).bind fun _ _ _ => .done trivial

include acts

theorem permits_openIfPending (c : Conversation) : a.Permits os (Lifecycle.openIfPending c party) := by
  unfold Lifecycle.openIfPending
  split
  · next opens =>
    apply (permits_move (.opens acts (by simpa using (Bool.and_eq_true_iff.mp opens).1) c.id)).bind
    intro ps result _
    rcases result with (_ | _ | _ | _) | opened <;> exact .done trivial
  · exact .done trivial

theorem permits_memberJoined (id : ConversationId) : a.Permits os (Lifecycle.memberJoined id party) := by
  unfold Lifecycle.memberJoined
  split
  · refine .ask (.get id) fun task hub => ?_
    generalize (hub.answer (.store (.get id))).1 = reply
    cases reply with
    | error error => exact .done trivial
    | ok c => exact permits_openIfPending acts c
  · exact .done trivial

theorem permits_messageStored (c : Conversation) : a.Permits os (Lifecycle.messageStored c party) :=
  permits_openIfPending acts c

theorem permits_close {id : ConversationId} (told : a.closes? = some id) : a.Permits os (Lifecycle.close id party) := by
  refine .ask (.get id) fun task hub => ?_
  have turn : .asked task hub (.store (.get id)) ∈ os ++ [.asked task hub (.store (.get id))] :=
    List.mem_append_right os List.mem_cons_self
  cases reply : (hub.answer (.store (.get id))).1 with
  | error error => exact .done trivial
  | ok c =>
    show a.Permits _ (if !c.isOwnedBy party.user && !party.role.isAdmin then
      (return .error .forbidden : Program (Except LifecycleError Conversation))
      else if !c.status.canBecome .closed then return .error (.invalidTransition c.status .closed)
      else Lifecycle.move id .closed none)
    split
    · exact .done trivial
    · next allowed =>
      split
      · exact .done trivial
      · have role : c.owner = party.user ∨ party.role.isAdmin = true := by
          simp only [Conversation.isOwnedBy, Bool.and_eq_true, Bool.not_eq_true', beq_eq_false_iff_ne, not_and_or,
            Bool.not_eq_false, not_not] at allowed
          exact allowed
        exact permits_move (.closes acts told ⟨task, hub, turn, reply⟩ role)

theorem permits_start (content : String) (label : Option String) :
    a.Permits os (Intake.start party content label) := by
  unfold Intake.start
  split
  · exact .done trivial
  · next content label _ =>
    refine .ask (.starts acts label content) fun task hub => ?_
    generalize (hub.answer (.store (.start party label content))).1 = reply
    rcases reply with error | (⟨c, opening⟩ | c)
    · exact .done trivial
    · exact (permits_announce c).bind fun _ _ _ => .done trivial
    · exact .done trivial

end Lifecycle

section Connections
variable {c : Connection}

theorem permits_leave : a.Permits os c.leave :=
  .ask (.leaves c.room c.session) fun _ _ => .done trivial

section Texts
variable {text : String} (own : a.session? = some c.session) (sent : text ∈ a.texts)
  (elsewhere : c.room ≠ .dashboard)
include own sent elsewhere

theorem permits_refuse (meant : (InboundFrame.content? text).isSome) {o : Occurrence}
    (last : os.getLast? = some o) (refused : o.Refuses c.room) : a.Permits os c.refuse := by
  have sends : a.Permits os (Program.sendTo c.room c.session (.error .conversationClosed)) := by
    unfold Program.sendTo
    cases packed : (Frame.error .conversationClosed).pack? with
    | none => exact .done trivial
    | some parcel =>
      exact .ask (.refuses own sent meant elsewhere last refused (Frame.frame_of_pack? packed)) fun _ _ => .done trivial
  exact sends.bind fun _ _ _ => .done trivial

theorem permits_deliver (acts : a.party? = some c.identity) (admitted : a.Admits os c.identity c.room)
    (current : Conversation) {content : String} (meant : InboundFrame.content? text = some content) :
    a.Permits os (c.deliver current content) := by
  refine .ask (.writes acts elsewhere admitted content) fun task hub => ?_
  generalize posting : Occurrence.asked task hub (.store (.createMessage (.ofSender c.room c.identity content))) = turn
  have posted : turn.posted? = Request.posted? (.store (.createMessage (.ofSender c.room c.identity content)))
      (hub.answer (.store (.createMessage (.ofSender c.room c.identity content)))).1 := posting ▸ rfl
  have created (m : Message) := @Hub.message_of_created hub (.ofSender c.room c.identity content) m
  cases reply : (hub.answer (.store (.createMessage (.ofSender c.room c.identity content)))).1 with
  | error error =>
    cases error with
    | closed id =>
      have refused : turn.Refuses c.room := posting ▸ ⟨rfl, id, reply⟩
      exact permits_refuse own sent elsewhere (by simp [meant]) (List.getLast?_concat ..) refused
    | notFound _ | invalidTransition _ _ | database _ => exact .done trivial
  | ok m =>
    rw [reply] at posted
    have room : m.conversation = c.room := by
      obtain ⟨_, rfl⟩ := created m reply
      rfl
    apply (permits_messageStored acts current).remember.bind
    rintro ps result ⟨-, later, rfl, path⟩
    -- Whatever the message does to the conversation, it stays the last one that was stored.
    have silent : later.filterMap (·.posted?) = [] :=
      List.filterMap_eq_nil_iff.mpr fun o there => (Connection.aside_of_messageStored path o there).unposted
    have last : (((os ++ [turn]) ++ later).filterMap (·.posted?)).getLast? = some m := by
      rw [List.filterMap_append, List.filterMap_append, silent, List.append_nil, List.filterMap_cons_some posted]
      exact List.getLast?_concat ..
    have speaks : a.Permits ((os ++ [turn]) ++ later) (Program.broadcast c.room (.chat (.ofMessage m))) := by
      rw [← room] at elsewhere ⊢
      exact permits_broadcast fun parcel packed => .speaks last elsewhere (Frame.frame_of_pack? packed)
    exact speaks.bind fun _ _ _ => .done trivial

end Texts

variable (acts : a.party? = some c.identity) (own : a.session? = some c.session)
include acts own

theorem permits_handleText (admitted : a.Admits os c.identity c.room) (settings : Settings) {text : String}
    (sent : text ∈ a.texts) : a.Permits os (c.handleText settings text) := by
  unfold Connection.handleText
  split
  · exact .done trivial
  · split
    · exact .done trivial
    · next elsewhere =>
      have elsewhere : c.room ≠ .dashboard := by simpa [Connection.isDashboard, ConversationId.isDashboard] using elsewhere
      split
      · exact .done trivial
      · next content meant =>
        refine .ask (.get c.room) fun task hub => ?_
        cases reply : (hub.answer (.store (.get c.room))).1 with
        | error error => exact .done trivial
        | ok current =>
          simp only [Program.bind]
          split
          · next refused =>
            have closed : current.status = .closed := by
              cases status : current.status <;> simp [Lifecycle.ensureAccepts, status, Status.isFinal] at refused ⊢
            exact permits_refuse own sent elsewhere (by simp [meant]) (List.getLast?_concat ..)
              ⟨rfl, current, reply, closed⟩
          · exact permits_deliver own sent elsewhere acts (admitted.mono (List.subset_append_left _ _)) current meant

theorem permits_readTexts (admitted : a.Admits os c.identity c.room) (settings : Settings) {texts : List String}
    (sent : texts ⊆ a.texts) : a.Permits os (c.readTexts settings texts) := by
  induction texts generalizing os with
  | nil => exact .done trivial
  | cons text texts ih =>
    apply (permits_handleText acts own admitted settings (sent List.mem_cons_self)).remember.bind
    rintro ps outcome ⟨-, later, rfl, -⟩
    have rest := ih (admitted.mono (List.subset_append_left _ later)) (List.subset_of_cons_subset sent)
    exact rest.bind fun _ _ _ => .done trivial

theorem permits_afterJoin : a.Permits os c.afterJoin := by
  unfold Connection.afterJoin
  split
  · exact (permits_sendSnapshot own).bind fun _ _ _ => .done trivial
  · exact (permits_memberJoined acts c.room).bind fun _ _ _ => .done trivial

theorem permits_enter (enters : a.enters = true) (admitted : a.Admits os c.identity c.room) (settings : Settings) :
    a.Permits os (c.enter settings) :=
  .ask (.joins enters acts own admitted _) fun _ _ => (permits_afterJoin acts own).bind fun _ _ _ => .done trivial

theorem permits_serve (enters : a.enters = true) (admitted : a.Admits os c.identity c.room) (settings : Settings) :
    a.Permits os (c.serve settings a.texts) := by
  apply (permits_enter acts own enters admitted settings).remember.bind
  rintro ps queue ⟨-, later, rfl, -⟩
  have admitted := admitted.mono (List.subset_append_left _ later)
  exact (permits_readTexts acts own admitted settings (List.Subset.refl _)).bind fun _ _ _ => permits_leave

end Connections

theorem permits_operation (work : Operation) (settings : Settings) :
    (operation work).Permits os (work.program settings) := by
  have admitted (c : Connection) : (operation work).Admits os c.identity c.room := .inl ⟨work, rfl⟩
  cases work with
  | start starter content label => exact (permits_start rfl content label).bind fun _ _ _ => .done trivial
  | close id party => exact (permits_close rfl rfl).bind fun _ _ _ => .done trivial
  | memberJoined id party => exact (permits_memberJoined rfl id).bind fun _ _ _ => .done trivial
  | messageStored read party => exact (permits_messageStored rfl read).bind fun _ _ _ => .done trivial
  | enter c => exact (permits_enter rfl rfl rfl (admitted c) settings).bind fun _ _ _ => .done trivial
  | text c words =>
    exact (permits_handleText rfl rfl (admitted c) settings List.mem_cons_self).bind fun _ _ _ => .done trivial
  | leave c => exact permits_leave

section Routes
open Http

/-- Whoever is answered with an upgrade is let into the room by what was read. -/
def Upgrades (a : Activity) (os : List Occurrence) (response : Response) : Prop :=
  ∀ party room, response = .upgrade party room → a.party? = some party ∧ Entitled os party room

theorem upgrades_answer (answer : Answer) : a.Upgrades os (.answer answer) :=
  fun _ _ same => by cases same

theorem obeys_map {α β : Type} {f : α → β} {program : Program α} {post : List Occurrence → β → Prop}
    (permits : a.Permits os program) (ends : ∀ ps value, post ps (f value)) :
    (f <$> program).Obeys a.MayAsk post os :=
  permits.bind fun ps value _ => .done (ends ps value)

section Caller
variable {caller : Identity}

theorem permits_visibleConversation (id : ConversationId) : a.Permits os (visibleConversation id caller) := by
  refine .ask (.get id) fun task hub => ?_
  generalize (hub.answer (.store (.get id))).1 = reply
  cases reply with
  | error error => exact .done trivial
  | ok c =>
    simp only [Program.bind]
    split <;> exact .done trivial

theorem permits_showConversation (id : ConversationId) : a.Permits os (Route.showConversation caller id) := by
  apply (permits_visibleConversation id).bind
  intro ps result _
  cases result <;> exact .done trivial

theorem permits_showMessages (id : ConversationId) (page : Page) : a.Permits os (Route.showMessages caller id page) := by
  apply (permits_visibleConversation id).bind
  intro ps result _
  cases result with
  | error error => exact .done trivial
  | ok c =>
    refine .ask (.listMessages c.id _ _) fun task hub => ?_
    generalize (hub.answer (.store (.listMessages c.id _ _))).1 = reply
    cases reply <;> exact .done trivial

variable (acts : a.party? = some caller)
include acts

theorem permits_routeStart (request : StartRequest) : a.Permits os (Route.start caller request) := by
  apply (permits_start acts request.content request.label).bind
  intro ps result _
  rcases result with error | (⟨c, opening⟩ | c) <;> exact .done trivial

theorem permits_routeClose {id : ConversationId} (told : a.closes? = some id) : a.Permits os (Route.close caller id) := by
  apply (permits_close acts told).bind
  intro ps result _
  cases result <;> exact .done trivial

theorem obeys_openSocket (id : ConversationId) : (Route.openSocket caller id).Obeys a.MayAsk a.Upgrades os := by
  unfold Route.openSocket
  split
  · exact .done (upgrades_answer _)
  · next elsewhere =>
    have elsewhere : id ≠ .dashboard := by simpa [ConversationId.isDashboard] using elsewhere
    refine .ask (.get id) fun task hub => ?_
    have turn : .asked task hub (.store (.get id)) ∈ os ++ [.asked task hub (.store (.get id))] :=
      List.mem_append_right os List.mem_cons_self
    cases reply : (hub.answer (.store (.get id))).1 with
    | error error => exact .done (upgrades_answer _)
    | ok c =>
      simp only [Program.bind]
      split
      · exact .done (upgrades_answer _)
      · next allowed =>
        split
        · exact .done (upgrades_answer _)
        · refine .done fun party room same => ?_
          cases same
          refine ⟨acts, ?_⟩
          rw [Entitled, if_neg elsewhere]
          refine ⟨c, ⟨task, hub, turn, reply⟩, ?_⟩
          simp only [Conversation.isOwnedBy, Bool.and_eq_true, Bool.not_eq_true', beq_eq_false_iff_ne, not_and_or,
            Bool.not_eq_false, not_not] at allowed
          exact allowed

theorem upgrades_openDashboard : a.Upgrades os (Route.openDashboard caller) := by
  unfold Route.openDashboard
  split
  · next role =>
    intro party room same
    cases same
    refine ⟨acts, ?_⟩
    rwa [Entitled, if_pos rfl]
  · exact upgrades_answer _

end Caller

theorem obeys_withRead {α : Type} {read : Except Rejection α} {next : α → Program Response}
    (rest : ∀ value, read = .ok value → (next value).Obeys a.MayAsk a.Upgrades os) :
    (Route.withRead read next).Obeys a.MayAsk a.Upgrades os := by
  cases read with
  | ok value => exact rest value rfl
  | error rejection => exact .done (upgrades_answer _)

variable {r : Http.Request} (acts : r.caller.toOption = a.party?)
include acts

theorem obeys_withCaller {next : Identity → Program Response}
    (rest : ∀ caller, a.party? = some caller → (next caller).Obeys a.MayAsk a.Upgrades os) :
    (Route.withCaller r next).Obeys a.MayAsk a.Upgrades os := by
  unfold Route.withCaller
  split
  · next caller known => exact rest caller (by rw [← acts, known]; rfl)
  · exact .done (upgrades_answer _)

variable (told : r.closes? = a.closes?)
include told

theorem obeys_route {database : DatabaseHealth} {route : Route} (routed : Route.ofPath? (pathOf r.target) = some route)
    (accepted : route.accepts r.method = true) : (route.respond database r).Obeys a.MayAsk a.Upgrades os := by
  cases route with
  | health => exact obeys_map (.ask .countRooms fun _ _ => .done trivial) fun _ _ => upgrades_answer _
  | liveness => exact .done (upgrades_answer _)
  | readiness => exact .done (upgrades_answer _)
  | conversations =>
    refine obeys_withCaller acts fun caller known => obeys_withRead fun request _ => ?_
    exact obeys_map (permits_routeStart known request) fun _ _ => upgrades_answer _
  | conversation segment =>
    refine obeys_withCaller acts fun caller known => obeys_withRead fun id _ => ?_
    exact obeys_map (permits_showConversation id) fun _ _ => upgrades_answer _
  | messages segment =>
    refine obeys_withCaller acts fun caller known => obeys_withRead fun id _ => obeys_withRead fun page _ => ?_
    exact obeys_map (permits_showMessages id page) fun _ _ => upgrades_answer _
  | closing segment =>
    refine obeys_withCaller acts fun caller known => obeys_withRead fun id read => ?_
    have told : a.closes? = some id := by
      have method : (r.method == "POST") = true := accepted
      rw [← told, Request.closes?, routed]
      simp only [method, if_true, read, Except.toOption]
    exact obeys_map (permits_routeClose known told) fun _ _ => upgrades_answer _
  | socket segment =>
    refine obeys_withRead fun _ _ => obeys_withCaller acts fun caller known => obeys_withRead fun id _ => ?_
    exact obeys_openSocket known id
  | dashboardSocket =>
    refine obeys_withRead fun _ _ => obeys_withCaller acts fun caller known => ?_
    exact .done (upgrades_openDashboard known)

theorem obeys_respond (database : DatabaseHealth) : (Http.respond database r).Obeys a.MayAsk a.Upgrades os := by
  unfold Http.respond
  split
  · exact .done (upgrades_answer _)
  · split
    · exact .done (upgrades_answer _)
    · next route routed =>
      split
      · next accepted =>
        apply (obeys_route acts told routed accepted).bind
        intro ps response upgrades
        cases response with
        | answer answer => exact .done (upgrades_answer _)
        | upgrade party room => exact .done upgrades
      · exact .done (upgrades_answer _)

end Routes

/-- An activity asks for nothing that it may not ask for. -/
theorem permits_program (a : Activity) (database : Http.DatabaseHealth) (settings : Settings) :
    a.Permits os (a.program database settings) := by
  cases a with
  | operation work => exact permits_operation work settings
  | request r => exact (obeys_respond rfl rfl database).bind fun _ _ _ => .done trivial
  | visit session r texts =>
    apply (obeys_respond rfl rfl database).bind
    intro ps response upgrades
    cases response with
    | answer answer => exact .done trivial
    | upgrade party room =>
      obtain ⟨acts, entitled⟩ := upgrades party room rfl
      exact permits_serve (c := ⟨session, party, room⟩) acts rfl rfl (.inr entitled) settings

end Activity

namespace Execution
variable {database : Http.DatabaseHealth} {hub : Hub} {activities : List Activity} {turns : List Turn}
  {log before later : List Occurrence} {task : Nat} {found : Hub} {request : Request} {y : Execution Unit}

/-- In every turn, an activity asks for what it may ask for after its own turns. -/
theorem may_ask (runs : (serving database hub activities).run turns = (log, y))
    (split : log = before ++ .asked task found request :: later) :
    ∃ a, activities[task]? = some a ∧ a.MayAsk (before.filter (·.isOf task)) request := by
  subst split
  obtain ⟨program, -, there, -⟩ := run_program runs rfl
  have there : (activities.map (·.program database hub.settings))[task]? = some program := there
  rw [List.getElem?_map, Option.map_eq_some_iff] at there
  obtain ⟨a, activity, rfl⟩ := there
  have permits : ∀ program, (serving database hub activities).tasks[task]? = some program → a.Permits [] program := by
    intro program own
    have own : (activities.map (·.program database hub.settings))[task]? = some program := own
    rw [List.getElem?_map, activity] at own
    cases own
    exact a.permits_program database hub.settings
  exact ⟨a, activity, run_obeys runs permits⟩

end Execution

end HelpDesk
