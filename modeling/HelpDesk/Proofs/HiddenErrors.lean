import HelpDesk.Proofs.Activities
import HelpDesk.Proofs.DatabaseErrors
import HelpDesk.Socket.Session

/-! What the database says stays in the house. An error of the database is handed on by the store, by the operations and by
the routes, each time in another wrapping; what becomes of a program never depends on which error it was, and neither does
what a client is told or what is put on a queue. -/

namespace HelpDesk
open Program

theorem LifecycleError.varies_ofStore {e f : StoreError} (errors : Varies .database e f) :
    Varies (fun e => .store (.database e)) (LifecycleError.ofStore e) (LifecycleError.ofStore f) := by
  cases errors with
  | same error => exact .same _
  | database alike => exact .database alike

section Registry
variable {room : ConversationId} {session : SessionId}

theorem alike_broadcast (frame : Frame) : (broadcast room frame).Alike Eq (broadcast room frame) := by
  unfold broadcast
  cases frame.pack? with
  | none => exact .done rfl
  | some parcel => exact .rooms (.done rfl)

theorem alike_sendTo (frame : Frame) : (sendTo room session frame).Alike Eq (sendTo room session frame) := by
  unfold sendTo
  cases frame.pack? with
  | none => exact .done rfl
  | some parcel => exact .rooms (.done rfl)

end Registry

namespace Dashboard

theorem alike_announce (c : Conversation) : (announce c).Alike Eq (announce c) :=
  alike_broadcast _

theorem alike_snapshot : snapshot.Alike (Agree (Varies .database)) snapshot :=
  .store (fun _ _ errors => .done (.error errors)) fun _ => .done (.ok _)

theorem alike_sendSnapshot (session : SessionId) :
    (sendSnapshot session).Alike (Agree (Varies .database)) (sendSnapshot session) := by
  refine alike_snapshot.bind fun a b snapshots => ?_
  cases snapshots with
  | ok list => exact .rooms (.done (.ok ()))
  | error errors => exact .rooms (.done (.error errors))

end Dashboard

namespace Lifecycle

/-- The errors differ at most in the error of the database that both come of. -/
abbrev Errors : LifecycleError → LifecycleError → Prop :=
  Varies fun e => .store (.database e)

theorem alike_move (id : ConversationId) (status : Status) (assignee : Option UserId) :
    (move id status assignee).Alike (Agree Errors) (move id status assignee) := by
  refine .store (fun e f errors => ?_) fun moved => ?_
  · exact .done (.error (LifecycleError.varies_ofStore errors))
  · exact (Dashboard.alike_announce moved).bind fun _ _ _ => .done (.ok _)

theorem alike_openIfPending (c : Conversation) (party : Identity) :
    (openIfPending c party).Alike (Agree Errors) (openIfPending c party) := by
  unfold openIfPending
  split
  · refine (alike_move _ _ _).bind fun a b results => ?_
    cases results with
    | ok opened => exact .done (.ok _)
    | @error e f errors =>
      cases errors with
      | same => cases e <;> exact .done (.same _)
      | database alike => exact .done (.error (.database alike))
  · exact .done (.ok _)

theorem alike_messageStored (c : Conversation) (party : Identity) :
    (messageStored c party).Alike (Agree Errors) (messageStored c party) :=
  alike_openIfPending c party

theorem alike_memberJoined (id : ConversationId) (party : Identity) :
    (memberJoined id party).Alike (Agree Errors) (memberJoined id party) := by
  unfold memberJoined
  split
  · refine .store (fun e f errors => ?_) fun c => ?_
    · exact .done (.error (LifecycleError.varies_ofStore errors))
    · exact alike_openIfPending c party
  · exact .done (.ok _)

theorem alike_close (id : ConversationId) (party : Identity) :
    (Lifecycle.close id party).Alike (Agree Errors) (Lifecycle.close id party) := by
  refine .store (fun e f errors => ?_) fun c => ?_
  · exact .done (.error (LifecycleError.varies_ofStore errors))
  · dsimp only
    split
    · exact .done (.same _)
    · split
      · exact .done (.same _)
      · exact alike_move id .closed none

end Lifecycle

theorem Intake.alike_start (party : Identity) (content : String) (label : Option String) :
    (Intake.start party content label).Alike (Agree (Varies fun e => .store (.database e)))
      (Intake.start party content label) := by
  unfold Intake.start
  split
  · exact .done (.same _)
  · refine .store (fun e f errors => ?_) fun outcome => ?_
    · cases errors with
      | same error => exact .done (.same _)
      | database alike => exact .done (.error (.database alike))
    · cases outcome with
      | created c opening => exact (Dashboard.alike_announce c).bind fun _ _ _ => .done (.ok _)
      | alreadyOpen c => exact .done (.ok _)

namespace Connection
variable (c : Connection)

theorem alike_refuse : c.refuse.Alike Eq c.refuse :=
  (alike_sendTo _).bind fun _ _ _ => .done rfl

theorem alike_deliver (current : Conversation) (content : String) :
    (c.deliver current content).Alike Eq (c.deliver current content) := by
  refine .store (fun e f errors => ?_) fun message => ?_
  · cases errors with
    | same =>
      cases e with
      | closed id => exact c.alike_refuse
      | notFound _ | invalidTransition _ _ | database _ => exact .done rfl
    | database alike => exact .done rfl
  · refine (Lifecycle.alike_messageStored current c.identity).bind fun _ _ _ => ?_
    exact (alike_broadcast _).bind fun _ _ _ => .done rfl

theorem alike_handleText (settings : Settings) (text : String) :
    (c.handleText settings text).Alike Eq (c.handleText settings text) := by
  unfold handleText
  split
  · exact .done rfl
  · split
    · exact .done rfl
    · split
      · exact .done rfl
      · refine .store (fun e f errors => .done rfl) fun current => ?_
        dsimp only
        split
        · exact c.alike_refuse
        · exact c.alike_deliver current _

theorem alike_afterJoin : c.afterJoin.Alike Eq c.afterJoin := by
  unfold afterJoin
  split
  · exact (Dashboard.alike_sendSnapshot c.session).bind fun _ _ _ => .done rfl
  · exact (Lifecycle.alike_memberJoined c.room c.identity).bind fun _ _ _ => .done rfl

theorem alike_enter (settings : Settings) : (c.enter settings).Alike Eq (c.enter settings) := by
  refine .ask fun queue _ same => ?_
  cases same
  exact c.alike_afterJoin.bind fun _ _ _ => .done rfl

theorem alike_leave : c.leave.Alike Eq c.leave :=
  .rooms (.done rfl)

end Connection

namespace Http

/-- Errors that a client cannot tell apart. -/
def ApiError.Alike (e f : ApiError) : Prop :=
  Answer.error e = Answer.error f

theorem ApiError.ofStore_database {e : DatabaseError} (other : e ≠ .rowNotFound) :
    ofStore (.database e) = database e.message := by
  cases e with
  | rowNotFound => exact absurd rfl other
  | poolTimedOut | poolClosed | unreachable | rejected _ _ | other _ => rfl

theorem ApiError.alike_database {e f : DatabaseError} (alike : e.Alike f) :
    (ofStore (.database e)).Alike (ofStore (.database f)) := by
  by_cases none : e = .rowNotFound
  · have none' := alike.mp none
    subst none none'
    rfl
  · have some : f ≠ .rowNotFound := fun same => none (alike.mpr same)
    rw [ofStore_database none, ofStore_database some]
    rfl

theorem ApiError.alike_ofStore {e f : StoreError} (errors : Varies .database e f) :
    (ofStore e).Alike (ofStore f) := by
  cases errors with
  | same error => rfl
  | database alike => exact alike_database alike

theorem ApiError.alike_ofLifecycle {e f : LifecycleError} (errors : Lifecycle.Errors e f) :
    (ofLifecycle e).Alike (ofLifecycle f) := by
  cases errors with
  | same error => rfl
  | database alike => exact alike_database alike

section Routes
variable {caller : Identity}

theorem alike_visibleConversation (id : ConversationId) :
    (visibleConversation id caller).Alike (Agree ApiError.Alike) (visibleConversation id caller) := by
  refine .store (fun e f errors => ?_) fun c => ?_
  · exact .done (.error (ApiError.alike_ofStore errors))
  · dsimp only
    split
    · exact .done (.error rfl)
    · exact .done (.ok _)

theorem Route.alike_reportHealth (database : DatabaseHealth) :
    (Route.reportHealth database).Alike Eq (Route.reportHealth database) := by
  refine .ask fun rooms _ same => ?_
  cases same
  exact .done rfl

theorem Route.alike_start (request : StartRequest) : (Route.start caller request).Alike Eq (Route.start caller request) := by
  unfold Route.start
  refine (Intake.alike_start caller request.content request.label).bind fun _ _ results => ?_
  cases results with
  | ok outcome => cases outcome <;> exact .done rfl
  | error errors => cases errors <;> exact .done rfl

theorem Route.alike_showConversation (id : ConversationId) :
    (Route.showConversation caller id).Alike Eq (Route.showConversation caller id) := by
  refine (alike_visibleConversation id).bind fun _ _ results => ?_
  cases results with
  | ok c => exact .done rfl
  | error errors => exact .done errors

theorem Route.alike_showMessages (id : ConversationId) (page : Page) :
    (Route.showMessages caller id page).Alike Eq (Route.showMessages caller id page) := by
  refine (alike_visibleConversation id).bind fun _ _ results => ?_
  cases results with
  | ok c => exact .store (fun _ _ errors => .done (ApiError.alike_ofStore errors)) fun _ => .done rfl
  | error errors => exact .done errors

theorem Route.alike_close (id : ConversationId) : (Route.close caller id).Alike Eq (Route.close caller id) := by
  refine (Lifecycle.alike_close id caller).bind fun _ _ results => ?_
  cases results with
  | ok c => exact .done rfl
  | error errors => exact .done (ApiError.alike_ofLifecycle errors)

theorem Route.alike_openSocket (id : ConversationId) :
    (Route.openSocket caller id).Alike Eq (Route.openSocket caller id) := by
  unfold Route.openSocket
  split
  · exact .done rfl
  · refine .store (fun e f errors => ?_) fun c => ?_
    · exact .done (congrArg Response.answer (ApiError.alike_ofStore errors))
    · dsimp only
      split
      · exact .done rfl
      · split <;> exact .done rfl

theorem Route.alike_withRead {α : Type} {read : Except Rejection α} {next : α → Program Response}
    (rest : ∀ value, (next value).Alike Eq (next value)) :
    (Route.withRead read next).Alike Eq (Route.withRead read next) := by
  cases read with
  | ok value => exact rest value
  | error rejection => exact .done rfl

theorem Route.alike_withCaller {r : Request} {next : Identity → Program Response}
    (rest : ∀ caller, (next caller).Alike Eq (next caller)) :
    (Route.withCaller r next).Alike Eq (Route.withCaller r next) := by
  unfold Route.withCaller
  split
  · exact rest _
  · exact .done rfl

theorem alike_answer {program : Program Answer} (alike : program.Alike Eq program) :
    (Response.answer <$> program).Alike Eq (Response.answer <$> program) :=
  alike.map fun _ _ => congrArg Response.answer

theorem Route.alike_respond (route : Route) (database : DatabaseHealth) (r : Request) :
    (route.respond database r).Alike Eq (route.respond database r) := by
  cases route with
  | health => exact alike_answer (alike_reportHealth database)
  | liveness => exact .done rfl
  | readiness => exact .done rfl
  | conversations => exact alike_withCaller fun _ => alike_withRead fun request => alike_answer (alike_start request)
  | conversation segment =>
    exact alike_withCaller fun _ => alike_withRead fun id => alike_answer (alike_showConversation id)
  | messages segment =>
    exact alike_withCaller fun _ => alike_withRead fun id => alike_withRead fun page =>
      alike_answer (alike_showMessages id page)
  | closing segment => exact alike_withCaller fun _ => alike_withRead fun id => alike_answer (alike_close id)
  | socket segment =>
    exact alike_withRead fun _ => alike_withCaller fun _ => alike_withRead fun id => alike_openSocket id
  | dashboardSocket => exact alike_withRead fun _ => alike_withCaller fun _ => .done rfl

theorem alike_respond (database : DatabaseHealth) (r : Request) :
    (Http.respond database r).Alike Eq (Http.respond database r) := by
  unfold Http.respond
  split
  · exact .done rfl
  · split
    · exact .done rfl
    · next route _ =>
      split
      · exact (route.alike_respond database r).map fun _ _ => congrArg (Response.forMethod r.method)
      · exact .done rfl

end Routes

end Http

namespace Hub.Alike
variable {h k : Hub}

theorem readerStops (alike : h.Alike k) (s : Session) (now : Instant) :
    (s.readerStops h now).1 = (s.readerStops k now).1 ∧ (s.readerStops h now).2.Alike (s.readerStops k now).2 := by
  have left := (run s.connection.alike_leave alike).2
  simp only [Session.readerStops, alike.settings]
  cases s.stage with
  | serving deadline => exact ⟨rfl, left⟩
  | draining limit => exact ⟨rfl, alike⟩
  | finished => exact ⟨rfl, alike⟩

/-- A session takes in an item alike, whatever it is. -/
theorem hear (alike : h.Alike k) (s : Session) (now : Instant) (item : Inbound) :
    (s.hear h now item).1 = (s.hear k now item).1 ∧ (s.hear h now item).2.Alike (s.hear k now item).2 := by
  simp only [Session.hear, alike.settings]
  split
  · split
    · exact alike.readerStops s now
    · split
      · exact ⟨rfl, (run (s.connection.alike_handleText h.settings _) alike).2⟩
      · exact ⟨rfl, alike⟩
  · exact ⟨rfl, alike⟩
  · exact ⟨rfl, alike⟩

end Hub.Alike

/-- What goes on with a client: a request is answered, a connection enters its room, or a text of it is taken in. -/
inductive Exchange
  | request (r : Http.Request)
  | enter (c : Connection)
  | text (c : Connection) (text : String)

namespace Exchange

inductive Result
  | answered (response : Http.Response)
  | entered (queue : QueueId)
  | heard (outcome : Outcome)
  deriving DecidableEq

def program (database : Http.DatabaseHealth) (settings : Settings) : Exchange → Program Result
  | request r => .answered <$> Http.respond database r
  | enter c => .entered <$> c.enter settings
  | text c words => .heard <$> c.handleText settings words

theorem alike_program (database : Http.DatabaseHealth) (settings : Settings) (exchange : Exchange) :
    (exchange.program database settings).Alike Eq (exchange.program database settings) := by
  cases exchange with
  | request r => exact (Http.alike_respond database r).map fun _ _ => congrArg Result.answered
  | enter c => exact (c.alike_enter settings).map fun _ _ => congrArg Result.entered
  | text c words => exact (c.alike_handleText settings words).map fun _ _ => congrArg Result.heard

end Exchange

def Execution.exchanging (database : Http.DatabaseHealth) (hub : Hub) (exchanges : List Exchange) :
    Execution Exchange.Result :=
  ⟨hub, exchanges.map (·.program database hub.settings)⟩

theorem Execution.alike_exchanging {h k : Hub} (alike : h.Alike k) (database : Http.DatabaseHealth)
    (exchanges : List Exchange) : (exchanging database h exchanges).Alike (exchanging database k exchanges) := by
  refine ⟨alike, fun task => ?_⟩
  simp only [exchanging, alike.settings, List.getElem?_map]
  cases exchanges[task]? with
  | none => exact .none
  | some exchange => exact .some (exchange.alike_program database h.settings)

/-- In two hubs that differ only in which errors of the database are to come, every request is answered the same, everything
that a session hears makes the same of it, and every text has the same outcome; and the hubs, with all their rooms and
queues, differ in nothing else afterwards. So it is for any number of requests, connections and texts, however they take
turns: after the same turns they have come to the same. -/
theorem database_errors_stay_hidden {h k : Hub} (alike : h.Alike k) (database : Http.DatabaseHealth) :
    (∀ r, (h.run (Http.respond database r)).1 = (k.run (Http.respond database r)).1 ∧
      (h.run (Http.respond database r)).2.Alike (k.run (Http.respond database r)).2) ∧
    (∀ (s : Session) (now : Instant) (item : Inbound), (s.hear h now item).1 = (s.hear k now item).1 ∧
      (s.hear h now item).2.Alike (s.hear k now item).2) ∧
    (∀ (c : Connection) (text : String),
      (h.run (c.handleText h.settings text)).1 = (k.run (c.handleText k.settings text)).1 ∧
      (h.run (c.handleText h.settings text)).2.Alike (k.run (c.handleText k.settings text)).2) ∧
    ∀ (exchanges : List Exchange) (turns : List Turn),
      let x := ((Execution.exchanging database h exchanges).run turns).2
      let y := ((Execution.exchanging database k exchanges).run turns).2
      x.hub.Alike y.hub ∧ ∀ task, x.value? task = y.value? task := by
  refine ⟨fun r => ?_, fun s now item => alike.hear s now item, fun c text => ?_, fun exchanges turns => ?_⟩
  · exact Hub.Alike.run (Http.alike_respond database r) alike
  · rw [alike.settings]
    exact Hub.Alike.run (c.alike_handleText h.settings text) alike
  · have alike' := (Execution.alike_exchanging alike database exchanges).run turns
    exact ⟨alike'.hub, alike'.value?⟩

/-- Two databases fail for different reasons when the message of an admin is to open a conversation, and when its owner asks
for the conversation. The admin's message is sent all the same, and the owner is told the same. -/
theorem database_errors_stay_hidden_of_secrets :
    let id : ConversationId := ⟨.ofNat 1⟩
    let customer : Identity := ⟨⟨.ofNat 1001⟩, .user⟩
    let admin : Identity := ⟨⟨.ofNat 1000⟩, .admin⟩
    let store : Store := ⟨[⟨id, customer.user, none, "a", .pending, ⟨0, 0⟩, ⟨0, 0⟩⟩], []⟩
    let registry := (({} : Registry Parcel).join id ⟨1⟩ admin 4 false).2
    let failing (get move : DatabaseError) (method : Store.Method) : List (Option Fault) :=
      if method = .get then [none, some (.fail (.database get))]
      else if method = .setStatus then [some (.fail (.database move))] else []
    let faults := failing .poolTimedOut .poolClosed
    let hub : Hub := { settings := .default, store, registry, clock := ⟨0, 0⟩, mint := fun n => .ofNat (n + 2), faults }
    let other : Hub := { hub with faults := failing (.rejected none "role owner, password secret") (.other "at 10.0.0.7") }
    let exchanges : List Exchange := [.text ⟨⟨1⟩, admin, id⟩ "\x7b\"content\":\"b\"\x7d",
      .request (.ofParty customer "GET" ("/api/v1/conversations/" ++ toString id) [] "")]
    let turns : List Turn := List.replicate 4 (.task 0 ⟨1, 0⟩) ++ [.task 1 ⟨2, 0⟩]
    let x := ((Execution.exchanging .healthy hub exchanges).run turns).2
    let y := ((Execution.exchanging .healthy other exchanges).run turns).2
    hub.Alike other ∧ x.value? 1 = some (.answered (.answer (.error (.database "")))) ∧ x.value? 1 = y.value? 1 ∧
      (x.hub.registry.waiting ⟨0⟩).length = 1 ∧ x.hub.registry.waiting ⟨0⟩ = y.hub.registry.waiting ⟨0⟩ := by
  intro id customer admin store registry failing faults hub other exchanges turns x y
  have alike : hub.Alike other := by
    refine ⟨rfl, .refl _, fun method => ?_⟩
    cases method with
    | get => exact .cons (.same none) (.cons (.database (by decide)) .nil)
    | setStatus => exact .cons (.database (by decide)) .nil
    | createMessage | findActive | start | listActive | listMessages => exact .nil
  have facts : x.value? 1 = some (.answered (.answer (.error (.database "")))) ∧
      (x.hub.registry.waiting ⟨0⟩).length = 1 := by
    decide +kernel
  have exchanged : x.hub.Alike y.hub ∧ ∀ task, x.value? task = y.value? task :=
    (database_errors_stay_hidden alike .healthy).2.2.2 exchanges turns
  -- what the runs come to is known by now, and must not be computed again
  clear_value x y
  obtain ⟨answered, waiting⟩ := facts
  obtain ⟨hubs, values⟩ := exchanged
  refine ⟨alike, answered, values 1, waiting, ?_⟩
  rw [hubs.registry]

end HelpDesk
