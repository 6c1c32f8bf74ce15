import HelpDesk.Proofs.Activities

/-! Programs announce what they commit, whatever is under way; and an operation commits the row that its result tells, if it
tells one. -/

namespace HelpDesk

namespace Program
variable {α β : Type}

/-- Whatever the program commits it announces, and nothing else. -/
abbrev TellsAll (program : Program α) : Prop :=
  program.Announces (fun _ => True) none

theorem serves_all : Serves fun _ => True :=
  ⟨fun _ => trivial, fun _ => trivial⟩

theorem TellsAll.bind {program : Program α} {next : α → Program β} (first : program.TellsAll)
    (rest : ∀ value, (next value).TellsAll) : (program.bind next).TellsAll :=
  Announces.bind first rest

theorem TellsAll.done (value : α) : (Program.done value).TellsAll :=
  Announces.done value

/-- On a way to its end, a program announces what it commits on that way. -/
theorem Path.announced {allowed : Request → Prop} {program : Program α} {pending : Option Parcel} {os : List Occurrence}
    {value : α} (path : program.Path os (.done value)) (announces : program.Announces allowed pending) :
    os.filterMap (·.announced?) = pending.toList ++ os.filterMap fun o => o.committed?.bind announcement := by
  generalize ends : Program.done value = last at path
  induction path generalizing pending with
  | nil =>
    subst ends
    cases announces
    rfl
  | @cons request rest os last task hub path ih =>
    cases announces with
    | ask permitted first later =>
      have onward := ih (later (hub.answer request).1) ends
      have announced : (Occurrence.asked task hub request).announced? = pending := first
      have committed : (Occurrence.asked task hub request).committed? = request.committed? (hub.answer request).1 := rfl
      rw [List.filterMap_cons, List.filterMap_cons, announced, committed, onward]
      cases pending <;> cases (request.committed? (hub.answer request).1).bind announcement <;> rfl

end Program

section Routes
open Http Program

theorem tells_visibleConversation (id : ConversationId) (caller : Identity) : (visibleConversation id caller).TellsAll := by
  refine .ask trivial rfl fun reply => ?_
  cases reply with
  | error error => exact .done _
  | ok c =>
    simp only [Program.bind]
    split <;> exact .done _

theorem tells_route (database : DatabaseHealth) (r : Http.Request) (route : Route) :
    (route.respond database r).TellsAll := by
  have known (next : Identity → Program Response) (rest : ∀ caller, (next caller).TellsAll) :
      (Route.withCaller r next).TellsAll := by
    unfold Route.withCaller
    split
    · exact rest _
    · exact .done _
  have read {γ : Type} (value : Except Rejection γ) (next : γ → Program Response) (rest : ∀ v, (next v).TellsAll) :
      (Route.withRead value next).TellsAll := by
    cases value with
    | ok value => exact rest value
    | error rejection => exact .done _
  cases route with
  | health => exact .bind (.ask trivial rfl fun _ => .done _) fun _ => .done _
  | liveness => exact .done _
  | readiness => exact .done _
  | conversations =>
    refine known _ fun caller => read _ _ fun request => .bind (.bind (Intake.announces_start serves_all _ _ _) ?_) fun _ => .done _
    intro result
    rcases result with error | (⟨c, opening⟩ | c) <;> exact .done _
  | conversation segment =>
    refine known _ fun caller => read _ _ fun id => .bind (.bind (tells_visibleConversation id caller) ?_) fun _ => .done _
    intro result
    cases result <;> exact .done _
  | messages segment =>
    refine known _ fun caller => read _ _ fun id => read _ _ fun page =>
      .bind (.bind (tells_visibleConversation id caller) ?_) fun _ => .done _
    intro result
    cases result with
    | error error => exact .done _
    | ok c =>
      refine .ask trivial rfl fun reply => ?_
      cases reply <;> exact .done _
  | closing segment =>
    refine known _ fun caller => read _ _ fun id =>
      .bind (.bind (Lifecycle.announces_close serves_all.permits id caller) ?_) fun _ => .done _
    intro result
    cases result <;> exact .done _
  | socket segment =>
    refine read _ _ fun _ => known _ fun caller => read _ _ fun id => ?_
    unfold Route.openSocket
    split
    · exact .done _
    · refine .ask trivial rfl fun reply => ?_
      cases reply with
      | error error => exact .done _
      | ok c =>
        simp only [Program.bind]
        split
        · exact .done _
        · split <;> exact .done _
  | dashboardSocket => exact read _ _ fun _ => known _ fun caller => .done _

theorem tells_respond (database : DatabaseHealth) (r : Http.Request) : (Http.respond database r).TellsAll := by
  unfold Http.respond
  split
  · exact .done _
  · split
    · exact .done _
    · split
      · exact .bind (tells_route database r _) fun _ => .done _
      · exact .done _

end Routes

theorem Connection.tells_serve (c : Connection) (settings : Settings) (texts : List String) :
    (c.serve settings texts).TellsAll := by
  have reads : (c.readTexts settings texts).TellsAll := by
    induction texts with
    | nil => exact .done _
    | cons text texts ih =>
      refine .bind (announces_handleText Program.serves_all (fun _ _ => trivial) (fun _ _ => trivial) settings text) ?_
      exact fun outcome => .bind ih fun outcomes => .done _
  refine .bind (announces_enter Program.serves_all (fun _ => trivial) (fun _ _ => trivial) settings) fun _ => .bind reads ?_
  exact fun _ => .ask trivial rfl fun _ => .done _

theorem Activity.tells (a : Activity) (database : Http.DatabaseHealth) (settings : Settings) :
    (a.program database settings).TellsAll := by
  cases a with
  | operation work => exact Operation.announces Program.serves_all work.permitted_true settings
  | request r => exact .bind (tells_respond database _) fun _ => .done _
  | visit session r texts =>
    refine .bind (tells_respond database _) ?_
    intro response
    cases response with
    | answer answer => exact .done _
    | upgrade party room => exact Connection.tells_serve _ settings texts

/-- On every way to its end, the program commits the row that its result tells, if it tells one, and no other. -/
def Program.Reports {α : Type} (told? : α → Option Conversation) (program : Program α) : Prop :=
  ∀ os value, program.Path os (.done value) → os.filterMap (·.committed?) = (told? value).toList

/-- What is announced on any way through the program to its end is the row that its result tells, if it tells one. -/
def Program.AnnouncesResult {α : Type} (told? : α → Option Conversation) (program : Program α) : Prop :=
  ∀ os value, program.Path os (.done value) → os.filterMap (·.announced?) = ((told? value).bind announcement).toList

namespace Program
variable {α β : Type} {told? : α → Option Conversation}

theorem Reports.done {value : α} (untold : told? value = none) : (Program.done value).Reports told? := by
  intro os last path
  obtain ⟨rfl, rfl⟩ := path.of_done
  rw [untold]
  rfl

/-- A request that commits nothing changes nothing about that. -/
theorem Reports.ask {request : Request} {rest : request.Reply → Program α}
    (reads : ∀ reply, request.committed? reply = none) (later : ∀ reply, (rest reply).Reports told?) :
    (Program.ask request rest).Reports told? := by
  intro os value path
  obtain ⟨task, hub, tail, rfl, onward⟩ := path.of_ask
  have committed : (Occurrence.asked task hub request).committed? = none := reads _
  rw [List.filterMap_cons_none committed]
  exact later _ tail value onward

/-- What the first request commits is told, if nothing is committed after it. -/
theorem Reports.of_request {request : Request} {rest : request.Reply → Program α}
    (later : ∀ reply os value, (rest reply).Path os (.done value) →
      os.filterMap (·.committed?) = [] ∧ told? value = request.committed? reply) :
    (Program.ask request rest).Reports told? := by
  intro os value path
  obtain ⟨task, hub, tail, rfl, onward⟩ := path.of_ask
  obtain ⟨silent, same⟩ := later _ tail value onward
  have committed : (Occurrence.asked task hub request).committed? = told? value := same.symm
  rw [List.filterMap_cons, committed, silent]
  cases told? value <;> rfl

theorem Reports.bind {program : Program α} {next : α → Program β} {tells? : β → Option Conversation}
    (first : program.Reports told?)
    (rest : ∀ value os last, (next value).Path os (.done last) →
      os.filterMap (·.committed?) = [] ∧ tells? last = told? value) : (program.bind next).Reports tells? := by
  intro os last path
  obtain ⟨begins, ends, value, rfl, path, onward⟩ := path.of_bind
  obtain ⟨silent, same⟩ := rest value ends last onward
  rw [List.filterMap_append, first begins value path, silent, List.append_nil, same]

theorem committed_of_rooms {command : Registry.Command Parcel} {os : List Occurrence} {value : Unit}
    (path : (rooms command).Path os (.done value)) : os.filterMap (·.committed?) = [] := by
  obtain ⟨task, hub, later, rfl, onward⟩ := path.of_ask
  obtain ⟨rfl, -⟩ := onward.of_done
  rfl

theorem committed_of_broadcast {room : ConversationId} {frame : Frame} {os : List Occurrence} {value : Unit}
    (path : (broadcast room frame).Path os (.done value)) : os.filterMap (·.committed?) = [] := by
  unfold broadcast at path
  split at path
  · exact committed_of_rooms path
  · obtain ⟨rfl, -⟩ := path.of_done
    rfl

theorem committed_of_sendTo {room : ConversationId} {session : SessionId} {frame : Frame} {os : List Occurrence}
    {value : Unit} (path : (sendTo room session frame).Path os (.done value)) : os.filterMap (·.committed?) = [] := by
  unfold sendTo at path
  split at path
  · exact committed_of_rooms path
  · obtain ⟨rfl, -⟩ := path.of_done
    rfl

theorem Reports.announced {program : Program α} (reports : program.Reports told?) (tells : program.TellsAll) :
    program.AnnouncesResult told? := by
  intro os value path
  rw [path.announced tells, ← List.filterMap_filterMap, reports os value path]
  cases told? value with
  | none => rfl
  | some c => cases framed : announcement c <;> simp [framed]

end Program

namespace Lifecycle

theorem reports_move (id : ConversationId) (status : Status) (assignee : Option UserId) :
    (move id status assignee).Reports Except.toOption := by
  refine .of_request fun reply os result path => ?_
  cases reply with
  | error error =>
    obtain ⟨rfl, rfl⟩ := Program.Path.of_done path
    exact ⟨rfl, rfl⟩
  | ok moved =>
    have path : ((Dashboard.announce moved).bind fun _ => .done (.ok moved)).Path os (.done result) := path
    obtain ⟨first, last, _, rfl, announces, ends⟩ := path.of_bind
    obtain ⟨rfl, rfl⟩ := ends.of_done
    rw [List.append_nil]
    exact ⟨Program.committed_of_broadcast announces, rfl⟩

theorem reports_openIfPending (c : Conversation) (party : Identity) :
    (openIfPending c party).Reports fun result => result.toOption.join := by
  unfold openIfPending
  split
  · refine (reports_move _ _ _).bind fun result os last path => ?_
    rcases result with (_ | _ | _ | _) | opened <;>
      (obtain ⟨rfl, rfl⟩ := Program.Path.of_done path; exact ⟨rfl, rfl⟩)
  · exact .done rfl

theorem reports_memberJoined (id : ConversationId) (party : Identity) :
    (memberJoined id party).Reports fun result => result.toOption.join := by
  unfold memberJoined
  split
  · refine .ask (fun _ => rfl) fun reply => ?_
    cases reply with
    | error error => exact .done rfl
    | ok c => exact reports_openIfPending c party
  · exact .done rfl

theorem reports_close (id : ConversationId) (party : Identity) : (close id party).Reports Except.toOption := by
  refine .ask (fun _ => rfl) fun reply => ?_
  cases reply with
  | error error => exact .done rfl
  | ok c =>
    show Program.Reports Except.toOption (if !c.isOwnedBy party.user && !party.role.isAdmin then
      (return .error .forbidden : Program (Except LifecycleError Conversation))
      else if !c.status.canBecome .closed then return .error (.invalidTransition c.status .closed)
      else move id .closed none)
    split
    · exact .done rfl
    · split
      · exact .done rfl
      · exact reports_move id .closed none

end Lifecycle

/-- The conversation that was created for the caller. -/
def Intake.created? : Except IntakeError Start → Option Conversation
  | .ok (.created c _) => some c
  | .ok (.alreadyOpen _) | .error _ => none

theorem Intake.reports_start (party : Identity) (content : String) (label : Option String) :
    (start party content label).Reports created? := by
  unfold start
  split
  · exact .done rfl
  · refine .of_request fun reply os result path => ?_
    rcases reply with error | (⟨c, opening⟩ | c)
    · obtain ⟨rfl, rfl⟩ := Program.Path.of_done path
      exact ⟨rfl, rfl⟩
    · have path : ((Dashboard.announce c).bind fun _ => .done (.ok (.created c opening))).Path os (.done result) := path
      obtain ⟨first, last, _, rfl, announces, ends⟩ := path.of_bind
      obtain ⟨rfl, rfl⟩ := ends.of_done
      rw [List.append_nil]
      exact ⟨Program.committed_of_broadcast announces, rfl⟩
    · obtain ⟨rfl, rfl⟩ := Program.Path.of_done path
      exact ⟨rfl, rfl⟩

namespace Connection
variable {c : Connection} {os : List Occurrence} {outcome : Outcome}

theorem committed_of_refuse (path : c.refuse.Path os (.done outcome)) : os.filterMap (·.committed?) = [] := by
  obtain ⟨first, later, _, rfl, begins, ends⟩ := Program.Path.of_bind path
  obtain ⟨rfl, rfl⟩ := ends.of_done
  rw [List.append_nil]
  exact Program.committed_of_sendTo begins

theorem committed_of_deliver {current : Conversation} {content : String}
    (path : (c.deliver current content).Path os (.done outcome)) (undelivered : outcome.message? = none) :
    os.filterMap (·.committed?) = [] := by
  obtain ⟨task, hub, later, rfl, onward⟩ := Program.Path.of_ask path
  have committed : (Occurrence.asked task hub (.store (.createMessage (.ofSender c.room c.identity content)))).committed? =
      none := rfl
  rw [List.filterMap_cons_none committed]
  generalize (hub.answer (.store (.createMessage (.ofSender c.room c.identity content)))).1 = reply at onward
  rcases reply with (_ | id | _ | _) | m
  · obtain ⟨rfl, rfl⟩ := onward.of_done
    rfl
  · exact committed_of_refuse onward
  · obtain ⟨rfl, rfl⟩ := onward.of_done
    rfl
  · obtain ⟨rfl, rfl⟩ := onward.of_done
    rfl
  · have onward : ((Lifecycle.messageStored current c.identity).bind fun _ =>
        (Program.broadcast c.room (.chat (.ofMessage m))).bind fun _ => .done (Outcome.delivered m)).Path later
        (.done outcome) := onward
    obtain ⟨-, _, -, -, -, speaks⟩ := onward.of_bind
    obtain ⟨-, _, -, -, -, ends⟩ := speaks.of_bind
    obtain ⟨-, rfl⟩ := ends.of_done
    cases undelivered

/-- A text that is not delivered moves no conversation. -/
theorem committed_of_handleText {settings : Settings} {text : String}
    (path : (c.handleText settings text).Path os (.done outcome)) (undelivered : outcome.message? = none) :
    os.filterMap (·.committed?) = [] := by
  have stopped {value : Outcome} (ends : (Program.done value).Path os (.done outcome)) :
      os.filterMap (·.committed?) = [] := by
    obtain ⟨rfl, -⟩ := ends.of_done
    rfl
  unfold handleText at path
  split at path
  · exact stopped path
  · split at path
    · exact stopped path
    · split at path
      · exact stopped path
      · obtain ⟨task, hub, later, rfl, onward⟩ := Program.Path.of_ask path
        have committed : (Occurrence.asked task hub (.store (.get c.room))).committed? = none := rfl
        rw [List.filterMap_cons_none committed]
        generalize (hub.answer (.store (.get c.room))).1 = reply at onward
        rcases reply with error | current
        · obtain ⟨rfl, rfl⟩ := onward.of_done
          rfl
        · simp only [Program.bind] at onward
          split at onward
          · exact committed_of_refuse onward
          · exact committed_of_deliver onward undelivered

end Connection

end HelpDesk
