import HelpDesk.Proofs.Operations
import HelpDesk.Socket.Session

/-! Connections that are served side by side, among whatever else goes on. A connection enters its room and does there what
is to be done; then its reader and its writer are at work, until both are over. Every request, every item that is read, the
beginning and the end of every write is a step of its own, and so is noticing that the writer has ended; between any two
steps of one connection all others, and anybody else, may do theirs. -/

namespace HelpDesk

namespace Registry
variable {φ : Type} (r : Registry φ) (queue : QueueId)

theorem endReceiving_endReceiving : (r.endReceiving queue).endReceiving queue = r.endReceiving queue := by
  simp only [endReceiving, modifyQueue, List.modify_modify_eq]
  rfl

/-- It makes no difference to those in the room when the receiver of somebody who leaves goes away. -/
theorem leave_endReceiving (room : ConversationId) (session : SessionId) :
    (r.endReceiving queue).leave room session = (r.leave room session).endReceiving queue := by
  have found : (r.endReceiving queue).member? room session = r.member? room session := rfl
  rw [leave, leave, found]
  cases r.member? room session with
  | none => rfl
  | some m =>
    have queues : (r.queues.modify queue.number Queue.endReceiving).modify m.queue.number Queue.endSending =
        (r.queues.modify m.queue.number Queue.endSending).modify queue.number Queue.endReceiving := by
      apply List.ext_getElem?
      intro n
      simp only [List.getElem?_modify]
      split <;> split <;> cases r.queues[n]? <;> rfl
    exact congrArg (Registry.mk _) queues

end Registry

namespace Session

/-- Takes over what has become of the writer. When it has ended, nobody receives from the queue any more. -/
def withWriter (s : Session) (h : Hub) (writer : Writer) : Session × Hub :=
  ({ s with writer }, if writer.hasEnded then { h with registry := h.registry.endReceiving s.queue } else h)

/-- The frame that is being written. -/
def writing? (s : Session) : Option SocketFrame :=
  match s.stage, s.writer.phase with
  | .finished, _ => none
  | _, .writing frame _ => some frame
  | _, _ => none

/-- What a write begins with: a ping that is due, or what the queue is found to have. -/
inductive Begins (s : Session) (h : Hub) (now : Instant) : SocketFrame → Session → Hub → Prop
  | ping (due : s.writer.tick ≤ now) :
      Begins s h now .heartbeat { s with writer := s.writer.ping h.settings now } h
  | text {parcel : Parcel} {registry : Registry Parcel} (received : h.registry.receive s.queue = (.frame parcel, registry)) :
      Begins s h now (.text parcel.text) { s with writer := s.writer.write now (.text parcel.text) } { h with registry }
  | close {registry : Registry Parcel} (received : h.registry.receive s.queue = (.closed, registry)) :
      Begins s h now .close { s with writer := s.writer.write now .close } { h with registry }

section Begins
variable {s t : Session} {h k : Hub} {now : Instant} {frame : SocketFrame}

theorem begins_of_ping? (pinged : s.ping? h now = some (frame, t, k)) : s.Begins h now frame t k := by
  unfold ping? at pinged
  split at pinged
  · next due =>
    cases pinged
    exact .ping due
  · cases pinged

theorem begins_of_take? (took : s.take? h now = some (frame, t, k)) : s.Begins h now frame t k := by
  unfold take? at took
  split at took
  · next received =>
    cases took
    exact .text received
  · next received =>
    cases took
    exact .close received
  · cases took

theorem begins_of_begin? {pingFirst : Bool} (began : s.begin? h now pingFirst = some (frame, t, k)) :
    s.writer.phase = .idle ∧ s.Begins h now frame t k := by
  unfold begin? at began
  split at began
  · cases began
  · next idle _ =>
    refine ⟨idle, ?_⟩
    have either : s.ping? h now = some (frame, t, k) ∨ s.take? h now = some (frame, t, k) := by
      split at began
      · exact (Option.or_eq_some_iff.mp began).imp_right And.right
      · exact (Option.or_eq_some_iff.mp began).symm.imp_left And.right
    rcases either with pinged | took
    · exact begins_of_ping? pinged
    · exact begins_of_take? took
  · cases began
  · cases began

end Begins

end Session

/-- A connection that is served. -/
inductive Service
  /-- it is in its room, and does what is to be done before it is read from and written to -/
  | entering (c : Connection) (queue : QueueId) (work : Program Unit)
  /-- its reader may be at work on a text, and the writer has written these frames -/
  | live (session : Session) (work : Program Unit) (sent : List SocketFrame)

namespace Service

inductive Step
  /-- a request of what is to be done -/
  | proceed (now : Instant)
  | hear (now : Instant) (item : Inbound)
  /-- a write, where a ping that is due comes before what the queue has, or after it -/
  | begin (now : Instant) (pingFirst : Bool)
  | wrote (now : Instant) (succeeded : Bool)
  /-- a write takes too long -/
  | stall (now : Instant)
  /-- the end of the writer is noticed -/
  | conclude
  /-- the reader has waited, or the writer been waited for, too long -/
  | expire (now : Instant)

def Step.now? : Step → Option Instant
  | proceed now | hear now _ | begin now _ | wrote now _ | stall now | expire now => some now
  | conclude => none

/-- The reader gets an item. What is to be done about a text is begun. -/
def hear (s : Session) (sent : List SocketFrame) (h : Hub) (now : Instant) (item : Inbound) : Service × Hub :=
  match s.stage, item with
  | .serving _, .frame (.text text) => (.live s (s.connection.handleText h.settings text).ignore sent, h)
  | _, _ =>
    let (s, h) := s.hear h now item
    (.live s (.done ()) sent, h)

def wrote (s : Session) (work : Program Unit) (sent : List SocketFrame) (h : Hub) (now : Instant) (succeeded : Bool) :
    Service × Hub :=
  match s.writing? with
  | some frame =>
    let (s, h) := s.withWriter h (s.writer.wrote h.settings now succeeded)
    (.live s work (if succeeded then sent ++ [frame] else sent), h)
  | none => (.live s work sent, h)

def stall (s : Session) (work : Program Unit) (sent : List SocketFrame) (h : Hub) (now : Instant) : Service × Hub :=
  match s.writing?, s.writer.limit? h.settings with
  | some _, some limit =>
    if limit ≤ now then
      let (s, h) := s.withWriter h (s.writer.expire h.settings)
      (.live s work sent, h)
    else (.live s work sent, h)
  | _, _ => (.live s work sent, h)

/-- A step of a connection, if it can take it. A reader that is at work on a text neither reads nor looks at the time. -/
def step (h : Hub) : Service → Step → Service × Hub
  | .entering c queue (.ask request next), .proceed _ =>
    let (reply, h) := h.answer request
    (.entering c queue (next reply), h)
  | .entering c queue (.done _), .proceed now =>
    (.live ⟨c, queue, .start h.settings now, .serving (now + h.settings.pongWait)⟩ (.done ()) [], h)
  | .live s (.ask request next) sent, .proceed _ =>
    let (reply, h) := h.answer request
    (.live s (next reply) sent, h)
  | .live s (.done _) sent, .hear now item => hear s sent h now item
  | .live s (.done _) sent, .expire now =>
    let (s, h) := s.expireStage h now
    (.live s (.done ()) sent, h)
  | .live s work sent, .begin now pingFirst =>
    match s.begin? h now pingFirst with
    | some (_, s, h) => (.live s work sent, h)
    | none => (.live s work sent, h)
  | .live s work sent, .wrote now succeeded => wrote s work sent h now succeeded
  | .live s work sent, .stall now => stall s work sent h now
  | .live s work sent, .conclude =>
    if s.writer.hasEnded then
      let (s, h) := s.writerStops h
      (.live s work sent, h)
    else (.live s work sent, h)
  | s, _ => (s, h)

def connection : Service → Connection
  | entering c _ _ => c
  | live s _ _ => s.connection

def queue : Service → QueueId
  | entering _ queue _ => queue
  | live s _ _ => s.queue

def work : Service → Program Unit
  | entering _ _ work | live _ work _ => work

/-- The frames that its writer has written. -/
def sent : Service → List SocketFrame
  | entering _ _ _ => []
  | live _ _ sent => sent

def phase : Service → Writer.Phase
  | entering _ _ _ => .idle
  | live s _ _ => s.writer.phase

def place (s : Service) : Registry.Place :=
  ⟨s.connection.room, s.connection.session, s.queue⟩

@[simp] theorem place_entering (c : Connection) (queue : QueueId) (work : Program Unit) :
    (entering c queue work).place = ⟨c.room, c.session, queue⟩ := rfl

@[simp] theorem place_live (s : Session) (work : Program Unit) (sent : List SocketFrame) :
    (live s work sent).place = ⟨s.connection.room, s.connection.session, s.queue⟩ := rfl

/-- Its session has not left the room yet. -/
def isStaying : Service → Bool
  | entering _ _ _ => true
  | live s _ _ =>
    match s.stage with
    | .serving _ => true
    | .draining _ | .finished => false

def isOver : Service → Bool
  | entering _ _ _ => false
  | live s _ _ => s.isOver

/-- Some steps of one connection, and none of anybody else. -/
def steps (s : Service) (h : Hub) (list : List Step) : Service × Hub :=
  list.foldl (fun (s, h) next => s.step h next) (s, h)

@[simp] theorem steps_nil (s : Service) (h : Hub) : s.steps h [] = (s, h) := rfl

@[simp] theorem steps_cons (s : Service) (h : Hub) (next : Step) (list : List Step) :
    s.steps h (next :: list) = (s.step h next).1.steps (s.step h next).2 list := rfl

section Undisturbed
variable {s : Session} {sent : List SocketFrame} {h : Hub} {now : Instant} {work : Program Unit}

theorem steps_entering (c : Connection) (queue : QueueId) (work : Program Unit) : ∃ n,
    (entering c queue work).steps h (List.replicate n (.proceed now)) =
      (.live ⟨c, queue, .start (h.run work).2.settings now, .serving (now + (h.run work).2.settings.pongWait)⟩ (.done ())
        [], (h.run work).2) := by
  induction work generalizing h with
  | done => exact ⟨1, rfl⟩
  | ask request next ih =>
    obtain ⟨n, runs⟩ := @ih (h.answer request).1 (h.answer request).2
    exact ⟨n + 1, runs⟩

theorem steps_live (work : Program Unit) : ∃ n,
    (live s work sent).steps h (List.replicate n (.proceed now)) = (.live s (.done ()) sent, (h.run work).2) := by
  induction work generalizing h with
  | done => exact ⟨0, rfl⟩
  | ask request next ih =>
    obtain ⟨n, runs⟩ := @ih (h.answer request).1 (h.answer request).2
    exact ⟨n + 1, runs⟩

/-- Whoever enters while nobody else does anything is served as by a session that enters in one step. -/
theorem steps_of_enter (c : Connection) : ∃ n,
    let (queue, registry) := h.registry.join c.room c.session c.identity h.settings.queueCapacity c.isDashboard
    (entering c queue c.afterJoin).steps { h with registry } (List.replicate n (.proceed now)) =
      (.live (Session.enter h now c).1 (.done ()) [], (Session.enter h now c).2) := by
  rcases joins : h.registry.join c.room c.session c.identity h.settings.queueCapacity c.isDashboard with ⟨queue, registry⟩
  obtain ⟨n, runs⟩ := @steps_entering { h with registry } now c queue c.afterJoin
  have entered : h.run (c.enter h.settings) = (queue, (Hub.run { h with registry } c.afterJoin).2) := by
    have first : h.answer (.join c.room c.session c.identity h.settings.queueCapacity c.isDashboard) =
        (queue, { h with registry }) := by
      simp only [Hub.answer, joins]
      rfl
    have split : h.run (c.enter h.settings) = Program.run Hub.answer (c.afterJoin.bind fun _ => .done queue)
        { h with registry } := by
      simp only [Hub.run, Connection.enter, bind, Program.bind, Program.run, first]
      rfl
    rw [split, Program.run_bind]
    rfl
  refine ⟨n, runs.trans ?_⟩
  rw [Session.enter, entered]

/-- Whoever hears something while nobody else does anything hears it, and does all that follows, as in one step. -/
theorem steps_of_hear (item : Inbound) : ∃ n,
    (live s (.done ()) sent).steps h (.hear now item :: List.replicate n (.proceed now)) =
      (.live (s.hear h now item).1 (.done ()) sent, (s.hear h now item).2) := by
  by_cases reads : ∃ deadline text, s.stage = .serving deadline ∧ item = .frame (.text text)
  · obtain ⟨deadline, text, serving, rfl⟩ := reads
    obtain ⟨n, runs⟩ := @steps_live s sent h now (s.connection.handleText h.settings text).ignore
    have same : s.hear h now (.frame (.text text)) = (s, (h.run (s.connection.handleText h.settings text)).2) := by
      simp only [Session.hear, serving, Reader.next?]
      rw [← serving]
    have ignored : (h.run (s.connection.handleText h.settings text).ignore).2 =
        (h.run (s.connection.handleText h.settings text)).2 := by
      rw [Hub.run, Program.ignore, Program.run_bind]
      rfl
    refine ⟨n, ?_⟩
    rw [same, ← ignored, ← runs]
    simp only [steps_cons, step, hear, serving]
  · refine ⟨0, ?_⟩
    have other : (live s (.done ()) sent).step h (.hear now item) =
        (.live (s.hear h now item).1 (.done ()) sent, (s.hear h now item).2) := by
      simp only [step, hear]
      split
      · next serving => exact absurd ⟨_, _, serving, rfl⟩ reads
      · rfl
    rw [steps_cons, other]
    rfl

/-- The end of the writer is noticed, if it is the end. -/
theorem conclude_withWriter (going : s.isOver = false) (writer : Writer) :
    (live (s.withWriter h writer).1 work sent).step (s.withWriter h writer).2 .conclude =
      if writer.hasEnded then (.live ({ s with writer }.writerStops h).1 work sent, ({ s with writer }.writerStops h).2)
      else (.live { s with writer } work sent, h) := by
  cases ended : writer.hasEnded with
  | false => simp [step, Session.withWriter, ended]
  | true =>
    obtain ⟨c, queue, before, stage⟩ := s
    cases stage with
    | serving deadline =>
      simp only [step, Session.withWriter, ended, if_true, Session.writerStops, Session.finish, Connection.leave,
        Program.rooms, Hub.run, Program.run, Hub.answer, Registry.apply, Registry.leave_endReceiving,
        Registry.endReceiving_endReceiving]
    | draining limit =>
      simp only [step, Session.withWriter, ended, if_true, Session.writerStops, Session.finish,
        Registry.endReceiving_endReceiving]
    | finished => simp [Session.isOver] at going

/-- A write that is over, and what follows from it at once, is one step of a session. -/
theorem steps_of_wrote {frame : SocketFrame} (writes : s.writing? = some frame) (succeeded : Bool) :
    (live s work sent).steps h [.wrote now succeeded, .conclude] =
      (.live (s.wrote h now succeeded).1 work (if succeeded then sent ++ [frame] else sent),
        (s.wrote h now succeeded).2) := by
  have going : s.isOver = false := by
    cases stage : s.stage <;> simp_all [Session.writing?, Session.isOver]
  have first : (live s work sent).step h (.wrote now succeeded) =
      (.live (s.withWriter h (s.writer.wrote h.settings now succeeded)).1 work
        (if succeeded then sent ++ [frame] else sent), (s.withWriter h (s.writer.wrote h.settings now succeeded)).2) := by
    simp only [step, wrote, writes]
  rw [steps_cons, steps_cons, steps_nil, first, conclude_withWriter going, Session.wrote]
  split <;> rfl

/-- So is a write that has taken too long. -/
theorem steps_of_stall (going : s.isOver = false) (writing : s.writer.hasEnded = false) :
    (live s work sent).steps h [.stall now, .conclude] =
      (.live (s.expireWrite h now).1 work sent, (s.expireWrite h now).2) := by
  have unended (idle : (live s work sent).step h (.stall now) = (live s work sent, h)) :
      (live s work sent).steps h [.stall now, .conclude] = (live s work sent, h) := by
    rw [steps_cons, idle]
    simp [step, writing]
  have expires : s.expireWrite h now = (s.writer.limit? h.settings).elim (s, h) fun limit =>
      if limit ≤ now then ({ s with writer := s.writer.expire h.settings } : Session).writerStops h else (s, h) := by
    cases stage : s.stage <;> cases limit : s.writer.limit? h.settings <;>
      simp_all [Session.expireWrite, Session.isOver]
  rw [expires]
  cases phase : s.writer.phase with
  | idle =>
    have limit : s.writer.limit? h.settings = none := by simp [Writer.limit?, phase]
    rw [limit]
    apply unended
    simp only [step, stall, limit]
    cases s.writing? <;> rfl
  | ended when => simp [Writer.hasEnded, phase] at writing
  | writing frame since =>
    have limit : s.writer.limit? h.settings = some (since + h.settings.writeWait) := by simp [Writer.limit?, phase]
    have writes : s.writing? = some frame := by
      cases stage : s.stage <;> simp_all [Session.writing?, Session.isOver]
    have ends : (s.writer.expire h.settings).hasEnded = true := by simp [Writer.expire, phase, Writer.hasEnded]
    rw [limit, Option.elim_some]
    by_cases late : since + h.settings.writeWait ≤ now
    · have first : (live s work sent).step h (.stall now) =
          (.live (s.withWriter h (s.writer.expire h.settings)).1 work sent,
            (s.withWriter h (s.writer.expire h.settings)).2) := by
        simp only [step, stall, writes, limit, if_pos late]
      rw [steps_cons, steps_cons, steps_nil, first, conclude_withWriter going, if_pos ends, if_pos late]
    · rw [if_neg late]
      apply unended
      simp only [step, stall, writes, limit, if_neg late]

end Undisturbed

end Service

/-- The help desk with the connections that it serves, in the order in which they came. -/
structure Traffic where
  hub : Hub
  services : List Service

namespace Traffic

inductive Move
  | enter (c : Connection)
  | step (service : Nat) (step : Service.Step)
  /-- anybody else asks for something -/
  | request (request : Request)
  | clock (now : Moment)
  /-- anybody else receives from a queue -/
  | receive (queue : QueueId)
  | endReceiving (queue : QueueId)

/-- Only the connection that it was made for receives from a queue. -/
def isServed (x : Traffic) (queue : QueueId) : Bool :=
  x.services.any fun s => s.queue == queue

def next (x : Traffic) : Move → Traffic
  | .enter c =>
    let (queue, registry) :=
      x.hub.registry.join c.room c.session c.identity x.hub.settings.queueCapacity c.isDashboard
    ⟨{ x.hub with registry }, x.services ++ [.entering c queue c.afterJoin]⟩
  | .step n step =>
    match x.services[n]? with
    | some s =>
      let (s, hub) := s.step x.hub step
      ⟨hub, x.services.set n s⟩
    | none => x
  | .request request => { x with hub := (x.hub.answer request).2 }
  | .clock now => { x with hub.clock := now }
  | .receive queue =>
    if x.isServed queue then x else { x with hub.registry := (x.hub.registry.receive queue).2 }
  | .endReceiving queue =>
    if x.isServed queue then x else { x with hub.registry := x.hub.registry.endReceiving queue }

def after (x : Traffic) (moves : List Move) : Traffic :=
  moves.foldl next x

end Traffic

end HelpDesk
