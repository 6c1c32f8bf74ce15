import HelpDesk.Hub
import HelpDesk.Socket.Reader
import HelpDesk.Socket.Writer

/-! A connection that is served over a socket: the reader and the writer side by side, from entering the room to
leaving it. Whichever side stops first, the session leaves. If that was the reader, the writer may still empty
the queue and close the socket, for as long as one write may take; if it was the writer, the reader is
dropped. How the socket carries frames is not said here: it takes what the writer begins, and tells
when a write is over. -/

namespace HelpDesk

inductive Session.Stage
  /-- reading until the deadline, and writing -/
  | serving (deadline : Instant)
  /-- the reader has stopped; the writer has until the limit -/
  | draining (limit : Instant)
  | finished
  deriving DecidableEq

structure Session where
  connection : Connection
  queue : QueueId
  writer : Writer
  stage : Session.Stage
  deriving DecidableEq

namespace Session

def enter (h : Hub) (now : Instant) (c : Connection) : Session × Hub :=
  let (queue, h) := h.run (c.enter h.settings)
  (⟨c, queue, .start h.settings now, .serving (now + h.settings.pongWait)⟩, h)

/-- Nothing is read or written any more, and nobody receives from the queue. -/
def finish (s : Session) (h : Hub) : Session × Hub :=
  ({ s with stage := .finished }, { h with registry := h.registry.endReceiving s.queue })

/-- The reader stops: the session leaves the room, which closes its queue. -/
def readerStops (s : Session) (h : Hub) (now : Instant) : Session × Hub :=
  match s.stage with
  | .serving _ => ({ s with stage := .draining (now + h.settings.writeWait) }, (h.run s.connection.leave).2)
  | .draining _ | .finished => (s, h)

/-- The writer has stopped: the session leaves the room, if it has not yet, and is over. -/
def writerStops (s : Session) (h : Hub) : Session × Hub :=
  match s.stage with
  | .serving _ => s.finish (h.run s.connection.leave).2
  | .draining _ => s.finish h
  | .finished => (s, h)

/-- The reader gets an item. After it has stopped, nothing is read. -/
def hear (s : Session) (h : Hub) (now : Instant) (item : Inbound) : Session × Hub :=
  match s.stage with
  | .serving deadline =>
    match Reader.next? h.settings.pongWait now deadline item with
    | none => s.readerStops h now
    | some deadline =>
      let s := { s with stage := .serving deadline }
      match item with
      | .frame (.text text) => (s, (h.run (s.connection.handleText h.settings text)).2)
      | _ => (s, h)
  | .draining _ | .finished => (s, h)

/-- The ping that is due. -/
def ping? (s : Session) (h : Hub) (now : Instant) : Option (SocketFrame × Session × Hub) :=
  if s.writer.tick ≤ now then some (.heartbeat, { s with writer := s.writer.ping h.settings now }, h) else none

/-- What the queue has for the writer. When nothing more can come to it, that is the close frame. -/
def take? (s : Session) (h : Hub) (now : Instant) : Option (SocketFrame × Session × Hub) :=
  match h.registry.receive s.queue with
  | (.frame parcel, registry) =>
    some (.text parcel.text, { s with writer := s.writer.write now (.text parcel.text) }, { h with registry })
  | (.closed, registry) => some (.close, { s with writer := s.writer.write now .close }, { h with registry })
  | (.empty, _) => none

/-- The idle writer begins a write, if a ping is due or the queue has something for it. Where there is both, either may come
first. -/
def begin? (s : Session) (h : Hub) (now : Instant) (pingFirst : Bool) : Option (SocketFrame × Session × Hub) :=
  match s.stage, s.writer.phase with
  | .finished, _ => none
  | _, .idle => if pingFirst then (s.ping? h now).or (s.take? h now) else (s.take? h now).or (s.ping? h now)
  | _, .writing _ _ | _, .ended _ => none

def wrote (s : Session) (h : Hub) (now : Instant) (succeeded : Bool) : Session × Hub :=
  let s := { s with writer := s.writer.wrote h.settings now succeeded }
  if s.writer.hasEnded then s.writerStops h else (s, h)

def due? (s : Session) (h : Hub) : Option Instant :=
  let writing := match s.writer.phase with
    | .idle => some s.writer.tick
    | _ => s.writer.limit? h.settings
  match s.stage with
  | .serving deadline => some (writing.elim deadline (min deadline))
  | .draining limit => some (writing.elim limit (min limit))
  | .finished => none

def expireWrite (s : Session) (h : Hub) (now : Instant) : Session × Hub :=
  match s.stage, s.writer.limit? h.settings with
  | .finished, _ | _, none => (s, h)
  | _, some limit =>
    if limit ≤ now then { s with writer := s.writer.expire h.settings }.writerStops h else (s, h)

def expireStage (s : Session) (h : Hub) (now : Instant) : Session × Hub :=
  match s.stage with
  | .serving deadline => if deadline ≤ now then s.readerStops h now else (s, h)
  | .draining limit => if limit ≤ now then s.finish h else (s, h)
  | .finished => (s, h)

def isOver (s : Session) : Bool :=
  s.stage == .finished

end Session

end HelpDesk
