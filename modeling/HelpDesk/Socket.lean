import HelpDesk.Socket.Session

/-! A session's socket: a pipe of bounded size to the client. A write is over when all that was written is in the
pipe; the client reads everything there is, answers each ping it finds with a pong, and sends frames of its own. -/

namespace HelpDesk

structure Socket where
  session : Session
  capacity : Nat
  /-- the frames written and not yet read by the client, in order -/
  sent : List SocketFrame := []
  /-- has the server read the client's close frame? Then it writes no more. -/
  hungUp : Bool := false
  gone : Bool := false
  clientClosing : Bool := false
  clientClosed : Bool := false
  /-- does the ping come first where one is due and the queue has something, too? -/
  pingFirst : Bool := true

namespace Socket

def totalSize (frames : List SocketFrame) : Nat :=
  frames.foldr (fun frame total => frame.size + total) 0

/-- The frames that are in the pipe as a whole when it holds so many bytes. -/
def fitting : (capacity : Nat) → List SocketFrame → List SocketFrame
  | _, [] => []
  | capacity, frame :: rest =>
    if frame.size ≤ capacity then frame :: fitting (capacity - frame.size) rest else []

def isFlushed (s : Socket) : Bool :=
  totalSize s.sent ≤ s.capacity

/-- Takes over what a session has become. When it is over, what is not in the pipe is lost. -/
def withSession (s : Socket) (session : Session) : Socket :=
  { s with session, sent := if session.isOver then fitting s.capacity s.sent else s.sent }

/-- The end of a write, if one is going on and can end now: it succeeds when everything is in the pipe, and fails
when the client is gone. -/
def endWrite? (s : Socket) (h : Hub) (now : Instant) : Option (Socket × Hub) :=
  match s.session.stage, s.session.writer.phase with
  | .finished, _ => none
  | _, .writing _ _ =>
    if s.gone then
      let (session, h) := s.session.wrote h now false
      some (s.withSession session, h)
    else if s.isFlushed then
      let (session, h) := s.session.wrote h now true
      some (s.withSession session, h)
    else none
  | _, _ => none

/-- The beginning of a write, if there is anything to write. It fails at once when the client has hung up or is gone. -/
def beginWrite? (s : Socket) (h : Hub) (now : Instant) : Option (Socket × Hub) :=
  match s.session.begin? h now s.pingFirst with
  | none => none
  | some (frame, session, h) =>
    if s.gone || s.hungUp then
      let (session, h) := session.wrote h now false
      some (s.withSession session, h)
    else some ({ s with session, sent := s.sent ++ [frame] }, h)

def turn? (s : Socket) (h : Hub) (now : Instant) : Option (Socket × Hub) :=
  (s.endWrite? h now).or (s.beginWrite? h now)

/-- Lets the writer go on, `fuel` turns at most, until it has to wait. -/
def settleFor : (fuel : Nat) → Socket → Hub → Instant → Socket × Hub
  | 0, s, h, _ => (s, h)
  | fuel + 1, s, h, now =>
    match s.turn? h now with
    | some (s, h) => settleFor fuel s h now
    | none => (s, h)

def backlog (s : Socket) (h : Hub) : Nat :=
  ((h.registry.queue? s.session.queue).map (·.waiting.length)).getD 0

/-- Lets the writer go on until it has to wait. Each frame of the queue, a ping and the close frame take a turn to
begin and one to end. -/
def settle (s : Socket) (h : Hub) (now : Instant) : Socket × Hub :=
  settleFor (2 * s.backlog h + 6) s h now

def expire (s : Socket) (h : Hub) (now : Instant) : Socket × Hub :=
  let (session, h) := s.session.expireWrite h now
  let (session, h) := session.expireStage h now
  (s.withSession session, h)

def hear (s : Socket) (h : Hub) (now : Instant) (item : Inbound) : Socket × Hub :=
  let (session, h) := s.session.hear h now item
  (s.withSession session, h)

/-- A ping or a pong may not be longer than this. -/
def maxControlBytes : Nat := 125

/-- How long the protocol lets a message be, and how long one frame: two limits, and what breaks either ends the socket. -/
structure Limits where
  message : Nat
  frame : Nat
  deriving DecidableEq, Repr

/-- The longest frame that the protocol takes unless it is told another length, 16 MiB. -/
def defaultFrameBytes : Nat := 16777216

/-- An upgrade sets the limit of messages and leaves the one of frames as it is. -/
def Limits.of (settings : Settings) : Limits where
  message := settings.maxMessageBytes
  frame := defaultFrameBytes

/-- How a frame of the client reaches the reader: one that is too long breaks the rules. A frame with a text or with bytes is
a message too. -/
def inbound (limits : Limits) (frame : SocketFrame) : Inbound :=
  match frame with
  | .text _ | .binary _ =>
    if limits.frame < frame.contentSize || limits.message < frame.contentSize then .failure else .frame frame
  | .ping _ | .pong _ => if maxControlBytes < frame.contentSize then .failure else .frame frame
  | .close => .frame .close

def isServing (s : Socket) : Bool :=
  match s.session.stage with
  | .serving _ => true
  | _ => false

/-- The server receives a frame. A ping is answered with a pong of the same content. -/
def receive (s : Socket) (h : Hub) (now : Instant) (frame : SocketFrame) : Socket × Hub :=
  if s.isServing then
    let item := inbound (.of h.settings) frame
    let s := match item with
      | .frame (.ping bytes) => { s with sent := s.sent ++ [SocketFrame.pong bytes] }
      | .frame .close => { s with hungUp := true }
      | _ => s
    s.hear h now item
  else (s, h)

/-- The client sends a frame. After its close frame, or the end, nothing is sent. -/
def clientSends (s : Socket) (h : Hub) (now : Instant) (frame : SocketFrame) : Socket × Hub :=
  if s.clientClosing || s.clientClosed then (s, h)
  else { s with clientClosing := frame == SocketFrame.close }.receive h now frame

def clientLeaves (s : Socket) (h : Hub) (now : Instant) : Socket × Hub :=
  { s with gone := true, clientClosed := true, sent := [] }.hear h now .finish

def isPing : SocketFrame → Bool
  | .ping _ => true
  | _ => false

/-- The frames up to the first one that the client answers. -/
def upToPing : List SocketFrame → List SocketFrame
  | [] => []
  | frame :: rest => if isPing frame then [frame] else frame :: upToPing rest

/-- The client reads the frames that are there. It answers a ping before it reads on, so a ping that nobody is left to
hear the answer to is the last that it reads. -/
def takeSent (s : Socket) (h : Hub) (now : Instant) : List SocketFrame × Socket × Hub :=
  let frames := s.sent
  let s := { s with sent := [] }
  if s.clientClosing || !frames.any isPing then (frames, s, h)
  else if s.session.isOver then (upToPing frames, s, h)
  else (frames, s.receive h now (SocketFrame.pong []))

/-- The client reads up to the end, `fuel` times at most, as reading makes room for more. -/
def drainFor : (fuel : Nat) → Socket → Hub → Instant → List SocketFrame → List SocketFrame × Socket × Hub
  | 0, s, h, _, seen => (seen, s, h)
  | fuel + 1, s, h, now, seen =>
    let (frames, s, h) := s.takeSent h now
    let (s, h) := s.settle h now
    if s.sent.isEmpty then (seen ++ frames, s, h) else drainFor fuel s h now (seen ++ frames)

/-- The client reads all there is. It sees the end when the server has closed or dropped the socket. -/
def clientReads (s : Socket) (h : Hub) (now : Instant) : List SocketFrame × Socket × Hub :=
  if s.clientClosed then ([], s, h)
  else
    let (seen, s, h) := drainFor (s.backlog h + 4) s h now []
    let closed := seen.contains SocketFrame.close || s.session.isOver
    (seen.filter (· != SocketFrame.close), { s with clientClosed := closed }, h)

end Socket

end HelpDesk
