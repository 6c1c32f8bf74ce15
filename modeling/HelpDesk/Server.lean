import HelpDesk.Http.Routes
import HelpDesk.Socket

/-! The running server: the hub, and the sockets that clients have opened. Time passes from one thing that is
due to the next; between them everything that can go on has gone on. -/

namespace HelpDesk

structure Server where
  hub : Hub
  database : Http.DatabaseHealth := .memory
  now : Instant := 0
  sockets : List Socket := []
  sessions : Nat := 0

namespace Server

def newSession (s : Server) : SessionId × Server :=
  (⟨s.sessions⟩, { s with sessions := s.sessions + 1 })

def eachSocket (act : Socket → Hub → Socket × Hub) : List Socket → Hub → List Socket × Hub
  | [], h => ([], h)
  | socket :: rest, h =>
    let (socket, h) := act socket h
    let (rest, h) := eachSocket act rest h
    (socket :: rest, h)

/-- Lets every writer go on until it has to wait. -/
def settle (s : Server) : Server :=
  let (sockets, hub) := eachSocket (·.settle · s.now) s.sockets s.hub
  { s with sockets, hub }

def expire (s : Server) : Server :=
  let (sockets, hub) := eachSocket (·.expire · s.now) s.sockets s.hub
  { s with sockets, hub }

def due? (s : Server) : Option Instant :=
  (s.sockets.filterMap fun socket => socket.session.due? s.hub).min?

/-- Lets time pass to the instant, from one thing that is due to the next, `fuel` of them at most. -/
def passFor : (fuel : Nat) → Instant → Server → Server
  | 0, target, s => { s with now := max s.now target }
  | fuel + 1, target, s =>
    match s.due? with
    | some due =>
      if due ≤ target then
        passFor fuel target { s with now := max s.now due }.settle.expire.settle
      else { s with now := max s.now target }
    | none => { s with now := max s.now target }

/-- Lets time pass to the instant. What is due at a socket are pings, a write each that may take too long, and the
ends of its two stages. -/
def passTo (s : Server) (target : Instant) : Server :=
  let pings := (target - s.now) / s.hub.settings.pingPeriod + 2
  passFor (s.sockets.length * (2 * pings + 3)) target s

/-- Runs an operation, after which everything that can go on goes on. -/
def run {α : Type} (s : Server) (program : Program α) : α × Server :=
  let (value, hub) := s.hub.run program
  (value, { s with hub }.settle)

/-- Answers a request whose connection cannot become a socket. -/
def request (s : Server) (r : Http.Request) : Http.Answer × Server :=
  match s.run (Http.respond s.database { r with upgradable := false }) with
  | (.answer answer, s) => (answer, s)
  | (.upgrade _ _, s) => (Http.Rejection.notUpgradable.answer, s)

/-- Answers a request for a socket: the number of the socket, if there is one now. -/
def openSocket (s : Server) (r : Http.Request) (capacity : Nat) : Except Http.Answer Nat × Server :=
  match s.run (Http.respond s.database { r with upgradable := true }) with
  | (.answer answer, s) => (.error answer, s)
  | (.upgrade identity room, s) =>
    let (id, s) := s.newSession
    let (session, hub) := Session.enter s.hub s.now ⟨id, identity, room⟩
    let socket : Socket := { session, capacity }
    (.ok s.sockets.length, { s with hub, sockets := s.sockets ++ [socket] }.settle)

def atSocket (s : Server) (n : Nat) (act : Socket → Hub → Socket × Hub) : Server :=
  match s.sockets[n]? with
  | none => s
  | some socket =>
    let (socket, hub) := act socket s.hub
    { s with hub, sockets := s.sockets.set n socket }.settle

def clientSends (s : Server) (n : Nat) (frame : SocketFrame) : Server :=
  s.atSocket n fun socket h => socket.clientSends h s.now frame

def clientLeaves (s : Server) (n : Nat) : Server :=
  s.atSocket n fun socket h => socket.clientLeaves h s.now

/-- A client reads all there is: the frames, and whether it has seen the end. -/
def clientReads (s : Server) (n : Nat) : Option ((List SocketFrame × Bool) × Server) :=
  match s.sockets[n]? with
  | none => none
  | some socket =>
    let (seen, socket, hub) := socket.clientReads s.hub s.now
    some ((seen, socket.clientClosed), { s with hub, sockets := s.sockets.set n socket }.settle)

/-- Takes in texts that a reader got, each at its instant. Texts of the same instant come one right after the other,
before anything else goes on. -/
def hearTexts (s : Server) (c : Connection) : List (Instant × String) → Server
  | [] => s.settle
  | (time, text) :: rest =>
    let s := if s.now < time then s.settle.passTo time else s
    hearTexts { s with hub := (s.hub.run (c.handleText s.hub.settings text)).2 } c rest

/-- Reads items, each so long after the one before, for a connection: how long the reading took. -/
def readAll (s : Server) (c : Connection) (items : List (Span × Inbound)) : Span × Server :=
  let extent := Reader.extent s.hub.settings.pongWait (s.now + s.hub.settings.pongWait) (arrivals s.now items)
  let started := s.now
  let s := (s.hearTexts c extent.texts).passTo extent.ended
  (extent.ended - started, s)
where
  arrivals (now : Instant) : List (Span × Inbound) → List (Instant × Inbound)
    | [] => []
    | (after, item) :: rest => (now + after, item) :: arrivals (now + after) rest

end Server

end HelpDesk
