import HelpDesk.Conversation

/-! Rooms and their members. Every member has a queue of bounded length that only the registry fills; a frame
is never waited for, so a member whose queue is full, or whose receiver is gone, is removed. Removing a
member ends its queue: what waits in it can still be received, and then it is found closed.

A member may join holding. Frames offered to it are then parked until it is released, and a frame given
at its release goes ahead of them. -/

namespace HelpDesk

structure SessionId where
  number : Nat
  deriving DecidableEq

/-- A queue of the registry, numbered in the order of their creation. -/
structure QueueId where
  number : Nat
  deriving DecidableEq

structure Queue (φ : Type) where
  capacity : Nat
  waiting : List φ
  /-- does the registry still hold the sending end? -/
  sending : Bool
  /-- does the receiver still hold the other one? -/
  receiving : Bool
  deriving DecidableEq

structure Member (φ : Type) where
  session : SessionId
  identity : Identity
  queue : QueueId
  /-- the parked frames of a holding member, in order -/
  held : Option (List φ)
  deriving DecidableEq

structure Room (φ : Type) where
  id : ConversationId
  members : List (Member φ)
  deriving DecidableEq

structure Registry (φ : Type) where
  rooms : List (Room φ) := []
  queues : List (Queue φ) := []

inductive Received (φ : Type)
  | frame (frame : φ)
  /-- nothing yet -/
  | empty
  /-- nothing, and nothing to come -/
  | closed

namespace Queue
variable {φ : Type}

/-- Adds a frame, if there is room for it and somebody to receive it. -/
def push? (q : Queue φ) (frame : φ) : Option (Queue φ) :=
  if q.sending && q.receiving && decide (q.waiting.length < q.capacity) then
    some { q with waiting := q.waiting ++ [frame] }
  else none

def endSending (q : Queue φ) : Queue φ :=
  { q with sending := false }

/-- Without a receiver, what waits is lost. -/
def endReceiving (q : Queue φ) : Queue φ :=
  { q with waiting := [], receiving := false }

def receive (q : Queue φ) : Received φ × Queue φ :=
  match q.waiting with
  | frame :: rest => (.frame frame, { q with waiting := rest })
  | [] => (if q.sending then .empty else .closed, q)

end Queue

namespace Registry
variable {φ : Type}

def queue? (r : Registry φ) (id : QueueId) : Option (Queue φ) :=
  r.queues[id.number]?

def modifyQueue (r : Registry φ) (id : QueueId) (f : Queue φ → Queue φ) : Registry φ :=
  { r with queues := r.queues.modify id.number f }

def newQueue (r : Registry φ) (capacity : Nat) : QueueId × Registry φ :=
  (⟨r.queues.length⟩, { r with queues := r.queues ++ [⟨capacity, [], true, true⟩] })

/-- The members of a room; a room that nobody is in has none. -/
def members (r : Registry φ) (room : ConversationId) : List (Member φ) :=
  match r.rooms.find? (·.id == room) with
  | some found => found.members
  | none => []

def member? (r : Registry φ) (room : ConversationId) (session : SessionId) : Option (Member φ) :=
  (r.members room).find? (·.session == session)

/-- Gives a room the members, and forgets a room that nobody is in. -/
def setMembers (r : Registry φ) (room : ConversationId) (members : List (Member φ)) : Registry φ :=
  let others := r.rooms.filter (·.id != room)
  { r with rooms := if members.isEmpty then others else others ++ [⟨room, members⟩] }

@[simp] theorem members_setMembers_self (r : Registry φ) (room : ConversationId) (members : List (Member φ)) :
    (r.setMembers room members).members room = members := by
  have absent : (r.rooms.filter (·.id != room)).find? (·.id == room) = none := by
    simp [List.find?_eq_none]
  by_cases vacant : members.isEmpty
  · simp [setMembers, Registry.members, absent, List.isEmpty_iff.mp vacant]
  · simp [setMembers, Registry.members, vacant, List.find?_append, absent]

theorem members_setMembers_of_ne (r : Registry φ) {room other : ConversationId} (members : List (Member φ))
    (different : other ≠ room) : (r.setMembers room members).members other = r.members other := by
  have kept : (r.rooms.filter (·.id != room)).find? (·.id == other) = r.rooms.find? (·.id == other) := by
    rw [List.find?_filter]
    congr 1
    funext found
    by_cases same : found.id = other <;> simp_all
  by_cases vacant : members.isEmpty
  · simp only [setMembers, Registry.members, vacant, if_true, kept]
  · simp [setMembers, Registry.members, vacant, List.find?_append, kept, different.symm]

def roomSize (r : Registry φ) (room : ConversationId) : Nat :=
  (r.members room).length

def roomCount (r : Registry φ) : Nat :=
  r.rooms.length

/-- Offers a frame to a member: parks it if the member is holding, else queues it. None if there is no room
for it, or nobody to receive it. -/
def offer? (queues : List (Queue φ)) (m : Member φ) (frame : φ) : Option (Member φ × List (Queue φ)) :=
  match queues[m.queue.number]? with
  | none => none
  | some q =>
    match m.held with
    | some held =>
      if held.length < q.capacity then some ({ m with held := some (held ++ [frame]) }, queues) else none
    | none => (q.push? frame).map fun q => (m, queues.set m.queue.number q)

/-- Adds a member with a new queue. A session that is in the room already stays as it is, and the new
queue is closed at once. -/
def join (r : Registry φ) (room : ConversationId) (session : SessionId) (identity : Identity)
    (capacity : Nat) (holding : Bool) : QueueId × Registry φ :=
  let (queue, r) := r.newQueue capacity
  match r.member? room session with
  | some _ => (queue, r.modifyQueue queue .endSending)
  | none =>
    let member : Member φ := ⟨session, identity, queue, if holding then some [] else none⟩
    (queue, r.setMembers room (r.members room ++ [member]))

def leave (r : Registry φ) (room : ConversationId) (session : SessionId) : Registry φ :=
  match r.member? room session with
  | none => r
  | some m =>
    (r.setMembers room ((r.members room).filter (·.session != session))).modifyQueue m.queue .endSending

/-- Offers a frame to each of the members in turn. The result has those who took it. -/
def offerAll (frame : φ) : List (Queue φ) → List (Member φ) → List (Member φ) × List (Queue φ)
  | queues, [] => ([], queues)
  | queues, m :: ms =>
    match offer? queues m frame with
    | some (m, queues) =>
      let (ms, queues) := offerAll frame queues ms
      (m :: ms, queues)
    | none => offerAll frame (queues.modify m.queue.number .endSending) ms

/-- Offers a frame to everybody in a room. Those who cannot take it are removed. -/
def broadcast (r : Registry φ) (room : ConversationId) (frame : φ) : Registry φ :=
  let (members, queues) := offerAll frame r.queues (r.members room)
  { r with queues }.setMembers room members

def putMember (r : Registry φ) (room : ConversationId) (m : Member φ) : Registry φ :=
  r.setMembers room ((r.members room).map fun n => if n.session == m.session then m else n)

/-- Offers a frame to one member, and removes it if it cannot take the frame. -/
def sendTo (r : Registry φ) (room : ConversationId) (session : SessionId) (frame : φ) : Registry φ :=
  match r.member? room session with
  | none => r
  | some m =>
    match offer? r.queues m frame with
    | some (m, queues) => { r with queues }.putMember room m
    | none => r.leave room session

/-- Offers frames until one is not taken. False if that happened. -/
def offerEach (m : Member φ) : List (Queue φ) → List φ → Bool × List (Queue φ)
  | queues, [] => (true, queues)
  | queues, frame :: frames =>
    match offer? queues m frame with
    | some (_, queues) => offerEach m queues frames
    | none => (false, queues)

/-- Ends a member's holding: the lead frame is queued, then what was parked. A member that cannot take all
of it is removed. -/
def release (r : Registry φ) (room : ConversationId) (session : SessionId) (lead : Option φ) : Registry φ :=
  match r.member? room session with
  | none => r
  | some m =>
    let released := { m with held := none }
    let (taken, queues) := offerEach released r.queues (lead.toList ++ m.held.getD [])
    let r := { r with queues }.putMember room released
    if taken then r else r.leave room session

def receive (r : Registry φ) (id : QueueId) : Received φ × Registry φ :=
  match r.queue? id with
  | none => (.closed, r)
  | some q =>
    let (received, q) := q.receive
    (received, { r with queues := r.queues.set id.number q })

/-- Takes frames until so many are taken or there is none: the frames, and whether the queue was found closed. -/
def receiveUpTo : (count : Nat) → Registry φ → QueueId → (List φ × Bool) × Registry φ
  | 0, r, _ => (([], false), r)
  | count + 1, r, id =>
    match r.receive id with
    | (.frame frame, r) =>
      let ((frames, closed), r) := receiveUpTo count r id
      ((frame :: frames, closed), r)
    | (.empty, r) => (([], false), r)
    | (.closed, r) => (([], true), r)

def endReceiving (r : Registry φ) (id : QueueId) : Registry φ :=
  r.modifyQueue id .endReceiving

/-- A request to the registry that changes it. -/
inductive Command (φ : Type)
  | leave (room : ConversationId) (session : SessionId)
  | broadcast (room : ConversationId) (frame : φ)
  | sendTo (room : ConversationId) (session : SessionId) (frame : φ)
  | release (room : ConversationId) (session : SessionId) (lead : Option φ)

def apply (r : Registry φ) : Command φ → Registry φ
  | .leave room session => r.leave room session
  | .broadcast room frame => r.broadcast room frame
  | .sendTo room session frame => r.sendTo room session frame
  | .release room session lead => r.release room session lead

end Registry

end HelpDesk
