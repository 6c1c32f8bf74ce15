import HelpDesk.Registry

/-! Runs of a registry: requests, receives and receivers that go away, in any order; and what they look like to one
member, who has a place of its own: a room, a session and a queue. -/

namespace HelpDesk.Registry
variable {φ : Type}

inductive Event (φ : Type)
  | join (room : ConversationId) (session : SessionId) (identity : Identity) (capacity : Nat) (holding : Bool)
  | command (command : Command φ)
  | receive (queue : QueueId)
  | endReceiving (queue : QueueId)

def next (r : Registry φ) : Event φ → Registry φ
  | .join room session identity capacity holding => (r.join room session identity capacity holding).2
  | .command command => r.apply command
  | .receive queue => (r.receive queue).2
  | .endReceiving queue => r.endReceiving queue

def after (r : Registry φ) (es : List (Event φ)) : Registry φ :=
  es.foldl next r

@[simp] theorem after_nil (r : Registry φ) : r.after [] = r := rfl

@[simp] theorem after_cons (r : Registry φ) (e : Event φ) (es : List (Event φ)) :
    r.after (e :: es) = (r.next e).after es := rfl

theorem after_append (r : Registry φ) (first last : List (Event φ)) :
    r.after (first ++ last) = (r.after first).after last :=
  List.foldl_append

def waiting (r : Registry φ) (queue : QueueId) : List φ :=
  (r.queue? queue).elim [] Queue.waiting

/-- The frames that an event puts on a queue: those by which the queue gets longer. -/
def added (r : Registry φ) (queue : QueueId) (e : Event φ) : List φ :=
  ((r.next e).waiting queue).drop (r.waiting queue).length

def put (queue : QueueId) : Registry φ → List (Event φ) → List φ
  | _, [] => []
  | r, e :: es => r.added queue e ++ put queue (r.next e) es

/-- The frame that an event takes from a queue, if any. -/
def taken (r : Registry φ) (queue : QueueId) : Event φ → List φ
  | .receive other => if other = queue then (r.waiting queue).take 1 else []
  | _ => []

/-- The frames that the receiver of a queue obtains in a run. -/
def received (queue : QueueId) : Registry φ → List (Event φ) → List φ
  | _, [] => []
  | r, e :: es => r.taken queue e ++ received queue (r.next e) es

structure Place where
  room : ConversationId
  session : SessionId
  queue : QueueId

/-- Whoever joined there is a member still. -/
def Sits (r : Registry φ) (p : Place) : Prop :=
  ∃ m ∈ r.members p.room, m.session = p.session ∧ m.queue = p.queue

/-- The frame that an event offers to the member: one for its room or for its session, or the lead at its release. -/
def Event.offered (p : Place) : Event φ → List φ
  | .command (.broadcast room frame) => if room = p.room then [frame] else []
  | .command (.sendTo room session frame) => if room = p.room ∧ session = p.session then [frame] else []
  | .command (.release room session lead) => if room = p.room ∧ session = p.session then lead.toList else []
  | _ => []

section Offered
variable {p : Place} {frame offered : φ} {room : ConversationId} {session : SessionId}

theorem mem_offered_broadcast :
    offered ∈ (Event.command (.broadcast room frame)).offered p ↔ room = p.room ∧ offered = frame := by
  simp [Event.offered]

theorem mem_offered_sendTo : offered ∈ (Event.command (.sendTo room session frame)).offered p ↔
    (room = p.room ∧ session = p.session) ∧ offered = frame := by
  simp [Event.offered]

theorem mem_offered_release {lead : Option φ} : offered ∈ (Event.command (.release room session lead)).offered p ↔
    (room = p.room ∧ session = p.session) ∧ lead = some offered := by
  simp [Event.offered]

end Offered

/-- The lead of the member's release, if the event is one. -/
def Event.release? (p : Place) : Event φ → Option (Option φ)
  | .command (.release room session lead) => if room = p.room ∧ session = p.session then some lead else none
  | _ => none

/-- The frames that are due to a member in a run: all that it is offered, in order. To a member that holds, with frames
parked already, nothing is due before its release; then it is the lead, what was parked, and what is offered later. -/
def due (p : Place) : Option (List φ) → List (Event φ) → List φ
  | none, es => es.flatMap (·.offered p)
  | some _, [] => []
  | some parked, e :: es =>
    match e.release? p with
    | some lead => lead.toList ++ parked ++ es.flatMap (·.offered p)
    | none => due p (some (parked ++ e.offered p)) es

end HelpDesk.Registry
