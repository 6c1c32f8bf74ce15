import HelpDesk.Message
import HelpDesk.Store.Error

/-! The stored conversations and messages, in the order of their creation. Every operation is one step: it
either fails and leaves the store as it was, or takes it to the next state. The caller supplies what the clock
shows and the identifiers of what is created. -/

namespace HelpDesk

structure Store where
  conversations : List Conversation := []
  messages : List Message := []

inductive Start
  | created (conversation : Conversation) (opening : Message)
  | alreadyOpen (conversation : Conversation)
  deriving DecidableEq

namespace Store

def get? (s : Store) (id : ConversationId) : Option Conversation :=
  s.conversations.find? (·.id == id)

def get (s : Store) (id : ConversationId) : Except StoreError Conversation :=
  match s.get? id with
  | some c => .ok c
  | none => .error (.notFound id)

def activeOf (s : Store) (owner : UserId) : List Conversation :=
  s.conversations.filter fun c => c.isActive && c.isOwnedBy owner

/-- The owner's conversation that is not closed: the newest, if there were several. -/
def findActive (s : Store) (owner : UserId) : Option Conversation :=
  (s.activeOf owner).maxOn? (·.createdAt.nanos)

/-- The messages of a conversation, in the order in which they were sent. -/
def history (s : Store) (id : ConversationId) : List Message :=
  s.messages.filter (·.conversation == id)

def append (s : Store) (now : Moment) (id : MessageId) (draft : Draft) : Message × Store :=
  let message : Message :=
    ⟨id, draft.conversation, draft.sender, draft.content, draft.isSystem, draft.isAdmin, now⟩
  (message, { s with messages := s.messages ++ [message] })

def createMessage (s : Store) (now : Moment) (id : MessageId) (draft : Draft) : Except StoreError (Message × Store) :=
  match s.get? draft.conversation with
  | none => .error (.notFound draft.conversation)
  | some c => if c.status.isFinal then .error (.closed c.id) else .ok (s.append now id draft)

/-- Replaces the conversation that has the same identifier. -/
def put (s : Store) (c : Conversation) : Store :=
  { s with conversations := s.conversations.map fun d => if d.id == c.id then c else d }

theorem get?_put_self {s : Store} {c : Conversation} (present : (s.get? c.id).isSome) :
    (s.put c).get? c.id = some c := by
  simp only [get?, put] at *
  generalize s.conversations = stored at *
  induction stored with
  | nil => cases present
  | cons d rest ih =>
    by_cases same : d.id = c.id
    · simp [same]
    · simp only [List.map_cons, List.find?_cons, beq_eq_false_iff_ne.mpr same, Bool.false_eq_true, if_false] at present ⊢
      exact ih present

theorem get?_put_of_ne (s : Store) {c : Conversation} {id : ConversationId} (different : id ≠ c.id) :
    (s.put c).get? id = s.get? id := by
  simp only [get?, put]
  induction s.conversations with
  | nil => rfl
  | cons d rest ih => by_cases same : d.id = c.id <;> simp_all [List.find?_cons, different.symm]

/-- Moves a conversation to a status that may follow its own. An assignee is recorded if one is given. -/
def setStatus (s : Store) (now : Moment) (id : ConversationId) (status : Status) (assignee : Option UserId) :
    Except StoreError (Conversation × Store) :=
  match s.get? id with
  | none => .error (.notFound id)
  | some c =>
    if c.status.canBecome status then
      let moved := { c with status, assignee := assignee <|> c.assignee, updatedAt := now }
      .ok (moved, s.put moved)
    else .error (.invalidTransition c.status status)

/-- Creates a pending conversation with its opening message, unless the starter has one that is not closed. The
clock is read for the conversation, and again for the message. -/
def start (s : Store) (now sent : Moment) (id : ConversationId) (opening : MessageId)
    (starter : Identity) (label content : String) : Start × Store :=
  match s.findActive starter.user with
  | some c => (.alreadyOpen c, s)
  | none =>
    let c : Conversation :=
      { id, owner := starter.user, assignee := none, label, status := .pending, createdAt := now, updatedAt := now }
    let (message, s) := { s with conversations := s.conversations ++ [c] }.append sent opening
      (.ofSender id starter content)
    (.created c message, s)

def listActive (s : Store) : List Conversation :=
  (s.conversations.filter (·.isActive)).mergeSort fun a b => b.updatedAt.nanos ≤ a.updatedAt.nanos

/-- A page of a conversation's messages. Negative numbers count as zero. -/
def listMessages (s : Store) (id : ConversationId) (limit offset : Int) : Except StoreError (List Message) :=
  match s.get? id with
  | none => .error (.notFound id)
  | some _ => .ok (((s.history id).drop offset.toNat).take limit.toNat)

inductive Call
  | createMessage (draft : Draft)
  | get (id : ConversationId)
  | setStatus (id : ConversationId) (status : Status) (assignee : Option UserId)
  | findActive (owner : UserId)
  | start (starter : Identity) (label content : String)
  | listActive
  | listMessages (id : ConversationId) (limit offset : Int)

inductive Method
  | createMessage
  | get
  | setStatus
  | findActive
  | start
  | listActive
  | listMessages
  deriving DecidableEq, Repr

namespace Call

def Answer : Call → Type
  | createMessage _ => Message
  | get _ => Conversation
  | setStatus _ _ _ => Conversation
  | findActive _ => Option Conversation
  | start _ _ _ => Start
  | listActive => List Conversation
  | listMessages _ _ _ => List Message

def method : Call → Method
  | createMessage _ => .createMessage
  | get _ => .get
  | setStatus _ _ _ => .setStatus
  | findActive _ => .findActive
  | start _ _ _ => .start
  | listActive => .listActive
  | listMessages _ _ _ => .listMessages

/-- The conversation that a request names; the identifier of zeros if it names none. -/
def subject : Call → ConversationId
  | createMessage draft => draft.conversation
  | get id => id
  | setStatus id _ _ => id
  | findActive _ => .dashboard
  | start _ _ _ => .dashboard
  | listActive => .dashboard
  | listMessages id _ _ => id

end Call

/-- How many identifiers a request may use up. -/
def Call.creates : Call → Nat
  | createMessage _ => 1
  | start _ _ _ => 2
  | get _ | setStatus _ _ _ | findActive _ | listActive | listMessages _ _ _ => 0

/-- Carries out a request, with what the clock shows each time it is read and with identifiers that nothing has yet. -/
def perform (s : Store) (clock : Nat → Moment) (fresh : Nat → Uuid) :
    (call : Call) → Except StoreError (call.Answer × Store)
  | .createMessage draft => s.createMessage (clock 0) ⟨fresh 0⟩ draft
  | .get id => (s.get id).map (·, s)
  | .setStatus id status assignee => s.setStatus (clock 0) id status assignee
  | .findActive owner => .ok (s.findActive owner, s)
  | .start starter label content => .ok (s.start (clock 0) (clock 1) ⟨fresh 0⟩ ⟨fresh 1⟩ starter label content)
  | .listActive => .ok (s.listActive, s)
  | .listMessages id limit offset => (s.listMessages id limit offset).map (·, s)

end Store

end HelpDesk
