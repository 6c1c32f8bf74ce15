import HelpDesk.Lifecycle
import HelpDesk.Settings

/-! A party's connection to a room, and what becomes of the texts that it sends. -/

namespace HelpDesk

structure Connection where
  session : SessionId
  identity : Identity
  room : ConversationId
  deriving DecidableEq

inductive Outcome
  /-- stored, and sent to the room -/
  | delivered (message : Message)
  | oversized
  | malformed
  /-- dashboards only listen -/
  | ignored
  | conversationClosed
  | persistFailed
  deriving DecidableEq

namespace Connection

def isDashboard (c : Connection) : Bool :=
  c.room.isDashboard

/-- Tells the sender, and nobody else, that the conversation is closed. -/
def refuse (c : Connection) : Program Outcome := do
  Program.sendTo c.room c.session (.error .conversationClosed)
  return .conversationClosed

/-- Stores a message in a conversation that was just read as `current`. It may have been closed meanwhile. Whether
the message also opens the conversation does not matter to its delivery. -/
def deliver (c : Connection) (current : Conversation) (content : String) : Program Outcome := do
  match ← Program.store (.createMessage (.ofSender c.room c.identity content)) with
  | .error (.closed _) => c.refuse
  | .error _ => return .persistFailed
  | .ok (message : Message) =>
    let _ ← Lifecycle.messageStored current c.identity
    Program.broadcast c.room (.chat (.ofMessage message))
    return .delivered message

/-- Takes in one text: measures it, reads it, stores the message and sends it to the room. -/
def handleText (c : Connection) (settings : Settings) (text : String) : Program Outcome :=
  if settings.maxFrameBytes < text.utf8ByteSize then return .oversized
  else if c.isDashboard then return .ignored
  else match InboundFrame.content? text with
  | none => return .malformed
  | some content => do
    match ← Program.store (.get c.room) with
    | .error _ => return .persistFailed
    | .ok (current : Conversation) =>
      match Lifecycle.ensureAccepts current with
      | .error _ => c.refuse
      | .ok () => c.deliver current content

/-- What a connection does once it is in its room. Its failure does not end the connection. -/
def afterJoin (c : Connection) : Program Unit :=
  if c.isDashboard then do
    let _ ← Dashboard.sendSnapshot c.session
  else do
    let _ ← Lifecycle.memberJoined c.room c.identity

/-- Enters the room with a new queue. A dashboard holds what is announced until it has its snapshot. -/
def enter (c : Connection) (settings : Settings) : Program QueueId := do
  let queue ← Program.ask (.join c.room c.session c.identity settings.queueCapacity c.isDashboard) .done
  c.afterJoin
  return queue

def leave (c : Connection) : Program Unit :=
  Program.rooms (.leave c.room c.session)

end Connection

end HelpDesk
