import HelpDesk.Message
import HelpDesk.Text.Blank

/-! The texts that go over a socket: messages and errors to the members of a conversation, summaries
to the dashboards, and the one kind of text that clients send. -/

namespace HelpDesk
open Json

structure ChatFrame where
  content : String
  sender : UserId
  createdAt : Moment
  isSystem : Bool
  deriving DecidableEq

namespace ChatFrame

def ofMessage (m : Message) : ChatFrame :=
  ⟨m.content, m.sender, m.createdAt, m.isSystem⟩

def codec : Codec ChatFrame :=
  (Codec.record
    (.cons "content" Codec.text .never
    (.cons "sender_id" UserId.codec .never
    (.cons "created_at" Codec.moment .never
    (.cons "is_system" Codec.flag .never .nil))))).map
    (fun f => (f.content, f.sender, f.createdAt, f.isSystem, ()))
    (fun (content, sender, createdAt, isSystem, ()) => ⟨content, sender, createdAt, isSystem⟩)

end ChatFrame

structure Summary where
  conversation : ConversationId
  owner : UserId
  status : Status
  updatedAt : Moment
  deriving DecidableEq

namespace Summary

def ofConversation (c : Conversation) : Summary :=
  ⟨c.id, c.owner, c.status, c.updatedAt⟩

def codec : Codec Summary :=
  (Codec.record
    (.cons "conversation_id" ConversationId.codec .never
    (.cons "owner_id" UserId.codec .never
    (.cons "status" Status.codec .never
    (.cons "updated_at" Codec.moment .never .nil))))).map
    (fun s => (s.conversation, s.owner, s.status, s.updatedAt, ()))
    (fun (conversation, owner, status, updatedAt, ()) => ⟨conversation, owner, status, updatedAt⟩)

end Summary

structure ErrorFrame where
  error : String
  deriving DecidableEq

namespace ErrorFrame

def codec : Codec ErrorFrame :=
  (Codec.record (.cons "error" Codec.text .never .nil)).map (fun f => (f.error, ())) (fun (error, ()) => ⟨error⟩)

def conversationClosed : ErrorFrame := ⟨"conversation is closed"⟩

end ErrorFrame

inductive Frame
  | chat (frame : ChatFrame)
  | summaries (list : List Summary)
  | error (frame : ErrorFrame)
  /-- a text of unknown meaning -/
  | plain (text : String)
  deriving DecidableEq

/-- The text of a frame. There is none where a year has more than four digits. -/
def Frame.encode? : Frame → Option String
  | chat frame => ChatFrame.codec.encode? frame
  | summaries list => Summary.codec.list.encode? list
  | error frame => ErrorFrame.codec.encode? frame
  | plain text => some text

/-- A frame with its text, as it waits in a queue. -/
structure Parcel where
  frame : Frame
  text : String
  encoded : frame.encode? = some text
  deriving DecidableEq

/-- A frame ready to be queued, if it has a text. -/
def Frame.pack? (frame : Frame) : Option Parcel :=
  match h : frame.encode? with
  | some text => some ⟨frame, text, h⟩
  | none => none

structure InboundFrame where
  content : String
  deriving DecidableEq

namespace InboundFrame

def codec : Codec InboundFrame :=
  (Codec.record (.cons "content" Codec.text .never .nil)).map (fun f => (f.content, ())) (fun (content, ()) => ⟨content⟩)

/-- The trimmed content of an inbound text, if it is well formed and not blank. -/
def content? (text : String) : Option String :=
  (codec.decode? text).bind fun frame =>
    let content := Text.trim frame.content
    if content.isEmpty then none else some content

end InboundFrame

end HelpDesk
