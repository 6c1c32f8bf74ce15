import HelpDesk.Conversation

/-! The messages of a conversation, as they are stored, and as their senders write them. -/

namespace HelpDesk
open Json

structure MessageId where
  uuid : Uuid
  deriving DecidableEq, Hashable

def MessageId.codec : Codec MessageId :=
  Codec.uuid.map uuid mk

structure Message where
  id : MessageId
  conversation : ConversationId
  sender : UserId
  content : String
  isSystem : Bool
  isAdmin : Bool
  createdAt : Moment
  deriving DecidableEq

def Message.codec : Codec Message :=
  (Codec.record
    (.cons "id" MessageId.codec .never
    (.cons "conversation_id" ConversationId.codec .never
    (.cons "sender_id" UserId.codec .never
    (.cons "content" Codec.text .never
    (.cons "is_system" Codec.flag .never
    (.cons "is_admin" Codec.flag .never
    (.cons "created_at" Codec.moment .never .nil)))))))).map
    (fun m => (m.id, m.conversation, m.sender, m.content, m.isSystem, m.isAdmin, m.createdAt, ()))
    (fun (id, conversation, sender, content, isSystem, isAdmin, createdAt, ()) =>
      ⟨id, conversation, sender, content, isSystem, isAdmin, createdAt⟩)

/-- A message that the store has yet to number and date. -/
structure Draft where
  conversation : ConversationId
  sender : UserId
  content : String
  isSystem : Bool
  isAdmin : Bool
  deriving DecidableEq

/-- The message of a party. Its flags are those of the sender's role. -/
def Draft.ofSender (conversation : ConversationId) (sender : Identity) (content : String) : Draft where
  conversation := conversation
  sender := sender.user
  content := content
  isSystem := sender.role.isSystem
  isAdmin := sender.role.isAdmin

end HelpDesk
