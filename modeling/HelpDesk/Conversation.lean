import HelpDesk.Identity
import HelpDesk.Status

/-! Conversations between a user and the staff, as they are stored and as they are shown. -/

namespace HelpDesk
open Json

structure ConversationId where
  uuid : Uuid
  deriving DecidableEq, Hashable

namespace ConversationId

/-- The room of the dashboards. No stored conversation has this identifier. -/
def dashboard : ConversationId := ⟨Uuid.nil⟩

def isDashboard (id : ConversationId) : Bool :=
  id == dashboard

def codec : Codec ConversationId :=
  Codec.uuid.map uuid mk

instance : ToString ConversationId := ⟨fun id => id.uuid.toString⟩

end ConversationId

structure Conversation where
  id : ConversationId
  owner : UserId
  /-- the member of staff who opened it -/
  assignee : Option UserId
  label : String
  status : Status
  createdAt : Moment
  updatedAt : Moment
  deriving DecidableEq

namespace Conversation

def isOwnedBy (c : Conversation) (user : UserId) : Bool :=
  c.owner == user

/-- Not closed. -/
def isActive (c : Conversation) : Bool :=
  !c.status.isFinal

def defaultLabel : String := "New Chat"

def codec : Codec Conversation :=
  (Codec.record
    (.cons "id" ConversationId.codec .never
    (.cons "owner_id" UserId.codec .never
    (.cons "assigned_admin_id" UserId.codec.optional .inObject
    (.cons "label" Codec.text .never
    (.cons "status" Status.codec .never
    (.cons "created_at" Codec.moment .never
    (.cons "updated_at" Codec.moment .never .nil)))))))).map
    (fun c => (c.id, c.owner, c.assignee, c.label, c.status, c.createdAt, c.updatedAt, ()))
    (fun (id, owner, assignee, label, status, createdAt, updatedAt, ()) =>
      ⟨id, owner, assignee, label, status, createdAt, updatedAt⟩)

end Conversation

end HelpDesk
