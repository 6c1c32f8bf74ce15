import HelpDesk.Json.Codec
import HelpDesk.Text.LowerCase

/-! Who takes part: users, their roles, and what each role may do. -/

namespace HelpDesk
open Json

structure UserId where
  uuid : Uuid
  deriving DecidableEq, Hashable

inductive Role
  | user
  | guest
  | admin
  | superadmin
  | system
  deriving DecidableEq, Repr

namespace Role

/-- Human support staff. -/
def isAdmin : Role → Bool
  | admin | superadmin => true
  | user | guest | system => false

/-- Traffic that no person wrote. -/
def isSystem : Role → Bool
  | system => true
  | user | guest | admin | superadmin => false

/-- Roles whose presence or first message opens a pending conversation, and who see every conversation. -/
def opensConversations : Role → Bool
  | admin | superadmin | system => true
  | user | guest => false

def toString : Role → String
  | user => "user"
  | guest => "guest"
  | admin => "admin"
  | superadmin => "superadmin"
  | system => "system"

def ofName? (s : String) : Option Role :=
  [user, guest, admin, superadmin, system].find? (·.toString == s)

def ofString? (s : String) : Option Role :=
  ofName? (Text.lowerCase s)

def unknownMessage (s : String) : String :=
  "Invalid role: " ++ s

instance : ToString Role := ⟨toString⟩

def codec : Codec Role :=
  Codec.oneOf ofName? toString

end Role

structure Identity where
  user : UserId
  role : Role
  deriving DecidableEq

namespace UserId

def codec : Codec UserId :=
  Codec.uuid.map uuid mk

instance : ToString UserId := ⟨fun u => u.uuid.toString⟩

end UserId

namespace Identity

def codec : Codec Identity :=
  (Codec.record (.cons "user_id" UserId.codec .never (.cons "role" Role.codec .never .nil))).map
    (fun i => (i.user, i.role, ())) (fun (user, role, ()) => ⟨user, role⟩)

end Identity

end HelpDesk
