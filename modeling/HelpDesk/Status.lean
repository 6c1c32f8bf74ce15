import HelpDesk.Json.Codec
import HelpDesk.Text.LowerCase

/-! The status of a conversation. It only moves on: from pending to open, and from either of them to closed,
after which nothing follows. -/

namespace HelpDesk
open Json

inductive Status
  | pending
  | opened
  | closed
  deriving DecidableEq, Repr

namespace Status

/-- No status follows. -/
def isFinal : Status → Bool
  | closed => true
  | pending | opened => false

def canBecome : Status → Status → Bool
  | pending, opened | pending, closed | opened, closed => true
  | _, _ => false

def toString : Status → String
  | pending => "pending"
  | opened => "open"
  | closed => "closed"

def ofName? (s : String) : Option Status :=
  [pending, opened, closed].find? (·.toString == s)

def ofString? (s : String) : Option Status :=
  ofName? (Text.lowerCase s)

def unknownMessage (s : String) : String :=
  "Invalid conversation status: " ++ s

instance : ToString Status := ⟨toString⟩

def codec : Codec Status :=
  Codec.oneOf ofName? toString

end Status

end HelpDesk
