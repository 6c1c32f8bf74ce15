import HelpDesk.Http.Answer
import HelpDesk.Http.Request

/-! Who makes a request. Authentication has happened before: the identifier and the role come in two headers. The
first of them is judged completely before the second. -/

namespace HelpDesk.Http

def userHeader : String := "x-user-id"

def roleHeader : String := "x-user-role"

/-- The trimmed text of a header that has to be there. -/
def Request.identityHeader (r : Request) (name : String) : Except ApiError String :=
  match r.header? name with
  | none => .error .unauthorized
  | some bytes => match visible? bytes with
    | none => .error (.badRequest (name ++ " is not valid ASCII"))
    | some text => .ok (Text.trim text)

def Request.callerId (r : Request) : Except ApiError UserId :=
  match r.identityHeader userHeader with
  | .error error => .error error
  | .ok text => match Uuid.ofString? text with
    | some uuid => .ok ⟨uuid⟩
    | none => .error (.badRequest (userHeader ++ " must be a UUID"))

def Request.callerRole (r : Request) : Except ApiError Role :=
  match r.identityHeader roleHeader with
  | .error error => .error error
  | .ok text => match Role.ofString? text with
    | some role => .ok role
    | none => .error (.badRequest (roleHeader ++ " is not a known role"))

def Request.caller (r : Request) : Except ApiError Identity :=
  match r.callerId with
  | .error error => .error error
  | .ok user => (r.callerRole).map fun role => ⟨user, role⟩

end HelpDesk.Http
