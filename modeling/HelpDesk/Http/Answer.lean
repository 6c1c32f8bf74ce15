import HelpDesk.Intake
import HelpDesk.Lifecycle

/-! Answers to HTTP requests, and how each error is answered. What a database said never reaches the client. -/

namespace HelpDesk.Http

inductive Body
  | empty
  | json (text : String)
  | text (text : String)
  deriving DecidableEq

structure Answer where
  status : Nat
  body : Body
  deriving DecidableEq

inductive ApiError
  | unauthorized
  | forbidden
  | validation (message : String)
  | badRequest (message : String)
  | notFound
  | conflict (message : String)
  | database (message : String)
  | internal
  deriving DecidableEq

namespace ApiError

def message : ApiError → String
  | unauthorized => "Authentication required"
  | forbidden => "Insufficient permissions"
  | validation message => "Validation error: " ++ message
  | badRequest message => "Invalid request: " ++ message
  | notFound => "Resource not found"
  | conflict message => message
  | database message => "Database error: " ++ message
  | internal => "Internal server error"

def status : ApiError → Nat
  | unauthorized => 401
  | forbidden => 403
  | validation _ => 400
  | badRequest _ => 400
  | notFound => 404
  | conflict _ => 409
  | database _ => 500
  | internal => 500

def code : ApiError → String
  | unauthorized => "UNAUTHORIZED"
  | forbidden => "FORBIDDEN"
  | validation _ => "VALIDATION_ERROR"
  | badRequest _ => "BAD_REQUEST"
  | notFound => "NOT_FOUND"
  | conflict _ => "CONFLICT"
  | database _ => "DATABASE_ERROR"
  | internal => "INTERNAL_ERROR"

def publicMessage : ApiError → String
  | unauthorized => "Authentication required"
  | forbidden => "Insufficient permissions"
  | validation message => message
  | badRequest message => message
  | notFound => "Resource not found"
  | conflict message => message
  | database _ => "Database error"
  | internal => "Internal server error"

def ofTransition (before after : Status) : ApiError :=
  conflict ("Cannot move conversation from " ++ toString before ++ " to " ++ toString after)

def ofClosed : ApiError :=
  conflict "Conversation is closed"

def ofStore : StoreError → ApiError
  | .notFound _ => notFound
  | .closed _ => ofClosed
  | .invalidTransition before after => ofTransition before after
  | .database .rowNotFound => notFound
  | .database error => database error.message

def ofLifecycle : LifecycleError → ApiError
  | .closed _ => ofClosed
  | .forbidden => forbidden
  | .invalidTransition before after => ofTransition before after
  | .store error => ofStore error

/-- Whatever keeps the store from creating a conversation is answered alike. -/
def ofIntake : IntakeError → ApiError
  | .store _ => internal
  | error => validation error.message

end ApiError

def object (members : List (String × List Char)) : List Char :=
  '\x7b' :: Json.Codec.commas (members.map fun (name, value) => Json.quote name ++ ':' :: value) ++ ['\x7d']

namespace Answer

def bare (status : Nat) : Answer :=
  ⟨status, .empty⟩

/-- An answer with a JSON text. The only values without one have a year of more than four digits. -/
def json (status : Nat) (text : Option (List Char)) : Answer :=
  match text with
  | some cs => ⟨status, .json (String.ofList cs)⟩
  | none => ⟨500, .text "The year component cannot be formatted into the requested format."⟩

def error (e : ApiError) : Answer :=
  json e.status (some (object [("error", object
    [("code", Json.quote e.code), ("message", Json.quote e.publicMessage)])]))

end Answer

/-- What is wrong with a request before anybody looks at what it asks for. -/
inductive Rejection
  | path
  | query
  | mediaType
  | malformedBody
  | unexpectedBody
  | bodyTooLarge
  | method
  | connectionHeader
  | upgradeHeader
  | versionHeader
  | keyHeader
  | notUpgradable
  deriving DecidableEq, Repr

namespace Rejection

def status : Rejection → Nat
  | path | query | malformedBody | connectionHeader | upgradeHeader | versionHeader | keyHeader => 400
  | method => 405
  | bodyTooLarge => 413
  | mediaType => 415
  | unexpectedBody => 422
  | notUpgradable => 426

/-- What the client is told, without the particulars that may follow it. -/
def message : Rejection → String
  | path => "Invalid URL"
  | query => "Failed to deserialize query string"
  | mediaType => "Expected request with `Content-Type"
  | malformedBody => "Failed to parse the request body as JSON"
  | unexpectedBody => "Failed to deserialize the JSON body into the target type"
  | bodyTooLarge => "Failed to buffer the request body"
  | method => "Request method must be `GET`"
  | connectionHeader => "Connection header did not include 'upgrade'"
  | upgradeHeader => "`Upgrade` header did not include 'websocket'"
  | versionHeader => "`Sec-WebSocket-Version` header did not include '13'"
  | keyHeader => "`Sec-WebSocket-Key` header missing"
  | notUpgradable => "WebSocket request couldn't be upgraded since no upgrade state was present"

def answer (r : Rejection) : Answer :=
  ⟨r.status, .text r.message⟩

end Rejection

end HelpDesk.Http
