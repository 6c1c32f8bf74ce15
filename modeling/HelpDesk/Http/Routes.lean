import HelpDesk.Connection
import HelpDesk.Http.Caller
import HelpDesk.Http.MediaType
import HelpDesk.Http.Target

/-! The routes of the server. A request is checked from the outside in: its route and method, for a socket the
headers that ask for one, then the caller, the path, the query and the body. -/

namespace HelpDesk.Http

inductive Route
  | health
  | liveness
  | readiness
  | conversations
  | conversation (id : List Char)
  | messages (id : List Char)
  | closing (id : List Char)
  | socket (id : List Char)
  | dashboardSocket
  deriving DecidableEq

namespace Route

/-- The route of a path. The last segment of a path is never empty. -/
def ofPath? (path : List Char) : Option Route :=
  match (splitOn '/' path).map String.ofList with
  | ["", "health"] => some .health
  | ["", "health", "live"] => some .liveness
  | ["", "health", "ready"] => some .readiness
  | ["", "api", "v1", "conversations"] => some .conversations
  | ["", "api", "v1", "conversations", id] => if id.isEmpty then none else some (.conversation id.toList)
  | ["", "api", "v1", "conversations", id, "messages"] => some (.messages id.toList)
  | ["", "api", "v1", "conversations", id, "close"] => some (.closing id.toList)
  | ["", "ws", "conversations", id] => if id.isEmpty then none else some (.socket id.toList)
  | ["", "ws", "admin"] => some .dashboardSocket
  | _ => none

/-- Does the route take requests of this method? What can be read can also be asked for without its body. -/
def accepts : Route → String → Bool
  | .conversations, method | .closing _, method => method == "POST"
  | _, method => method == "GET" || method == "HEAD"

end Route

inductive DatabaseHealth
  /-- there is none: conversations are kept in memory -/
  | memory
  | healthy
  | unhealthy
  deriving DecidableEq, Repr

def DatabaseHealth.toString : DatabaseHealth → String
  | memory => "memory"
  | healthy => "healthy"
  | unhealthy => "unhealthy"

def version : String := "1.0.0"

inductive Response
  | answer (answer : Answer)
  /-- the connection becomes a socket of this party in this room -/
  | upgrade (identity : Identity) (room : ConversationId)
  deriving DecidableEq

structure StartRequest where
  content : String
  label : Option String

def StartRequest.codec : Json.Codec StartRequest :=
  (Json.Codec.record
    (.cons "content" Json.Codec.text .never
    (.cons "label" Json.Codec.text.optional .anywhere .nil))).map
    (fun r => (r.content, r.label, ()))
    (fun (content, label, ()) => ⟨content, label⟩)

def maxBodyBytes : Nat := 1048576

/-- The value of a JSON body. What follows the value is not looked at. -/
def Request.jsonBody {α : Type} (r : Request) (codec : Json.Codec α) : Except Rejection α :=
  if !r.hasJsonBody then .error .mediaType
  else if maxBodyBytes < r.body.length then .error .bodyTooLarge
  else match codec.decodeFirst (Text.Utf8.decode r.body) with
    | .ok value => .ok value
    | .error .malformed => .error .malformedBody
    | .error .mismatch => .error .unexpectedBody

def pathId (segment : List Char) : Except Rejection ConversationId :=
  match segmentId? segment with
  | some uuid => .ok ⟨uuid⟩
  | none => .error .path

/-- Does the header contain a word, in whatever case? -/
def containsWord (bytes : List UInt8) (word : String) : Bool :=
  (Text.Utf8.decode? bytes).isSome && go (bytes.map lowerByte)
where
  go : List UInt8 → Bool
    | [] => (bytesOf word).isEmpty
    | b :: rest => (bytesOf word).isPrefixOf (b :: rest) || go rest

/-- Does the request ask for a socket, over a connection that can become one? -/
def Request.checkUpgrade (r : Request) : Except Rejection Unit :=
  if r.method != "GET" then .error .method
  else if !(r.header? "connection").any (containsWord · "upgrade") then .error .connectionHeader
  else if (r.header? "upgrade").map (·.map lowerByte) != some (bytesOf "websocket") then .error .upgradeHeader
  else if r.header? "sec-websocket-version" != some (bytesOf "13") then .error .versionHeader
  else if (r.header? "sec-websocket-key").isNone then .error .keyHeader
  else if !r.upgradable then .error .notUpgradable
  else .ok ()

/-- A conversation that the caller may see: the caller's own, or any for staff and the system. For others it is as
if there were none. -/
def visibleConversation (id : ConversationId) (caller : Identity) : Program (Except ApiError Conversation) := do
  match ← Program.store (.get id) with
  | .error error => return .error (.ofStore error)
  | .ok (c : Conversation) =>
    if !c.isOwnedBy caller.user && !caller.role.opensConversations then return .error .notFound
    else return .ok c

namespace Route

def reportHealth (database : DatabaseHealth) : Program Answer := do
  let rooms : Nat ← Program.ask .roomCount .done
  let well := database != .unhealthy
  return .json (if well then 200 else 503) (some (object [
    ("status", Json.quote (if well then "healthy" else "unhealthy")),
    ("version", Json.quote version),
    ("database", Json.quote database.toString),
    ("rooms", (toString rooms).toList)]))

def start (caller : Identity) (request : StartRequest) : Program Answer := do
  match ← Intake.start caller request.content request.label with
  | .error error => return .error (.ofIntake error)
  | .ok (.created c message) =>
    return .json 201 do
      let conversation ← Conversation.codec.write c
      let message ← Message.codec.write message
      some (object [("outcome", Json.quote "created"), ("conversation", conversation), ("message", message)])
  | .ok (.alreadyOpen c) =>
    return .json 200 do
      let conversation ← Conversation.codec.write c
      some (object [("outcome", Json.quote "already_open"), ("conversation", conversation)])

def showConversation (caller : Identity) (id : ConversationId) : Program Answer := do
  match ← visibleConversation id caller with
  | .error error => return .error error
  | .ok c => return .json 200 (Conversation.codec.write c)

def showMessages (caller : Identity) (id : ConversationId) (page : Page) : Program Answer := do
  match ← visibleConversation id caller with
  | .error error => return .error error
  | .ok c =>
    match ← Program.store (.listMessages c.id page.effectiveLimit page.effectiveOffset) with
    | .error error => return .error (.ofStore error)
    | .ok (found : List Message) => return .json 200 (Message.codec.list.write found)

def close (caller : Identity) (id : ConversationId) : Program Answer := do
  match ← Lifecycle.close id caller with
  | .error error => return .error (.ofLifecycle error)
  | .ok c => return .json 200 (Conversation.codec.write c)

/-- Lets a party into a conversation's room: its owner, staff or the system, while it is not closed. -/
def openSocket (caller : Identity) (id : ConversationId) : Program Response := do
  if id.isDashboard then
    return .answer (.error (.badRequest "Use the admin endpoint for the dashboard feed"))
  else match ← Program.store (.get id) with
    | .error error => return .answer (.error (.ofStore error))
    | .ok (c : Conversation) =>
      if !c.isOwnedBy caller.user && !caller.role.opensConversations then return .answer (.error .forbidden)
      else match Lifecycle.ensureAccepts c with
        | .error error => return .answer (.error (.ofLifecycle error))
        | .ok () => return .upgrade caller id

def openDashboard (caller : Identity) : Response :=
  if caller.role.isAdmin then .upgrade caller .dashboard else .answer (.error .forbidden)

/-- Goes on with what was read of a request, or answers why it could not be. -/
def withRead {α : Type} (read : Except Rejection α) (next : α → Program Response) : Program Response :=
  match read with
  | .ok value => next value
  | .error rejection => return .answer rejection.answer

/-- Goes on with the caller of a request, or answers why there is none. -/
def withCaller (r : Request) (next : Identity → Program Response) : Program Response :=
  match r.caller with
  | .ok caller => next caller
  | .error error => return .answer (.error error)

def respond (database : DatabaseHealth) (r : Request) : Route → Program Response
  | .health => .answer <$> reportHealth database
  | .liveness => return .answer (.bare 200)
  | .readiness => return .answer (.bare (if database = .unhealthy then 503 else 200))
  | .conversations =>
    withCaller r fun caller => withRead (r.jsonBody StartRequest.codec) fun request => .answer <$> start caller request
  | .conversation segment =>
    withCaller r fun caller => withRead (pathId segment) fun id => .answer <$> showConversation caller id
  | .messages segment =>
    withCaller r fun caller => withRead (pathId segment) fun id =>
      withRead ((Page.ofQuery? (queryOf r.target)).elim (.error .query) .ok) fun page =>
        .answer <$> showMessages caller id page
  | .closing segment =>
    withCaller r fun caller => withRead (pathId segment) fun id => .answer <$> close caller id
  | .socket segment =>
    withRead r.checkUpgrade fun () => withCaller r fun caller => withRead (pathId segment) fun id =>
      openSocket caller id
  | .dashboardSocket =>
    withRead r.checkUpgrade fun () => withCaller r fun caller => return openDashboard caller

end Route

/-- An answer to a request that wants no body has none. -/
def Response.forMethod (method : String) : Response → Response
  | .answer given => .answer (if method == "HEAD" then .bare given.status else given)
  | .upgrade identity room => .upgrade identity room

/-- Answers a request. Any path may be asked for its options. -/
def respond (database : DatabaseHealth) (r : Request) : Program Response :=
  if r.method == "OPTIONS" then return .answer (.bare 200)
  else match Route.ofPath? (pathOf r.target) with
    | none => return .answer (.bare 404)
    | some route =>
      if route.accepts r.method then (·.forMethod r.method) <$> route.respond database r
      else return .answer (.bare 405)

end HelpDesk.Http
