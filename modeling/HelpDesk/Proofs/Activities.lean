import HelpDesk.Http.Routes
import HelpDesk.Proofs.ConnectionTexts
import HelpDesk.Proofs.ProgramLaws

/-! What is under way at a help desk: requests of clients, sockets from the request for them to their end, and operations by
themselves. Each acts for one party, and what it asks for is what this party may have after what it has asked before. -/

namespace HelpDesk

/-- The conversation that a request is to close. -/
def Http.Request.closes? (r : Http.Request) : Option ConversationId :=
  match Route.ofPath? (pathOf r.target) with
  | some (.closing segment) => if r.method == "POST" then (pathId segment).toOption else none
  | _ => none

theorem Http.Request.caller_of_toOption {r : Http.Request} {party : Identity} (known : r.caller.toOption = some party) :
    r.caller = .ok party := by
  cases caller : r.caller <;> rw [caller] at known <;> cases known
  rfl

namespace Http.Request

/-- A request as a client sends it in the name of a party. -/
def ofParty (party : Identity) (method target : String) (headers : List (String × List UInt8)) (body : String) :
    Request where
  method := method
  target := target
  headers := (userHeader, bytesOf (toString party.user)) :: (roleHeader, bytesOf (toString party.role)) :: headers
  body := bytesOf body
  upgradable := true

def forSocket (party : Identity) (target : String) : Request :=
  .ofParty party "GET" target [("connection", bytesOf "Upgrade"), ("upgrade", bytesOf "websocket"),
    ("sec-websocket-version", bytesOf "13"), ("sec-websocket-key", [])] ""

end Http.Request

/-- A connection over a socket: it enters its room, has its texts taken in and leaves. -/
def Connection.serve (c : Connection) (settings : Settings) (texts : List String) : Program Unit := do
  let _ ← c.enter settings
  let _ ← c.readTexts settings texts
  c.leave

inductive Activity
  | operation (work : Operation)
  /-- a request, over a connection that cannot become a socket -/
  | request (r : Http.Request)
  /-- a request, over a connection that can, and what comes over the socket then -/
  | visit (session : SessionId) (r : Http.Request) (texts : List String)

namespace Operation

def party? : Operation → Option Identity
  | start starter _ _ => some starter
  | close _ party | memberJoined _ party | messageStored _ party => some party
  | enter c | text c _ => some c.identity
  | leave _ => none

def session? : Operation → Option SessionId
  | enter c | text c _ => some c.session
  | start _ _ _ | close _ _ | memberJoined _ _ | messageStored _ _ | leave _ => none

def closes? : Operation → Option ConversationId
  | close id _ => some id
  | start _ _ _ | memberJoined _ _ | messageStored _ _ | enter _ | text _ _ | leave _ => none

def enters : Operation → Bool
  | enter _ => true
  | start _ _ _ | close _ _ | memberJoined _ _ | messageStored _ _ | text _ _ | leave _ => false

def texts : Operation → List String
  | text _ words => [words]
  | start _ _ _ | close _ _ | memberJoined _ _ | messageStored _ _ | enter _ | leave _ => []

end Operation

namespace Activity

def program (database : Http.DatabaseHealth) (settings : Settings) : Activity → Program Unit
  | operation work => work.program settings
  | request r => (Http.respond database { r with upgradable := false }).ignore
  | visit session r texts => do
    match ← Http.respond database { r with upgradable := true } with
    | .answer _ => return ()
    | .upgrade identity room => (Connection.mk session identity room).serve settings texts

def request? : Activity → Option Http.Request
  | operation _ => none
  | request r | visit _ r _ => some r

/-- The one whom the activity acts for, if it is known who that is and anything is done in that name. -/
def party? : Activity → Option Identity
  | operation work => work.party?
  | request r | visit _ r _ => r.caller.toOption

def session? : Activity → Option SessionId
  | operation work => work.session?
  | request _ => none
  | visit session _ _ => some session

def closes? : Activity → Option ConversationId
  | operation work => work.closes?
  | request r | visit _ r _ => r.closes?

/-- Does the activity enter a room? -/
def enters : Activity → Bool
  | operation work => work.enters
  | request _ => false
  | visit _ _ _ => true

/-- The texts that are taken in. -/
def texts : Activity → List String
  | operation work => work.texts
  | request _ => []
  | visit _ _ texts => texts

end Activity

def Execution.serving (database : Http.DatabaseHealth) (hub : Hub) (activities : List Activity) : Execution Unit :=
  ⟨hub, activities.map (·.program database hub.settings)⟩

/-- The conversation was read in one of the turns, and was `c` then. -/
def Read (os : List Occurrence) (id : ConversationId) (c : Conversation) : Prop :=
  ∃ task hub, .asked task hub (.store (.get id)) ∈ os ∧
    (hub.answer (.store (.get id))).1 = (.ok c : Except StoreError Conversation)

/-- Who may be in a room: staff in that of the dashboards; in that of a conversation, which was read in one of the turns,
its owner, staff and the system. -/
def Entitled (os : List Occurrence) (party : Identity) (room : ConversationId) : Prop :=
  if room = .dashboard then party.role.isAdmin = true
  else ∃ c, Read os room c ∧ (c.owner = party.user ∨ party.role.opensConversations = true)

/-- The turn showed that the conversation is closed. -/
def Occurrence.Refuses (id : ConversationId) : Occurrence → Prop
  | asked _ hub (.store (.get other)) => other = id ∧
    ∃ c : Conversation, (hub.answer (.store (.get other))).1 = (.ok c : Except StoreError Conversation) ∧ c.status = .closed
  | asked _ hub (.store (.createMessage draft)) => draft.conversation = id ∧
    ∃ closed, (hub.answer (.store (.createMessage draft))).1 = (.error (.closed closed) : Except StoreError Message)
  | _ => False

theorem Read.mono {os ps : List Occurrence} {id : ConversationId} {c : Conversation} (read : Read os id c)
    (more : os ⊆ ps) : Read ps id c := by
  obtain ⟨task, hub, there, reply⟩ := read
  exact ⟨task, hub, more there, reply⟩

theorem Entitled.mono {os ps : List Occurrence} {party : Identity} {room : ConversationId}
    (entitled : Entitled os party room) (more : os ⊆ ps) : Entitled ps party room := by
  unfold Entitled at *
  split at entitled
  · next here => rwa [if_pos here]
  · next elsewhere =>
    rw [if_neg elsewhere]
    obtain ⟨c, read, role⟩ := entitled
    exact ⟨c, read.mono more, role⟩

namespace Activity

/-- Whoever comes over a socket is let into the room by what was read for it. An operation by itself is let in. -/
def Admits (a : Activity) (os : List Occurrence) (party : Identity) (room : ConversationId) : Prop :=
  (∃ work, a = .operation work) ∨ Entitled os party room

theorem Admits.mono {a : Activity} {os ps : List Occurrence} {party : Identity} {room : ConversationId}
    (admits : a.Admits os party room) (more : os ⊆ ps) : a.Admits ps party room :=
  admits.imp id (·.mono more)

/-- What an activity may ask for after the turns that it has had. -/
inductive MayAsk (a : Activity) (os : List Occurrence) : Request → Prop
  | get (id : ConversationId) : MayAsk a os (.store (.get id))
  | listActive : MayAsk a os (.store .listActive)
  | listMessages (id : ConversationId) (limit offset : Int) : MayAsk a os (.store (.listMessages id limit offset))
  | countRooms : MayAsk a os .roomCount
  | opens {party : Identity} (acts : a.party? = some party) (role : party.role.opensConversations = true)
      (id : ConversationId) :
      MayAsk a os (.store (.setStatus id .opened (if party.role.isAdmin then some party.user else none)))
  | closes {party : Identity} (acts : a.party? = some party) {id : ConversationId} (told : a.closes? = some id)
      {c : Conversation} (read : Read os id c) (role : c.owner = party.user ∨ party.role.isAdmin = true) :
      MayAsk a os (.store (.setStatus id .closed none))
  | starts {party : Identity} (acts : a.party? = some party) (label content : String) :
      MayAsk a os (.store (.start party label content))
  | writes {party : Identity} (acts : a.party? = some party) {room : ConversationId} (elsewhere : room ≠ .dashboard)
      (admitted : a.Admits os party room) (content : String) :
      MayAsk a os (.store (.createMessage (.ofSender room party content)))
  | announces {c : Conversation} {parcel : Parcel} (frame : announcement c = some parcel) :
      MayAsk a os (.rooms (.broadcast .dashboard parcel))
  /-- what it has stored last -/
  | speaks {m : Message} (last : (os.filterMap (·.posted?)).getLast? = some m) (elsewhere : m.conversation ≠ .dashboard)
      {parcel : Parcel} (frame : parcel.frame = .chat (.ofMessage m)) :
      MayAsk a os (.rooms (.broadcast m.conversation parcel))
  /-- a text of its own -/
  | refuses {session : SessionId} (own : a.session? = some session) {text : String} (sent : text ∈ a.texts)
      (meant : (InboundFrame.content? text).isSome) {room : ConversationId} (elsewhere : room ≠ .dashboard)
      {o : Occurrence} (last : os.getLast? = some o) (refused : o.Refuses room)
      {parcel : Parcel} (frame : parcel.frame = .error .conversationClosed) :
      MayAsk a os (.rooms (.sendTo room session parcel))
  | joins (enters : a.enters = true) {party : Identity} (acts : a.party? = some party) {session : SessionId}
      (own : a.session? = some session) {room : ConversationId} (admitted : a.Admits os party room) (capacity : Nat) :
      MayAsk a os (.join room session party capacity room.isDashboard)
  | releases {session : SessionId} (own : a.session? = some session) {lead : Option Parcel}
      (snapshot : ∀ parcel ∈ lead, ∃ list, parcel.frame = .summaries list) :
      MayAsk a os (.rooms (.release .dashboard session lead))
  | leaves (room : ConversationId) (session : SessionId) : MayAsk a os (.rooms (.leave room session))

section Offers
open Registry
variable {a : Activity} {os : List Occurrence} {request : Request} {e : Event Parcel} {p : Place}

/-- What an activity may offer to somebody in a room. -/
inductive Offers (a : Activity) (os : List Occurrence) (p : Place) : Frame → Prop
  | chat {m : Message} (last : (os.filterMap (·.posted?)).getLast? = some m) (here : m.conversation = p.room)
      (elsewhere : p.room ≠ .dashboard) : Offers a os p (.chat (.ofMessage m))
  | summaries (list : List Summary) (here : p.room = .dashboard) : Offers a os p (.summaries list)
  | error (own : a.session? = some p.session) {text : String} (sent : text ∈ a.texts)
      (meant : (InboundFrame.content? text).isSome) (elsewhere : p.room ≠ .dashboard) {o : Occurrence}
      (last : os.getLast? = some o) (refused : o.Refuses p.room) : Offers a os p (.error .conversationClosed)

theorem offers_of_offered (may : a.MayAsk os request) (event : request.event? = some e) {parcel : Parcel}
    (offered : parcel ∈ e.offered p) : a.Offers os p parcel.frame := by
  cases may with
  | announces frame =>
    cases event
    obtain ⟨here, rfl⟩ := mem_offered_broadcast.mp offered
    rw [Frame.frame_of_pack? frame]
    exact .summaries _ here.symm
  | speaks last elsewhere frame =>
    cases event
    obtain ⟨here, rfl⟩ := mem_offered_broadcast.mp offered
    rw [frame]
    exact .chat last here (here ▸ elsewhere)
  | refuses own sent meant elsewhere last refused frame =>
    cases event
    obtain ⟨⟨rfl, rfl⟩, rfl⟩ := mem_offered_sendTo.mp offered
    rw [frame]
    exact .error own sent meant elsewhere last refused
  | releases own snapshot =>
    cases event
    obtain ⟨⟨here, -⟩, lead⟩ := mem_offered_release.mp offered
    obtain ⟨list, same⟩ := snapshot parcel lead
    rw [same]
    exact .summaries list here.symm
  | joins | leaves =>
    cases event
    cases offered
  | _ => cases event

end Offers

end Activity

end HelpDesk
