import HelpDesk.Dashboard

/-! The life of a conversation. It starts pending; the first presence or message of staff or of the system
opens it; its owner or an admin closes it, and then it stays closed. The store decides every change, and
only then is it announced to the dashboards. -/

namespace HelpDesk

inductive LifecycleError
  | closed (id : ConversationId)
  | forbidden
  | invalidTransition (before after : Status)
  | store (error : StoreError)
  deriving DecidableEq

namespace LifecycleError

def ofStore : StoreError → LifecycleError
  | .invalidTransition before after => invalidTransition before after
  | .closed id => closed id
  | error => store error

def message : LifecycleError → String
  | closed id => "Conversation " ++ toString id ++ " is closed"
  | forbidden => "Not allowed to close this conversation"
  | invalidTransition before after => "Invalid status transition: " ++ toString before ++ " -> " ++ toString after
  | store error => error.message

end LifecycleError

namespace Lifecycle

/-- Closed conversations take no further messages. -/
def ensureAccepts (c : Conversation) : Except LifecycleError Unit :=
  if c.status.isFinal then .error (.closed c.id) else .ok ()

/-- Moves a conversation, and announces it if the store did. -/
def move (id : ConversationId) (status : Status) (assignee : Option UserId) :
    Program (Except LifecycleError Conversation) := do
  match ← Program.store (.setStatus id status assignee) with
  | .error error => return .error (.ofStore error)
  | .ok (moved : Conversation) =>
    Dashboard.announce moved
    return .ok moved

/-- Opens a conversation that was pending when it was read, if the party's role does so. Staff who open it
are assigned to it. It is no error if somebody else moved it meanwhile. -/
def openIfPending (c : Conversation) (identity : Identity) : Program (Except LifecycleError (Option Conversation)) :=
  if identity.role.opensConversations && c.status == .pending then do
    let assignee := if identity.role.isAdmin then some identity.user else none
    match ← move c.id .opened assignee with
    | .ok opened => return .ok (some opened)
    | .error (.invalidTransition _ _) => return .ok none
    | .error error => return .error error
  else return .ok none

def memberJoined (id : ConversationId) (identity : Identity) : Program (Except LifecycleError (Option Conversation)) :=
  if identity.role.opensConversations then do
    match ← Program.store (.get id) with
    | .error error => return .error (.ofStore error)
    | .ok (c : Conversation) => openIfPending c identity
  else return .ok none

/-- A party's message was stored in a conversation that was last read as `c`. -/
def messageStored (c : Conversation) (identity : Identity) : Program (Except LifecycleError (Option Conversation)) :=
  openIfPending c identity

def close (id : ConversationId) (identity : Identity) : Program (Except LifecycleError Conversation) := do
  match ← Program.store (.get id) with
  | .error error => return .error (.ofStore error)
  | .ok (c : Conversation) =>
    if !c.isOwnedBy identity.user && !identity.role.isAdmin then return .error .forbidden
    else if !c.status.canBecome .closed then return .error (.invalidTransition c.status .closed)
    else move id .closed none

end Lifecycle

end HelpDesk
