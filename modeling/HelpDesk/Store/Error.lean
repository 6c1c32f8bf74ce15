import HelpDesk.Conversation

/-! Why the store could not do what it was asked. -/

namespace HelpDesk

inductive DatabaseError
  | poolTimedOut
  | poolClosed
  | unreachable
  | rowNotFound
  /-- the database refused and said why, perhaps with a code of the SQL standard -/
  | rejected (sqlState : Option String) (text : String)
  /-- anything else that the driver has to say -/
  | other (text : String)
  deriving DecidableEq, Repr

namespace DatabaseError

def message : DatabaseError → String
  | poolTimedOut => "pool timed out while waiting for an open connection"
  | poolClosed => "attempted to acquire a connection on a closed pool"
  | unreachable => "error communicating with database"
  | rowNotFound => "no rows returned by a query that expected to return at least one row"
  | rejected _ text => "error returned from database: " ++ text
  | other text => text

def uniqueViolation : DatabaseError := rejected (some "23505") "sqlstate 23505"

def checkViolation : DatabaseError := rejected (some "23514") "sqlstate 23514"

/-- Was a second row refused for a key that has one? -/
def isUniqueViolation : DatabaseError → Bool
  | rejected sqlState _ => sqlState == some "23505"
  | poolTimedOut | poolClosed | unreachable | rowNotFound | other _ => false

end DatabaseError

inductive StoreError
  | notFound (id : ConversationId)
  | closed (id : ConversationId)
  | invalidTransition (before after : Status)
  | database (error : DatabaseError)
  deriving DecidableEq

namespace StoreError

def message : StoreError → String
  | notFound id => "Conversation not found: " ++ toString id
  | closed id => "Conversation " ++ toString id ++ " is closed"
  | invalidTransition before after => "Invalid status transition: " ++ toString before ++ " -> " ++ toString after
  | database error => "Database error: " ++ error.message

def isUniqueViolation : StoreError → Bool
  | database error => error.isUniqueViolation
  | notFound _ | closed _ | invalidTransition _ _ => false

end StoreError

end HelpDesk
