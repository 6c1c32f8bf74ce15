import HelpDesk.Connection

/-! The help desk at work: the store and the registry behind every operation, a clock, a supply of identifiers,
and the faults that the store is yet to show. -/

namespace HelpDesk

/-- The error of a store that fails, whatever it is asked. -/
inductive Failure
  | notFound
  | closed
  | invalidTransition (before after : Status)
  | database (error : DatabaseError)
  deriving DecidableEq

/-- The error as it comes of a request about a conversation. -/
def Failure.about (id : ConversationId) : Failure → StoreError
  | notFound => .notFound id
  | closed => .closed id
  | invalidTransition before after => .invalidTransition before after
  | database error => .database error

/-- What may happen to a request at the store. -/
inductive Fault
  /-- it fails and changes nothing -/
  | fail (failure : Failure)
  /-- it is carried out, and right after it somebody moves the conversation -/
  | overtaken (status : Status)
  deriving DecidableEq

structure Hub where
  settings : Settings
  store : Store := {}
  registry : Registry Parcel := {}
  clock : Moment
  /-- what the clock shows when a request reads it again, by the identifiers taken before and by the first reading -/
  reread : Nat → Moment → Moment := fun _ first => first
  /-- the identifiers to hand out -/
  mint : Nat → Uuid
  /-- how many of them are taken -/
  minted : Nat := 0
  /-- does the database of the store answer at all? -/
  reachable : Bool := true
  /-- the error of every request if it does not -/
  outage : DatabaseError := .unreachable
  /-- the faults of the next requests of each kind, in order; none for a request that goes well -/
  faults : Store.Method → List (Option Fault) := fun _ => []

namespace Hub

def fresh (h : Hub) (n : Nat) : Uuid :=
  h.mint (h.minted + n)

/-- What the clock shows a request each time that it reads it. -/
def readings (h : Hub) : Nat → Moment
  | 0 => h.clock
  | _ + 1 => h.reread h.minted h.clock

@[simp] theorem readings_zero (h : Hub) : h.readings 0 = h.clock := rfl

def perform (h : Hub) (call : Store.Call) : Except StoreError call.Answer × Hub :=
  match h.store.perform h.readings h.fresh call with
  | .ok (answer, store) => (.ok answer, { h with store, minted := h.minted + call.creates })
  | .error error => (.error error, h)

/-- The next fault of a kind of request, which is used up. -/
def nextFault (h : Hub) (method : Store.Method) : Option Fault × Hub :=
  match h.faults method with
  | [] => (none, h)
  | fault :: rest => (fault, { h with faults := fun m => if m = method then rest else h.faults m })

/-- Sets the faults of the next requests of a kind, whatever they were. -/
def setFaults (h : Hub) (method : Store.Method) (faults : List (Option Fault)) : Hub :=
  { h with faults := fun m => if m = method then faults else h.faults m }

def moveIfPossible (h : Hub) (id : ConversationId) (status : Status) : Hub :=
  match h.store.setStatus h.clock id status none with
  | .ok (_, store) => { h with store }
  | .error _ => h

/-- Carries out a request at the store, or lets it fail. -/
def callStore (h : Hub) (call : Store.Call) : Except StoreError call.Answer × Hub :=
  if !h.reachable then (.error (.database h.outage), h)
  else match h.nextFault call.method with
    | (none, h) => h.perform call
    | (some (.fail failure), h) => (.error (failure.about call.subject), h)
    | (some (.overtaken status), h) =>
      match h.perform call with
      | (.ok answer, h) => (.ok answer, h.moveIfPossible call.subject status)
      | (.error error, h) => (.error error, h)

def answer : (request : Request) → Hub → request.Reply × Hub
  | .store call, h => h.callStore call
  | .rooms command, h => ((), { h with registry := h.registry.apply command })
  | .join room session identity capacity holding, h =>
    let (queue, registry) := h.registry.join room session identity capacity holding
    (queue, { h with registry })
  | .roomCount, h => (h.registry.roomCount, h)

def run {α : Type} (h : Hub) (program : Program α) : α × Hub :=
  program.run answer h

theorem run_bind {α β : Type} (h : Hub) (program : Program α) (next : α → Program β) :
    h.run (program.bind next) = (h.run program).2.run (next (h.run program).1) :=
  Program.run_bind answer program next h

theorem run_map {α β : Type} (h : Hub) (f : α → β) (program : Program α) :
    (h.run (f <$> program)).1 = f (h.run program).1 :=
  congrArg Prod.fst (h.run_bind program fun value => .done (f value))

end Hub

end HelpDesk
