import HelpDesk.Frame
import HelpDesk.Registry
import HelpDesk.Store

/-! The help desk's operations as programs: sequences of requests to the store and the registry, each one step
for everybody else, with whatever follows from the reply. The same program is run from start to end
or step by step among others. -/

namespace HelpDesk

/-- A request that an operation waits for. -/
inductive Request
  | store (call : Store.Call)
  | rooms (command : Registry.Command Parcel)
  | join (room : ConversationId) (session : SessionId) (identity : Identity) (capacity : Nat) (holding : Bool)
  | roomCount

def Request.Reply : Request → Type
  | store call => Except StoreError call.Answer
  | rooms _ => Unit
  | join _ _ _ _ _ => QueueId
  | roomCount => Nat

inductive Program (α : Type) where
  | done (value : α)
  | ask (request : Request) (next : request.Reply → Program α)

namespace Program

def bind {α β : Type} (program : Program α) (next : α → Program β) : Program β :=
  match program with
  | .done value => next value
  | .ask request rest => .ask request fun reply => (rest reply).bind next

instance : Monad Program where
  pure := .done
  bind := bind

theorem bind_assoc {α β γ : Type} (program : Program α) (first : α → Program β) (second : β → Program γ) :
    (program.bind first).bind second = program.bind fun value => (first value).bind second := by
  induction program with
  | done value => rfl
  | ask request rest ih => simp only [bind]; congr 1; funext reply; exact ih reply

/-- Runs a program from start to end, `answer` carrying out the requests. -/
def run {α σ : Type} (answer : (request : Request) → σ → request.Reply × σ) : Program α → σ → α × σ
  | .done value, state => (value, state)
  | .ask request next, state =>
    let (reply, state) := answer request state
    (next reply).run answer state

@[simp] theorem run_bind {α β σ : Type} (answer : (request : Request) → σ → request.Reply × σ)
    (program : Program α) (next : α → Program β) (state : σ) :
    (program.bind next).run answer state =
      (next (program.run answer state).1).run answer (program.run answer state).2 := by
  induction program generalizing state with
  | done value => rfl
  | ask request rest ih => simp only [bind, run]; exact ih _ _

def store (call : Store.Call) : Program (Except StoreError call.Answer) :=
  .ask (.store call) .done

def rooms (command : Registry.Command Parcel) : Program Unit :=
  .ask (.rooms command) .done

/-- Queues a frame for everybody in a room. A frame that has no text is not sent. -/
def broadcast (room : ConversationId) (frame : Frame) : Program Unit :=
  match frame.pack? with
  | some parcel => rooms (.broadcast room parcel)
  | none => .done ()

/-- Queues a frame for one session. A frame that has no text is not sent. -/
def sendTo (room : ConversationId) (session : SessionId) (frame : Frame) : Program Unit :=
  match frame.pack? with
  | some parcel => rooms (.sendTo room session parcel)
  | none => .done ()

end Program

end HelpDesk
