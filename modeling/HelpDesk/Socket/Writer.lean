import HelpDesk.Socket.Frame

/-! The writing side of a socket. It takes frames from its queue one by one, sends a ping when a period has passed
without a text, and a close frame when the queue is closed. A write that takes longer than it may ends
the writer, as does one that fails. -/

namespace HelpDesk

inductive Writer.Phase
  | idle
  | writing (frame : SocketFrame) (since : Instant)
  | ended (when : Instant)
  deriving DecidableEq

structure Writer where
  tick : Instant
  phase : Writer.Phase
  deriving DecidableEq

namespace Writer

/-- A ping that comes later than this counts as late. -/
def tolerance : Span := .ofMillis 5

/-- When the ping after one that was due is due itself: a period later, or a period after the late one. -/
def tickAfter (period : Span) (due now : Instant) : Instant :=
  if due + tolerance < now then now + period else due + period

/-- A new writer waits a period for its first ping. -/
def start (settings : Settings) (now : Instant) : Writer :=
  ⟨now + settings.pingPeriod, .idle⟩

/-- Begins to write a frame of the queue, or the close frame. -/
def write (w : Writer) (now : Instant) (frame : SocketFrame) : Writer :=
  { w with phase := .writing frame now }

def ping (w : Writer) (settings : Settings) (now : Instant) : Writer :=
  ⟨tickAfter settings.pingPeriod w.tick now, .writing .heartbeat now⟩

/-- The write is over. A text restarts the period. After the close frame, or a failure, nothing is written. -/
def wrote (w : Writer) (settings : Settings) (now : Instant) (succeeded : Bool) : Writer :=
  match w.phase with
  | .writing frame _ =>
    if succeeded then
      match frame with
      | .text _ => ⟨now + settings.pingPeriod, .idle⟩
      | .close => { w with phase := .ended now }
      | _ => { w with phase := .idle }
    else { w with phase := .ended now }
  | _ => w

def limit? (w : Writer) (settings : Settings) : Option Instant :=
  match w.phase with
  | .writing _ since => some (since + settings.writeWait)
  | _ => none

def expire (w : Writer) (settings : Settings) : Writer :=
  match w.phase with
  | .writing _ since => { w with phase := .ended (since + settings.writeWait) }
  | _ => w

def hasEnded (w : Writer) : Bool :=
  match w.phase with
  | .ended _ => true
  | _ => false

end Writer

end HelpDesk
