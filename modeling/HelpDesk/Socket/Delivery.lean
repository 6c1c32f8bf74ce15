import HelpDesk.Socket.Writer

/-! A writer at work: frames come to its queue at given instants, and its sink takes a given time for each write. -/

namespace HelpDesk

structure Attempt where
  takes : Span
  succeeds : Bool
  deriving DecidableEq

structure Script where
  /-- the texts and when each is queued, if those before it are -/
  texts : List (Instant × String)
  /-- when the queue is closed behind them, if ever -/
  closing : Option Instant
  /-- what the sink does with the writes, in order -/
  sink : Nat → Attempt
  /-- does the ping come first where a ping and the queue are ready at the same instant? -/
  pingFirst : Nat → Bool

structure Delivery where
  now : Instant
  writer : Writer
  /-- the texts that are not yet taken from the queue -/
  texts : List (Instant × String)
  attempts : Nat
  /-- the writes that succeeded, the last one first, and when each was over -/
  log : List (Instant × SocketFrame)

namespace Delivery

def start (settings : Settings) (script : Script) : Delivery :=
  ⟨0, .start settings 0, script.texts, 0, []⟩

/-- When the queue has something to take: its next text, or its end. -/
def ready? (d : Delivery) (script : Script) : Option Instant :=
  match d.texts with
  | (time, _) :: _ => some (max d.now time)
  | [] => script.closing.map (max d.now)

def pingsNext (d : Delivery) (script : Script) : Bool :=
  match d.ready? script with
  | none => true
  | some ready =>
    let due := max d.now d.writer.tick
    decide (due < ready) || (decide (due = ready) && script.pingFirst d.attempts)

def begin (d : Delivery) (settings : Settings) (script : Script) : Delivery :=
  if d.pingsNext script then
    let now := max d.now d.writer.tick
    { d with now, writer := d.writer.ping settings now }
  else
    let now := (d.ready? script).getD d.now
    match d.texts with
    | (_, text) :: rest => { d with now, texts := rest, writer := d.writer.write now (.text text) }
    | [] => { d with now, writer := d.writer.write now .close }

/-- The write that began at `since` is over, or has taken too long. -/
def finish (d : Delivery) (settings : Settings) (script : Script) (frame : SocketFrame) (since : Instant) : Delivery :=
  let attempt := script.sink d.attempts
  if attempt.takes ≤ settings.writeWait then
    let now := since + attempt.takes
    { d with
      now
      writer := d.writer.wrote settings now attempt.succeeds
      attempts := d.attempts + 1
      log := if attempt.succeeds then (now, frame) :: d.log else d.log }
  else { d with now := since + settings.writeWait, writer := d.writer.expire settings, attempts := d.attempts + 1 }

/-- The beginning or the end of a write. A writer that has ended does nothing. -/
def step (d : Delivery) (settings : Settings) (script : Script) : Delivery :=
  match d.writer.phase with
  | .idle => d.begin settings script
  | .writing frame since => d.finish settings script frame since
  | .ended _ => d

def steps (settings : Settings) (script : Script) : Nat → Delivery
  | 0 => start settings script
  | n + 1 => (steps settings script n).step settings script

/-- Runs on, `fuel` steps at most, while the next write is not over after `horizon`. -/
def runUntil (settings : Settings) (script : Script) (horizon : Instant) : (fuel : Nat) → Delivery → Delivery
  | 0, d => d
  | fuel + 1, d =>
    if d.writer.hasEnded || decide (horizon < d.now) then d
    else runUntil settings script horizon fuel (d.step settings script)

structure Record where
  writes : List (Instant × SocketFrame)
  ended : Option Instant

def recordAt (d : Delivery) (horizon : Instant) : Record where
  writes := d.log.reverse.filter fun (time, _) => time ≤ horizon
  ended := match d.writer.phase with
    | .ended time => if time ≤ horizon then some time else none
    | _ => none

/-- What is seen up to an instant of a writer that starts at the beginning. Between two texts there are no more
pings than periods have passed. -/
def observe (settings : Settings) (script : Script) (horizon : Instant) : Record :=
  let writes := horizon / settings.pingPeriod + script.texts.length + 3
  (runUntil settings script horizon (2 * writes) (start settings script)).recordAt horizon

end Delivery

end HelpDesk
