import HelpDesk.Socket.Delivery

/-! What one step of a writer at work can do. It begins to write a text of its queue, a ping or the close frame, or it ends
a write, or it has ended and rests. Whatever holds of the writes of a run follows from this by induction on the steps. -/

namespace HelpDesk

def SocketFrame.text? : SocketFrame → Option String
  | text content => some content
  | binary _ | ping _ | pong _ | close => none

/-- A write that is over. -/
structure Write where
  frame : SocketFrame
  since : Instant
  till : Instant
  completed : Bool
  deriving DecidableEq

namespace Write

def text? (w : Write) : Option String :=
  w.frame.text?

/-- Is nothing to be written after it? -/
def isLast (w : Write) : Bool :=
  w.frame == .close || !w.completed

theorem isLast_iff {w : Write} : w.isLast = true ↔ w.frame = .close ∨ w.completed = false := by
  simp [isLast]

theorem isLast_eq_false_iff {w : Write} : w.isLast = false ↔ w.frame ≠ .close ∧ w.completed = true := by
  simp [isLast]

/-- The sink has done with the write as it does with all that it is given: it takes its time, but no more than a write may
take, and fails or succeeds then. -/
structure ComesOf (w : Write) (settings : Settings) (attempt : Attempt) : Prop where
  till : w.till = w.since + min attempt.takes settings.writeWait
  completed : w.completed = true ↔ attempt.succeeds = true ∧ attempt.takes ≤ settings.writeWait

end Write

namespace Delivery
variable {settings : Settings} {script : Script} {d d' : Delivery}

/-- The write that is over with a step. -/
def ended? (d next : Delivery) : Option Write :=
  match d.writer.phase with
  | .writing frame since => some ⟨frame, since, next.now, decide (d.log.length < next.log.length)⟩
  | .idle | .ended _ => none

/-- The writes that are over after so many steps, in order. -/
def writes (settings : Settings) (script : Script) : Nat → List Write
  | 0 => []
  | n + 1 => writes settings script n ++ (ended? (steps settings script n) (steps settings script (n + 1))).toList

/-- What a writer may begin to write at an instant, and the texts that are left in its queue then. -/
inductive Begins (script : Script) (since : Instant) :
    List (Instant × String) → SocketFrame → List (Instant × String) → Prop
  | ping (texts : List (Instant × String)) : Begins script since texts .heartbeat texts
  | text {time : Instant} {text : String} {rest : List (Instant × String)} (queued : time ≤ since) :
      Begins script since ((time, text) :: rest) (.text text) rest
  | close {time : Instant} (closing : script.closing = some time) (closed : time ≤ since) :
      Begins script since [] .close []

/-- When an idle writer sends its next ping, if it does not write anything before. -/
def due (d : Delivery) : Instant :=
  max d.now d.writer.tick

/-- When there is something to take from the queue, if all that came before is taken: the next text, or its end. -/
def queued? (d : Delivery) (script : Script) : Option Instant :=
  match d.texts with
  | (time, _) :: _ => some time
  | [] => script.closing

/-- What the queue has next: its first text, or the close frame behind all of them. -/
def head (d : Delivery) : SocketFrame :=
  match d.texts with
  | (_, text) :: _ => .text text
  | [] => .close

/-- What an idle writer begins to write next, when, and what is left in its queue then. It takes what the queue has as soon as
that is ready, unless a ping is due before, or is due at the same instant and chosen. -/
inductive Turn (script : Script) (d : Delivery) : SocketFrame → Instant → List (Instant × String) → Prop
  | ping (first : ∀ ready, d.ready? script = some ready →
      d.due < ready ∨ d.due = ready ∧ script.pingFirst d.attempts = true) : Turn script d .heartbeat d.due d.texts
  | take {ready : Instant} (known : d.ready? script = some ready)
      (first : ready < d.due ∨ ready = d.due ∧ script.pingFirst d.attempts = false) :
      Turn script d d.head ready d.texts.tail

/-- When the next ping is due, once a write has begun. -/
def tickBegun (settings : Settings) (tick : Instant) (frame : SocketFrame) (since : Instant) : Instant :=
  if frame = .heartbeat then Writer.tickAfter settings.pingPeriod tick since else tick

/-- When the next ping is due, once a write is over. -/
def tickEnded (settings : Settings) (tick : Instant) (w : Write) : Instant :=
  if w.completed && w.text?.isSome then w.till + settings.pingPeriod else tick

/-- All that a step can do, with the write that it ends. -/
inductive Does (settings : Settings) (script : Script) (d : Delivery) : Delivery → Option Write → Prop
  | begins {frame : SocketFrame} {since : Instant} {texts : List (Instant × String)} (idle : d.writer.phase = .idle)
      (turn : Turn script d frame since texts) :
      Does settings script d
        ⟨since, ⟨tickBegun settings d.writer.tick frame since, .writing frame since⟩, texts, d.attempts, d.log⟩ none
  | ends {w : Write} (writing : d.writer.phase = .writing w.frame w.since)
      (comes : w.ComesOf settings (script.sink d.attempts)) :
      Does settings script d
        ⟨w.till, ⟨tickEnded settings d.writer.tick w, if w.isLast then .ended w.till else .idle⟩, d.texts, d.attempts + 1,
          if w.completed then (w.till, w.frame) :: d.log else d.log⟩ (some w)
  | rests {when : Instant} (ended : d.writer.phase = .ended when) : Does settings script d d none

section Tick
variable (settings : Settings) (tick since : Instant)

theorem tickBegun_heartbeat : tickBegun settings tick .heartbeat since = Writer.tickAfter settings.pingPeriod tick since :=
  if_pos rfl

theorem tickBegun_of_ne {frame : SocketFrame} (other : frame ≠ .heartbeat) : tickBegun settings tick frame since = tick :=
  if_neg other

end Tick

section Turn
variable {frame : SocketFrame} {since ready : Instant} {texts : List (Instant × String)}

theorem head_ne_heartbeat (d : Delivery) : d.head ≠ .heartbeat := by
  unfold head
  split <;> exact fun same => by cases same

theorem ready?_iff : d.ready? script = some ready ↔ ∃ time, d.queued? script = some time ∧ max d.now time = ready := by
  have same : d.ready? script = (d.queued? script).map (max d.now) := by
    rcases texts : d.texts with _ | ⟨⟨time, text⟩, rest⟩ <;> simp [ready?, queued?, texts]
  rw [same, Option.map_eq_some_iff]

theorem Turn.begins (turn : Turn script d frame since texts) : Begins script since d.texts frame texts := by
  cases turn with
  | ping => exact .ping d.texts
  | take known =>
    obtain ⟨time, queued, rfl⟩ := ready?_iff.mp known
    unfold queued? at queued
    unfold head
    split at queued
    next first text rest texts =>
      cases queued
      rw [texts]
      exact .text (Nat.le_max_right _ _)
    next empty =>
      rw [empty]
      exact .close queued (Nat.le_max_right _ _)

theorem Turn.later (turn : Turn script d frame since texts) : d.now ≤ since := by
  cases turn with
  | ping => exact Nat.le_max_left _ _
  | take known =>
    obtain ⟨time, -, rfl⟩ := ready?_iff.mp known
    exact Nat.le_max_left _ _

theorem Turn.prompt (turn : Turn script d frame since texts) : since ≤ d.due := by
  cases turn with
  | ping => exact Nat.le_refl _
  | take known first =>
    rcases first with earlier | ⟨same, -⟩
    · exact Nat.le_of_lt earlier
    · exact Nat.le_of_eq same

theorem Turn.tick_le (turn : Turn script d frame since texts) (ping : frame = .heartbeat) : d.writer.tick ≤ since := by
  cases turn with
  | ping => exact Nat.le_max_right _ _
  | take => exact absurd ping d.head_ne_heartbeat

end Turn

/-- A ping comes before what is ready if it is due before, or at the same instant and is chosen. -/
theorem pingsNext_iff {ready : Instant} (known : d.ready? script = some ready) :
    d.pingsNext script = true ↔ d.due < ready ∨ d.due = ready ∧ script.pingFirst d.attempts = true := by
  simp [pingsNext, known, due]

theorem begin_of_take {ready : Instant} (known : d.ready? script = some ready) (takes : d.pingsNext script = false) :
    d.begin settings script = ⟨ready, d.writer.write ready d.head, d.texts.tail, d.attempts, d.log⟩ := by
  simp only [begin, takes, known, Bool.false_eq_true, if_false, Option.getD_some, head]
  rcases d.texts with _ | ⟨⟨time, text⟩, rest⟩ <;> rfl

theorem does_begin (idle : d.writer.phase = .idle) : Does settings script d (d.begin settings script) none := by
  cases first : d.pingsNext script with
  | true =>
    have turn : Turn script d .heartbeat d.due d.texts := .ping fun ready known => (pingsNext_iff known).mp first
    simp only [begin, first, if_true, Writer.ping, ← tickBegun_heartbeat]
    exact .begins idle turn
  | false =>
    cases known : d.ready? script with
    | none => simp [pingsNext, known] at first
    | some ready =>
      have earlier : ready < d.due ∨ ready = d.due ∧ script.pingFirst d.attempts = false := by
        have unpinged := mt (pingsNext_iff known).mpr (by simp [first])
        rw [not_or, not_and, Bool.not_eq_true] at unpinged
        obtain ⟨soon, chosen⟩ := unpinged
        exact (Nat.lt_or_eq_of_le (Nat.le_of_not_lt soon)).imp_right fun same => ⟨same, chosen same.symm⟩
      rw [begin_of_take known first, Writer.write, ← tickBegun_of_ne settings d.writer.tick ready d.head_ne_heartbeat]
      exact .begins idle (.take known earlier)

section Writer
variable {writer : Writer} {w : Write} (writing : writer.phase = .writing w.frame w.since)
include writing

theorem wrote_eq : writer.wrote settings w.till w.completed =
    ⟨tickEnded settings writer.tick w, if w.isLast then .ended w.till else .idle⟩ := by
  obtain ⟨frame, since, till, completed⟩ := w
  simp only [Writer.wrote, writing]
  cases completed with
  | false => simp [tickEnded, Write.isLast]
  | true => cases frame <;> simp [tickEnded, Write.isLast, Write.text?, SocketFrame.text?]

theorem expire_eq (late : w.till = w.since + settings.writeWait) (uncompleted : w.completed = false) :
    writer.expire settings = ⟨tickEnded settings writer.tick w, if w.isLast then .ended w.till else .idle⟩ := by
  simp [Writer.expire, writing, tickEnded, Write.isLast, late, uncompleted]

end Writer

theorem does_finish {frame : SocketFrame} {since : Instant} (writing : d.writer.phase = .writing frame since) :
    ∃ w, Does settings script d (d.finish settings script frame since) (some w) := by
  by_cases timely : (script.sink d.attempts).takes ≤ settings.writeWait
  · let w : Write := ⟨frame, since, since + (script.sink d.attempts).takes, (script.sink d.attempts).succeeds⟩
    have comes : w.ComesOf settings (script.sink d.attempts) := by
      refine ⟨?_, by simp [w, timely]⟩
      rw [Nat.min_eq_left timely]
    have writes : d.writer.phase = .writing w.frame w.since := writing
    have same : d.finish settings script frame since =
        ⟨w.till, d.writer.wrote settings w.till w.completed, d.texts, d.attempts + 1,
          if w.completed then (w.till, w.frame) :: d.log else d.log⟩ := by
      simp only [finish, timely, if_true, w]
    rw [same, wrote_eq writes]
    exact ⟨w, .ends writes comes⟩
  · let w : Write := ⟨frame, since, since + settings.writeWait, false⟩
    have comes : w.ComesOf settings (script.sink d.attempts) := by
      refine ⟨?_, by simp [w, timely]⟩
      rw [Nat.min_eq_right (Nat.le_of_not_le timely)]
    have writes : d.writer.phase = .writing w.frame w.since := writing
    have same : d.finish settings script frame since =
        ⟨w.till, d.writer.expire settings, d.texts, d.attempts + 1,
          if w.completed then (w.till, w.frame) :: d.log else d.log⟩ := by
      simp [finish, timely, w]
    rw [same, expire_eq writes rfl rfl]
    exact ⟨w, .ends writes comes⟩

theorem ended?_of_does {w : Option Write} (does : Does settings script d d' w) : ended? d d' = w := by
  cases does with
  | begins idle => simp only [ended?, idle]
  | rests ended => simp only [ended?, ended]
  | @ends w writing comes =>
    obtain ⟨frame, since, till, completed⟩ := w
    simp only [ended?, writing]
    cases completed <;> simp

/-- A step does what it can, and no more. -/
theorem does_step (settings : Settings) (script : Script) (d : Delivery) :
    Does settings script d (d.step settings script) (ended? d (d.step settings script)) := by
  cases phase : d.writer.phase with
  | idle =>
    have does : Does settings script d (d.begin settings script) none := does_begin phase
    simpa only [step, phase, ended?_of_does does] using does
  | writing frame since =>
    obtain ⟨w, does⟩ : ∃ w, Does settings script d (d.finish settings script frame since) (some w) := does_finish phase
    simpa only [step, phase, ended?_of_does does] using does
  | ended when =>
    have does : Does settings script d d none := .rests phase
    simpa only [step, phase, ended?_of_does does] using does

theorem Does.of_ended {w : Option Write} (does : Does settings script d d' w) (ended : d.writer.hasEnded = true) :
    d' = d ∧ w = none := by
  cases does with
  | rests => exact ⟨rfl, rfl⟩
  | begins idle => simp [Writer.hasEnded, idle] at ended
  | ends writing => simp [Writer.hasEnded, writing] at ended

/-- A writer that has ended stays as it is. -/
theorem steps_of_ended {n m : Nat} (ended : (steps settings script n).writer.hasEnded = true) (later : n ≤ m) :
    steps settings script m = steps settings script n ∧ writes settings script m = writes settings script n := by
  induction later with
  | refl => exact ⟨rfl, rfl⟩
  | @step m later ih =>
    obtain ⟨same, all⟩ := ih
    rw [← same] at ended
    obtain ⟨stays, nothing⟩ := (does_step settings script (steps settings script m)).of_ended ended
    refine ⟨stays.trans same, ?_⟩
    rw [writes, steps, nothing, all, Option.toList_none, List.append_nil]

end Delivery

end HelpDesk
