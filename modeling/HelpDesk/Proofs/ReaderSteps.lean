import HelpDesk.Proofs.ConnectionTexts
import HelpDesk.Proofs.ReadingExtent
import HelpDesk.Proofs.ServiceSteps

/-! What a step of a connection comes to for its reader. One that is not the reader's own only goes on with what the reader has
to do; with an item the reader takes in a text, waits on, or stops. -/

namespace HelpDesk

namespace Program

theorem bind_done (program : Program Unit) : (program.bind fun _ => .done ()) = program := by
  induction program with
  | done => rfl
  | ask request next ih => exact congrArg (Program.ask request) (funext ih)

theorem Path.bind {α β : Type} {program last : Program α} {os : List Occurrence} (path : program.Path os last)
    (next : α → Program β) : (program.bind next).Path os (last.bind next) := by
  induction path with
  | nil program => exact .nil _
  | cons task hub path ih => exact .cons task hub ih

end Program

namespace Connection
variable (c : Connection) (settings : Settings)

theorem ignore_readTexts_cons (text : String) (texts : List String) : (c.readTexts settings (text :: texts)).ignore =
    (c.handleText settings text).ignore.bind fun _ => (c.readTexts settings texts).ignore := by
  simp only [Program.ignore, readTexts, Bind.bind, pure, Program.bind_assoc, Program.bind]

theorem ignore_readTexts_append (first last : List String) : (c.readTexts settings (first ++ last)).ignore =
    (c.readTexts settings first).ignore.bind fun _ => (c.readTexts settings last).ignore := by
  induction first with
  | nil => rfl
  | cons text first ih =>
    rw [List.cons_append, ignore_readTexts_cons, ignore_readTexts_cons, ih, Program.bind_assoc]

theorem ignore_readTexts_singleton (text : String) :
    (c.readTexts settings [text]).ignore = (c.handleText settings text).ignore := by
  rw [ignore_readTexts_cons]
  exact Program.bind_done _

end Connection

namespace Hub

theorem answer_settings (h : Hub) (request : Request) : (h.answer request).2.settings = h.settings := by
  cases request with
  | rooms | join | roomCount => rfl
  | store call =>
    have goes := h.callStore_goes call
    show (h.callStore call).2.settings = h.settings
    generalize h.callStore call = outcome at goes
    have performs (k : Hub) : (k.perform call).2.settings = k.settings := by
      unfold perform
      split <;> rfl
    cases goes with
    | failed => rfl
    | performed faults => exact performs _
    | @overtaken status faults _ _ answer k performed =>
      have moved : (k.moveIfPossible call.subject status).settings = k.settings := by
        unfold moveIfPossible
        split <;> rfl
      have same := performs { h with faults }
      rw [performed] at same
      exact moved.trans same

theorem run_settings {α : Type} (h : Hub) (program : Program α) : (h.run program).2.settings = h.settings := by
  induction program generalizing h with
  | done => rfl
  | ask request next ih => exact (ih _ (h.answer request).2).trans (h.answer_settings request)

end Hub

namespace Session
variable (s : Session) (h : Hub) (now : Instant)

theorem readerStops_settings : (s.readerStops h now).2.settings = h.settings := by
  unfold readerStops
  split
  · exact h.run_settings _
  · rfl
  · rfl

theorem writerStops_settings : (s.writerStops h).2.settings = h.settings := by
  unfold writerStops
  split
  · exact h.run_settings s.connection.leave
  · rfl
  · rfl

theorem expireStage_settings : (s.expireStage h now).2.settings = h.settings := by
  unfold expireStage
  split
  · split
    · exact s.readerStops_settings h now
    · rfl
  · split <;> rfl
  · rfl

theorem hear_settings (item : Inbound) : (s.hear h now item).2.settings = h.settings := by
  unfold hear
  split
  · split
    · exact s.readerStops_settings h now
    · split
      · exact h.run_settings _
      · rfl
  · rfl
  · rfl

theorem withWriter_settings (writer : Writer) : (s.withWriter h writer).2.settings = h.settings := by
  unfold withWriter
  split <;> rfl

variable {s h now}

theorem Begins.keeps {frame : SocketFrame} {t : Session} {k : Hub} (begins : s.Begins h now frame t k) :
    t.stage = s.stage ∧ t.connection = s.connection ∧ k.settings = h.settings := by
  cases begins <;> exact ⟨rfl, rfl, rfl⟩

end Session

namespace Service
variable {h : Hub} {s : Session} {work : Program Unit} {sent : List SocketFrame}

def stage? : Service → Option Session.Stage
  | entering _ _ _ => none
  | live s _ _ => some s.stage

/-- The deadline of a reader that waits for what comes next. -/
def awaits? : Service → Option Instant
  | live s (.done _) _ =>
    match s.stage with
    | .serving deadline => some deadline
    | .draining _ | .finished => none
  | live _ (.ask _ _) _ | entering _ _ _ => none

theorem of_awaits? {t : Service} {deadline : Instant} (awaits : t.awaits? = some deadline) :
    ∃ s sent, t = .live s (.done ()) sent ∧ s.stage = .serving deadline := by
  cases t with
  | entering => cases awaits
  | live s work sent =>
    cases work with
    | ask => cases awaits
    | done =>
      refine ⟨s, sent, rfl, ?_⟩
      cases stage : s.stage <;> simp_all [awaits?]

/-- Does the reader get something, or is it its end? -/
def Step.reads : Step → Bool
  | hear _ _ | expire _ | conclude => true
  | proceed _ | begin _ _ | wrote _ _ | stall _ => false

/-- What a connection asks of a hub in a step. -/
def asks? (t : Service) (task : Nat) (h : Hub) : Step → Option Occurrence
  | .proceed _ =>
    match t.work with
    | .ask request _ => some (.asked task h request)
    | .done _ => none
  | .hear _ _ | .begin _ _ | .wrote _ _ | .stall _ | .conclude | .expire _ => none

theorem asks?_of_done {t : Service} (idle : t.work = .done ()) (task : Nat) (step : Step) :
    t.asks? task h step = none := by
  cases step <;> simp [asks?, idle]

/-- A step that is not the reader's leaves it as it is, or goes on with its work. -/
theorem step_aside (task : Nat) {step : Step} (aside : step.reads = false) : ∃ t work' sent',
    ((live s work sent).step h step).1 = .live t work' sent' ∧ t.stage = s.stage ∧ t.connection = s.connection ∧
      work.Path ((live s work sent).asks? task h step).toList work' := by
  have still (t : Session) (sent' : List SocketFrame) (stage : t.stage = s.stage) (same : t.connection = s.connection) :
      ∃ t' work' sent'', Service.live t work sent' = .live t' work' sent'' ∧ t'.stage = s.stage ∧
        t'.connection = s.connection ∧ work.Path [] work' :=
    ⟨t, work, sent', rfl, stage, same, .nil work⟩
  cases step with
  | hear | expire | conclude => cases aside
  | proceed now =>
    cases work with
    | done => exact ⟨s, _, sent, rfl, rfl, rfl, .nil _⟩
    | ask request next => exact ⟨s, _, sent, rfl, rfl, rfl, .cons task h (.nil _)⟩
  | begin now pingFirst =>
    simp only [step]
    cases began : s.begin? h now pingFirst with
    | none => exact still s sent rfl rfl
    | some result =>
      obtain ⟨frame, t, k⟩ := result
      obtain ⟨stage, same, -⟩ := (Session.begins_of_begin? began).2.keeps
      exact still t sent stage same
  | wrote now succeeded =>
    cases work <;>
    · simp only [step, wrote]
      split <;> exact still _ _ rfl rfl
  | stall now =>
    cases work <;>
    · simp only [step, stall]
      split
      · split <;> exact still _ _ rfl rfl
      · exact still _ _ rfl rfl

theorem step_settings (t : Service) (h : Hub) (step : Step) : (t.step h step).2.settings = h.settings := by
  cases t with
  | entering c queue work =>
    cases work with
    | done => cases step <;> rfl
    | ask request next =>
      cases step with
      | proceed now => exact h.answer_settings request
      | hear | begin | wrote | stall | conclude | expire => rfl
  | live s work sent =>
    cases step with
    | proceed now =>
      cases work with
      | done => rfl
      | ask request next => exact h.answer_settings request
    | hear now item =>
      cases work with
      | ask => rfl
      | done =>
        simp only [Service.step, hear]
        split
        · rfl
        · exact s.hear_settings h now _
    | expire now =>
      cases work with
      | ask => rfl
      | done => exact s.expireStage_settings h now
    | begin now pingFirst =>
      simp only [Service.step]
      cases began : s.begin? h now pingFirst with
      | none => rfl
      | some result =>
        obtain ⟨frame, t, k⟩ := result
        exact (Session.begins_of_begin? began).2.keeps.2.2
    | wrote now succeeded =>
      cases work <;>
      · simp only [Service.step, wrote]
        split
        · exact s.withWriter_settings h _
        · rfl
    | stall now =>
      cases work <;>
      · simp only [Service.step, stall]
        split
        · split
          · exact s.withWriter_settings h _
          · rfl
        · rfl
    | conclude =>
      simp only [Service.step]
      split
      · exact s.writerStops_settings h
      · rfl

/-- A reader that waits gets an item that is no end: it begins with what is to be done about it. -/
theorem step_hear {deadline now : Instant} {item : Inbound} (serving : s.stage = .serving deadline)
    (going : item.isLast = false) : ((live s (.done ()) sent).step h (.hear now item)).1 =
      .live { s with stage := .serving (if item.isPong then now + h.settings.pongWait else deadline) }
        (s.connection.readTexts h.settings item.text?.toList).ignore sent := by
  obtain ⟨c, queue, writer, stage⟩ := s
  subst serving
  cases item with
  | failure | finish => cases going
  | frame frame =>
    cases frame with
    | close => cases going
    | binary | ping | pong => rfl
    | text text => exact congrArg (live _ · sent) (c.ignore_readTexts_singleton h.settings text).symm

theorem step_last {deadline now : Instant} {item : Inbound} (serving : s.stage = .serving deadline)
    (last : item.isLast = true) : ((live s (.done ()) sent).step h (.hear now item)).1 =
      .live { s with stage := .draining (now + h.settings.writeWait) } (.done ()) sent := by
  have ends : Reader.next? h.settings.pongWait now deadline item = none := Reader.next?_of_last last deadline
  cases item with
  | failure | finish => simp [Service.step, hear, Session.hear, serving, Session.readerStops, ends]
  | frame frame =>
    cases frame with
    | close => simp [Service.step, hear, Session.hear, serving, Session.readerStops, ends]
    | text | binary | ping | pong => cases last

theorem step_expire {deadline : Instant} (serving : s.stage = .serving deadline) :
    ((live s (.done ()) sent).step h (.expire deadline)).1 =
      .live { s with stage := .draining (deadline + h.settings.writeWait) } (.done ()) sent := by
  simp [Service.step, Session.expireStage, serving, Session.readerStops]

/-- When its reader has stopped, and nothing is left to be done, a connection asks for nothing more. -/
theorem step_stopped (h : Hub) (sent : List SocketFrame) (stopped : ∀ deadline, s.stage ≠ .serving deadline) (step : Step) :
    ∃ t sent',
    ((live s (.done ()) sent).step h step).1 = .live t (.done ()) sent' ∧ ∀ deadline, t.stage ≠ .serving deadline := by
  obtain ⟨es, does, -⟩ := (live s (.done ()) sent).comes_step h step
  generalize ((live s (.done ()) sent).step h step).1 = t at does
  cases does with
  | takesIn reads | waits reads | leaves reads _ | concludes reads => exact absurd reads (stopped _)
  | finishes => exact ⟨_, _, rfl, fun _ same => by cases same⟩
  | nothing | pings | takes | closes | writes | ends | fails => exact ⟨_, _, rfl, stopped⟩

end Service

end HelpDesk
