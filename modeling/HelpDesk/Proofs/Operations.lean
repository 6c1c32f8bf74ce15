import HelpDesk.Proofs.Announcements

/-! What the parties do, each as an operation of its own. However operations take turns, every conversation that one of
them creates or moves is announced in the turn that this operation has next, and nothing else is announced. -/

namespace HelpDesk

inductive Operation
  | start (starter : Identity) (content : String) (label : Option String)
  | close (id : ConversationId) (party : Identity)
  | memberJoined (id : ConversationId) (party : Identity)
  | messageStored (read : Conversation) (party : Identity)
  | enter (c : Connection)
  | text (c : Connection) (text : String)
  | leave (c : Connection)

def Program.ignore {α : Type} (program : Program α) : Program Unit :=
  program.bind fun _ => .done ()

theorem Program.Announces.ignore {α : Type} {allowed : Request → Prop} {pending : Option Parcel} {program : Program α}
    (announces : program.Announces allowed pending) : program.ignore.Announces allowed pending :=
  announces.bind fun _ => .done ()

def Operation.program (settings : Settings) : Operation → Program Unit
  | start starter content label => (Intake.start starter content label).ignore
  | close id party => (Lifecycle.close id party).ignore
  | memberJoined id party => (Lifecycle.memberJoined id party).ignore
  | messageStored read party => (Lifecycle.messageStored read party).ignore
  | enter c => (c.enter settings).ignore
  | text c words => (c.handleText settings words).ignore
  | leave c => c.leave

/-- Does a request let the session into the room, or is it for it alone? -/
def Request.isTo (room : ConversationId) (session : SessionId) : Request → Prop
  | join other who _ _ _ | rooms (.sendTo other who _) | rooms (.release other who _) => other = room ∧ who = session
  | rooms (.leave _ _) | rooms (.broadcast _ _) | store _ | roomCount => False

/-- May the operation make all of its requests, if it may ask the store and show something to the dashboards? -/
def Operation.Permitted (allowed : Request → Prop) : Operation → Prop
  | start _ _ _ | close _ _ | memberJoined _ _ | messageStored _ _ => True
  | enter c => (∀ capacity, allowed (.join c.room c.session c.identity capacity c.isDashboard)) ∧
    (c.room = .dashboard → ∀ lead, allowed (.rooms (.release .dashboard c.session lead)))
  | text c _ => c.room ≠ .dashboard → ∀ parcel,
    allowed (.rooms (.broadcast c.room parcel)) ∧ allowed (.rooms (.sendTo c.room c.session parcel))
  | leave c => allowed (.rooms (.leave c.room c.session))

theorem Operation.announces {allowed : Request → Prop} (serves : Program.Serves allowed) {operation : Operation}
    (permitted : operation.Permitted allowed) (settings : Settings) :
    (operation.program settings).Announces allowed none := by
  cases operation with
  | start starter content label => exact .ignore (Intake.announces_start serves starter content label)
  | close id party => exact .ignore (Lifecycle.announces_close serves.permits id party)
  | memberJoined id party => exact .ignore (Lifecycle.announces_memberJoined serves.permits id party)
  | messageStored read party => exact .ignore (Lifecycle.announces_messageStored serves.permits read party)
  | enter c => exact .ignore (Connection.announces_enter serves permitted.1 permitted.2 settings)
  | text c words =>
    have chat (other : c.room ≠ .dashboard) (parcel : Parcel) := (permitted other parcel).1
    have refusal (other : c.room ≠ .dashboard) (parcel : Parcel) := (permitted other parcel).2
    exact .ignore (Connection.announces_handleText serves chat refusal settings words)
  | leave c => exact .ask permitted rfl fun _ => .done ()

theorem Operation.permitted_true (operation : Operation) : operation.Permitted fun _ => True := by
  cases operation <;> simp [Permitted]

/-- An operation lets no other session into the room of the dashboards, releases none and sends none a frame of its own. -/
theorem Operation.permitted_apart {operation : Operation} {session : SessionId}
    (other : ∀ c, operation = .enter c → c.room = .dashboard → c.session ≠ session) :
    operation.Permitted fun request => ¬ request.isTo .dashboard session := by
  cases operation with
  | start _ _ _ | close _ _ | memberJoined _ _ | messageStored _ _ => trivial
  | enter c =>
    have apart : ¬ (c.room = .dashboard ∧ c.session = session) := fun both => other c rfl both.1 both.2
    exact ⟨fun _ => apart, fun room _ same => apart ⟨room, same.2⟩⟩
  | text c words => exact fun elsewhere _ => ⟨id, fun same => elsewhere same.1⟩
  | leave c => exact id

def Execution.of (hub : Hub) (operations : List Operation) : Execution Unit :=
  ⟨hub, operations.map (·.program hub.settings)⟩

/-- The same operation announces what it committed, and that in its next turn. -/
structure Orderly (log : List Occurrence) : Prop where
  /-- what is announced was committed in the turn before -/
  after : ∀ before o later parcel, log = before ++ o :: later → o.announced? = some parcel →
    ∃ task hub request c, o = .asked task hub request ∧ announcement c = some parcel ∧
      (before.filter (·.isOf task)).getLast?.bind (·.committed?) = some c
  /-- what is committed is announced in the turn after -/
  before : ∀ before task hub request later c, log = before ++ .asked task hub request :: later →
    (Occurrence.asked task hub request).committed? = some c →
    ∀ o ∈ (later.filter (·.isOf task)).head?, o.announced? = announcement c

namespace Execution
variable {α : Type} {x y : Execution α} {turns : List Turn} {log : List Occurrence} {allowed : Request → Prop}

/-- A task that has a turn was there from the start, and the turns that it had are a way through its program. -/
theorem run_program (runs : x.run turns = (log, y)) {before later : List Occurrence} {task : Nat} {hub : Hub}
    {request : Request} (split : log = before ++ .asked task hub request :: later) :
    ∃ program last, x.tasks[task]? = some program ∧
      program.Path (before.filter (·.isOf task) ++ .asked task hub request :: later.filter (·.isOf task)) last := by
  obtain ⟨first, turn, rest, u, v, -, earlier, now, -⟩ := run_split (split ▸ runs)
  obtain ⟨moment, next, there, -, -⟩ := next_asked now
  obtain ⟨bound, -⟩ := List.getElem?_eq_some_iff.mp there
  rw [run_length earlier] at bound
  obtain ⟨last, -, path⟩ := run_path runs (List.getElem?_eq_getElem bound)
  refine ⟨_, last, List.getElem?_eq_getElem bound, ?_⟩
  rw [split] at path
  simpa [Occurrence.isOf] using path

theorem turns_of_none (runs : x.run turns = (log, y)) {task : Nat} (none : x.tasks[task]? = none) :
    log.filter (·.isOf task) = [] := by
  rw [List.filter_eq_nil_iff]
  intro o there mine
  cases o with
  | received queue => cases mine
  | gone queue => cases mine
  | asked number found request =>
    obtain rfl : number = task := by simpa [Occurrence.isOf] using mine
    obtain ⟨before, later, split⟩ := List.append_of_mem there
    obtain ⟨program, last, own, -⟩ := run_program runs split
    cases none.symm.trans own

theorem run_allowed (runs : x.run turns = (log, y)) {task : Nat} {program : Program α}
    (there : x.tasks[task]? = some program) {pending : Option Parcel} (announces : program.Announces allowed pending)
    {hub : Hub} {request : Request} (asked : .asked task hub request ∈ log) : allowed request := by
  obtain ⟨last, -, path⟩ := run_path runs there
  have own : .asked task hub request ∈ log.filter (·.isOf task) := by
    simpa [Occurrence.isOf] using asked
  obtain ⟨_, _, _, same, permitted⟩ := (path.announces announces).1 _ own
  cases same
  exact permitted

theorem run_orderly (allowed : Request → Prop) (runs : x.run turns = (log, y))
    (announces : ∀ (task : Nat) program, x.tasks[task]? = some program → program.Announces allowed none) :
    Orderly log := by
  refine ⟨?_, ?_⟩
  · intro before o later parcel split announced
    cases o with
    | received queue => cases announced
    | gone queue => cases announced
    | asked task hub request =>
      obtain ⟨program, last, there, path⟩ := run_program runs split
      have owed := (path.announces (announces task program there)).2.1 _ _ _ rfl
      rw [announced, Program.owed_none] at owed
      obtain ⟨c, committed, same⟩ := Option.bind_eq_some_iff.mp owed.symm
      exact ⟨task, hub, request, c, rfl, same, committed⟩
  · intro before task hub request later c split committed o next
    obtain ⟨program, last, there, path⟩ := run_program runs split
    obtain ⟨rest, own⟩ := List.head?_eq_some_iff.mp next
    have owed := (path.announces (announces task program there)).2.1
      (before.filter (·.isOf task) ++ [.asked task hub request]) o rest (by simp [own])
    rw [owed]
    simp [Program.owed, committed]

/-- A task that has finished has announced whatever it committed, if there is a frame for it. -/
theorem announced_of_committed (runs : x.run turns = (log, y))
    (announces : ∀ (task : Nat) program, x.tasks[task]? = some program → program.Announces allowed none)
    (finished : ∀ program ∈ y.tasks, program.value?.isSome) {before later : List Occurrence} {task : Nat} {hub : Hub}
    {request : Request} {c : Conversation} (split : log = before ++ .asked task hub request :: later)
    (committed : (Occurrence.asked task hub request).committed? = some c) (framed : (announcement c).isSome) :
    ∃ middle o rest, later = middle ++ o :: rest ∧ (∀ p ∈ middle, p.isOf task = false) ∧ o.isOf task = true ∧
      o.announced? = announcement c := by
  obtain ⟨program, _, there, -⟩ := run_program runs split
  obtain ⟨last, ends, path⟩ := run_path runs there
  obtain ⟨value, result⟩ := Option.isSome_iff_exists.mp (finished last (List.mem_of_getElem? ends))
  rw [Program.eq_done_of_value? result, split] at path
  have final := (path.announces (announces task program there)).2.2
  generalize pending : Program.owed none _ = owed at final
  cases final
  rw [Program.owed_none] at pending
  cases own : later.filter (·.isOf task) with
  | nil =>
    have turn : (Occurrence.asked task hub request).isOf task = true := beq_self_eq_true task
    rw [List.filter_append, List.filter_cons_of_pos turn, own, List.getLast?_concat, Option.bind_some, committed] at pending
    rw [show announcement c = none from pending] at framed
    cases framed
  | cons o rest =>
    obtain ⟨middle, tail, rfl, others, mine, -⟩ := List.filter_eq_cons_iff.mp own
    refine ⟨middle, o, tail, rfl, fun p there => by simpa using others p there, mine, ?_⟩
    exact (run_orderly allowed runs announces).before _ _ _ _ _ _ split committed o (by rw [own]; rfl)

end Execution

end HelpDesk
