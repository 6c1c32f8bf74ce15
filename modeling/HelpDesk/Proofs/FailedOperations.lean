import HelpDesk.Http.Routes
import HelpDesk.Proofs.ConversationRows

/-! Operations that fail leave no trace. An operation writes once, in one request, and whatever it does after that is no
failure any more. So a program leaves the hub as it found it or comes to a value that tells what it has written; this is
shown for one request and carried over from the parts of a program to the program. -/

namespace HelpDesk

/-- Nothing but coming faults is different. -/
structure Hub.Untouched (h k : Hub) : Prop where
  same : k = { h with faults := k.faults }
  inherits : h.Inherits k

namespace Hub.Untouched
variable {h k l : Hub}

theorem refl (h : Hub) : h.Untouched h :=
  ⟨rfl, .refl h⟩

theorem trans (first : h.Untouched k) (last : k.Untouched l) : h.Untouched l where
  same := by
    rw [last.same, first.same]
  inherits := first.inherits.trans last.inherits

theorem of_faults {faults : Store.Method → List (Option Fault)} (inherits : h.Inherits { h with faults }) :
    h.Untouched { h with faults } :=
  ⟨rfl, inherits⟩

theorem store (untouched : h.Untouched k) : k.store = h.store := by
  rw [untouched.same]

theorem registry (untouched : h.Untouched k) : k.registry = h.registry := by
  rw [untouched.same]

theorem readings (untouched : h.Untouched k) : k.readings = h.readings := by
  rw [untouched.same]
  rfl

end Hub.Untouched

/-- The moments of what is stored. -/
structure Store.Dated (dated : Moment → Prop) (s : Store) : Prop where
  conversations : ∀ c ∈ s.conversations, dated c.createdAt ∧ dated c.updatedAt
  messages : ∀ m ∈ s.messages, dated m.createdAt

/-- A hub where nobody moves conversations behind the back of a request, and what the clock shows and what is stored is
dated like this. -/
structure Hub.Orderly (dated : Moment → Prop) (h : Hub) : Prop where
  undisturbed : h.Undisturbed
  clock : ∀ n, dated (h.readings n)
  store : h.store.Dated dated

theorem Hub.Undisturbed.orderly {h : Hub} (undisturbed : h.Undisturbed) : h.Orderly fun _ => True :=
  ⟨undisturbed, fun _ => trivial, fun _ _ => ⟨trivial, trivial⟩, fun _ _ => trivial⟩

theorem Hub.Orderly.untouched {dated : Moment → Prop} {h k : Hub} (orderly : h.Orderly dated) (same : h.Untouched k) :
    k.Orderly dated where
  undisturbed := same.inherits.undisturbed orderly.undisturbed
  clock := same.readings ▸ orderly.clock
  store := same.store ▸ orderly.store

/-- Does the request only look at what is stored? -/
def Store.Call.reads : Store.Call → Bool
  | get _ | findActive _ | listActive | listMessages _ _ _ => true
  | createMessage _ | setStatus _ _ _ | start _ _ _ => false

/-- What is answered by a request that does more, with its moments. A start that finds an active conversation writes
nothing, but it has used up identifiers. -/
inductive Store.Writes (dated : Moment → Prop) : (call : Store.Call) → call.Answer → Prop
  | posted {draft : Draft} {m : Message} (sent : dated m.createdAt) : Writes dated (.createMessage draft) m
  | moved {id : ConversationId} {status : Status} {assignee : Option UserId} {c : Conversation} (created : dated c.createdAt)
      (updated : dated c.updatedAt) : Writes dated (.setStatus id status assignee) c
  | created {starter : Identity} {label content : String} {c : Conversation} {m : Message} (created : dated c.createdAt)
      (updated : dated c.updatedAt) (sent : dated m.createdAt) :
      Writes dated (.start starter label content) (Start.created c m)
  | found {starter : Identity} {label content : String} {c : Conversation} (created : dated c.createdAt)
      (updated : dated c.updatedAt) : Writes dated (.start starter label content) (Start.alreadyOpen c)

theorem Store.mem_of_findActive {s : Store} {owner : UserId} {c : Conversation} (active : s.findActive owner = some c) :
    c ∈ s.conversations :=
  List.mem_of_mem_filter (List.maxOn?_mem active)

/-- What becomes of a hub that was asked to carry out a request. -/
inductive Hub.Carries (dated : Moment → Prop) (h : Hub) (call : Store.Call) : Except StoreError call.Answer × Hub → Prop
  | failed (error : StoreError) {k : Hub} (untouched : h.Untouched k) : Carries dated h call (.error error, k)
  | read (reads : call.reads = true) (answer : call.Answer) {k : Hub} (untouched : h.Untouched k) :
      Carries dated h call (.ok answer, k)
  | wrote {answer : call.Answer} (writes : Store.Writes dated call answer) (k : Hub) : Carries dated h call (.ok answer, k)

theorem Hub.perform_carries {dated : Moment → Prop} {h : Hub} (orderly : h.Orderly dated) (call : Store.Call) :
    h.Carries dated call (h.perform call) := by
  unfold Hub.perform
  cases performed : h.store.perform h.readings h.fresh call with
  | error error => exact .failed error (.refl h)
  | ok result =>
    obtain ⟨answer, store⟩ := result
    cases Store.performed_of_ok performed with
    | got | foundActive | listedActive | listedMessages => exact .read rfl _ (.refl h)
    | alreadyOpen active =>
      obtain ⟨created, updated⟩ := orderly.store.conversations _ (Store.mem_of_findActive active)
      exact .wrote (.found created updated) _
    | posted => exact .wrote (.posted (orderly.clock 0)) _
    | moved stored moves row =>
      have created := (orderly.store.conversations _ (Store.mem_of_get? stored)).1
      exact .wrote (.moved (row ▸ created) (row ▸ orderly.clock 0)) _
    | created vacant row opening =>
      subst row opening
      exact .wrote (.created (orderly.clock 0) (orderly.clock 0) (orderly.clock 1)) _

theorem Hub.Carries.after {dated : Moment → Prop} {h k : Hub} {call : Store.Call} {outcome : Except StoreError call.Answer × Hub}
    (untouched : h.Untouched k) (carries : k.Carries dated call outcome) : h.Carries dated call outcome := by
  cases carries with
  | failed error more => exact .failed error (untouched.trans more)
  | read reads answer more => exact .read reads answer (untouched.trans more)
  | wrote writes l => exact .wrote writes l

theorem Hub.callStore_carries {dated : Moment → Prop} {h : Hub} (orderly : h.Orderly dated) (call : Store.Call) :
    h.Carries dated call (h.callStore call) := by
  have goes := h.callStore_goes call
  generalize h.callStore call = outcome at goes
  cases goes with
  | failed error faults inherits => exact .failed error (.of_faults inherits)
  | performed faults inherits =>
    have used := Untouched.of_faults inherits
    exact (perform_carries (orderly.untouched used) call).after used
  | overtaken status faults inherits disturbed => exact (disturbed orderly.undisturbed).elim

/-- A request to the store that fails changes no table, whatever faults are to come. -/
theorem Hub.callStore_error {h : Hub} {call : Store.Call} {error : StoreError} (failed : (h.callStore call).1 = .error error) :
    h.Untouched (h.callStore call).2 := by
  have goes := h.callStore_goes call
  generalize h.callStore call = outcome at goes failed
  cases goes with
  | failed error faults inherits => exact .of_faults inherits
  | performed faults inherits =>
    refine (Untouched.of_faults inherits).trans ?_
    unfold Hub.perform at failed ⊢
    split at failed
    · cases failed
    · exact .refl _
  | overtaken => cases failed

namespace Program
variable {α β : Type} {dated : Moment → Prop}

/-- The program leaves the hub as it was, or comes to a value that tells what it has written. -/
def Leaves (dated : Moment → Prop) (written : α → Prop) (program : Program α) : Prop :=
  ∀ h : Hub, h.Orderly dated → h.Untouched (h.run program).2 ∨ written (h.run program).1

/-- Whatever the store replies and whoever reads queues meanwhile, the program comes to such a value. -/
def Ends (written : α → Prop) (program : Program α) : Prop :=
  ∀ h : Hub, written (h.run program).1

variable {written : α → Prop} {final : β → Prop} {program : Program α} {next : α → Program β}

theorem leaves_done (value : α) : (Program.done value).Leaves dated written :=
  fun h _ => .inl (.refl h)

theorem Leaves.bind (first : program.Leaves dated written) (rest : ∀ value, (next value).Leaves dated final)
    (ends : ∀ value, written value → (next value).Ends final) : (program.bind next).Leaves dated final := by
  intro h orderly
  simp only [Hub.run, run_bind]
  rcases first h orderly with untouched | wrote
  · exact (rest _ _ (orderly.untouched untouched)).imp untouched.trans id
  · exact .inr (ends _ wrote _)

theorem Ends.after (program : Program α) (rest : ∀ value, (next value).Ends final) : (program.bind next).Ends final := by
  intro h
  simp only [Hub.run, run_bind]
  exact rest _ _

theorem run_store_bind {call : Store.Call} (h : Hub) (next : Except StoreError call.Answer → Program β) :
    h.run ((Program.store call).bind next) = (h.callStore call).2.run (next (h.callStore call).1) :=
  rfl

theorem leaves_read (call : Store.Call) {next : Except StoreError call.Answer → Program β} (reads : call.reads = true)
    (rest : ∀ reply, (next reply).Leaves dated final) : ((Program.store call).bind next).Leaves dated final := by
  intro h orderly
  have carries := Hub.callStore_carries orderly call
  rw [run_store_bind]
  generalize h.callStore call = outcome at carries
  cases carries with
  | failed error untouched | read _ answer untouched =>
    exact (rest _ _ (orderly.untouched untouched)).imp untouched.trans id
  | wrote writes k => cases writes <;> cases reads

theorem leaves_write (call : Store.Call) {next : Except StoreError call.Answer → Program β} (writes : call.reads = false)
    (failed : ∀ error, (next (.error error)).Leaves dated final)
    (wrote : ∀ answer, Store.Writes dated call answer → (next (.ok answer)).Ends final) :
    ((Program.store call).bind next).Leaves dated final := by
  intro h orderly
  have carries := Hub.callStore_carries orderly call
  rw [run_store_bind]
  generalize h.callStore call = outcome at carries
  cases carries with
  | failed error untouched => exact (failed error _ (orderly.untouched untouched)).imp untouched.trans id
  | read reads => cases writes.symm.trans reads
  | wrote wrote' k => exact .inr (wrote _ wrote' k)

end Program

section Operations
variable {dated : Moment → Prop}

/-- A result that tells of a conversation. -/
def Tells {ε : Type} (dated : Moment → Prop) (result : Except ε Conversation) : Prop :=
  ∃ c, result = .ok c ∧ dated c.createdAt ∧ dated c.updatedAt

theorem Lifecycle.leaves_move (id : ConversationId) (status : Status) (assignee : Option UserId) :
    (Lifecycle.move id status assignee).Leaves dated (Tells dated) := by
  refine Program.leaves_write (.setStatus id status assignee) rfl (fun error => Program.leaves_done _) ?_
  rintro moved (_ | ⟨created, updated⟩)
  exact .after _ fun _ _ => ⟨moved, rfl, created, updated⟩

theorem Lifecycle.leaves_openIfPending (c : Conversation) (party : Identity) :
    (Lifecycle.openIfPending c party).Leaves dated fun result => ∃ moved, result = .ok moved := by
  unfold Lifecycle.openIfPending
  split
  · refine (Lifecycle.leaves_move _ _ _).bind (fun result => ?_) ?_
    · rcases result with (_ | _ | _ | _) | opened <;> exact Program.leaves_done _
    · rintro _ ⟨opened, rfl, -⟩ h
      exact ⟨some opened, rfl⟩
  · exact Program.leaves_done _

theorem Lifecycle.leaves_messageStored (c : Conversation) (party : Identity) :
    (Lifecycle.messageStored c party).Leaves dated fun result => ∃ moved, result = .ok moved :=
  Lifecycle.leaves_openIfPending c party

theorem Lifecycle.leaves_memberJoined (id : ConversationId) (party : Identity) :
    (Lifecycle.memberJoined id party).Leaves dated fun result => ∃ moved, result = .ok moved := by
  unfold Lifecycle.memberJoined
  split
  · refine Program.leaves_read (.get id) rfl fun reply => ?_
    cases reply with
    | error error => exact Program.leaves_done _
    | ok c => exact Lifecycle.leaves_openIfPending c party
  · exact Program.leaves_done _

theorem Lifecycle.leaves_close (id : ConversationId) (party : Identity) :
    (Lifecycle.close id party).Leaves dated (Tells dated) := by
  refine Program.leaves_read (.get id) rfl fun reply => ?_
  cases reply with
  | error error => exact Program.leaves_done _
  | ok c =>
    dsimp only
    split
    · exact Program.leaves_done _
    · split
      · exact Program.leaves_done _
      · exact Lifecycle.leaves_move _ _ _

/-- A start that tells of a conversation, and of its first message if there was none before. -/
inductive Started (dated : Moment → Prop) : Except IntakeError Start → Prop
  | created {c : Conversation} {m : Message} (created : dated c.createdAt) (updated : dated c.updatedAt)
      (sent : dated m.createdAt) : Started dated (.ok (.created c m))
  | found {c : Conversation} (created : dated c.createdAt) (updated : dated c.updatedAt) :
      Started dated (.ok (.alreadyOpen c))

theorem Intake.leaves_start (party : Identity) (content : String) (label : Option String) :
    (Intake.start party content label).Leaves dated (Started dated) := by
  unfold Intake.start
  split
  · exact Program.leaves_done _
  · refine Program.leaves_write (.start party _ _) rfl (fun error => Program.leaves_done _) ?_
    intro answer writes
    cases writes with
    | created created updated sent => exact .after _ fun _ _ => .created created updated sent
    | found created updated => exact fun _ => .found created updated

end Operations

section Starts

/-- A start that is tried at some moment. -/
structure Starting where
  now : Moment
  starter : Identity
  content : String
  label : Option String

namespace Hub

def attempt (h : Hub) (a : Starting) : Except IntakeError Start × Hub :=
  ({ h with clock := a.now } : Hub).run (Intake.start a.starter a.content a.label)

/-- What the attempts, one after the other, make of the hub. -/
def afterAttempts (h : Hub) : List Starting → Hub
  | [] => h
  | a :: attempts => (h.attempt a).2.afterAttempts attempts

/-- The attempts fail one after the other, each for a reason of its own. -/
def Fail (h : Hub) : List Starting → Prop
  | [] => True
  | a :: attempts => (∃ error, (h.attempt a).1 = .error error) ∧ (h.attempt a).2.Fail attempts

/-- The hub with a store that works. -/
def working (h : Hub) : Hub :=
  { h with reachable := true, faults := fun _ => [] }

theorem attempt_untouched {h : Hub} (undisturbed : h.Undisturbed) {a : Starting} {error : IntakeError}
    (failed : (h.attempt a).1 = .error error) : ({ h with clock := a.now } : Hub).Untouched (h.attempt a).2 := by
  have orderly : ({ h with clock := a.now } : Hub).Orderly fun _ => True := Undisturbed.orderly undisturbed
  refine (Intake.leaves_start a.starter a.content a.label _ orderly).resolve_right fun started => ?_
  change Started _ (h.attempt a).1 at started
  rw [failed] at started
  cases started

theorem run_inherits {α : Type} (h : Hub) (program : Program α) : h.Inherits (h.run program).2 := by
  induction program generalizing h with
  | done value => exact .refl h
  | ask request rest ih => exact (h.answer_inherits request).trans (ih _ _)

theorem attempt_undisturbed {h : Hub} (undisturbed : h.Undisturbed) (a : Starting) : (h.attempt a).2.Undisturbed :=
  (run_inherits { h with clock := a.now } _).undisturbed undisturbed

theorem afterAttempts_undisturbed {h : Hub} (undisturbed : h.Undisturbed) (attempts : List Starting) :
    (h.afterAttempts attempts).Undisturbed := by
  induction attempts generalizing h with
  | nil => exact undisturbed
  | cons a attempts ih =>
    rw [afterAttempts]
    exact ih (attempt_undisturbed undisturbed a)

/-- Failed attempts move the clock on and use up faults, and that is all. -/
theorem Fail.exists_eq {h : Hub} (undisturbed : h.Undisturbed) {attempts : List Starting} (fail : h.Fail attempts) :
    ∃ clock faults, h.afterAttempts attempts = { h with clock, faults } := by
  induction attempts generalizing h with
  | nil => exact ⟨h.clock, h.faults, rfl⟩
  | cons a attempts ih =>
    obtain ⟨⟨error, failed⟩, others⟩ := fail
    have untouched := attempt_untouched undisturbed failed
    have still := attempt_undisturbed undisturbed a
    rw [afterAttempts]
    generalize (h.attempt a).2 = k at untouched others still
    obtain ⟨clock, faults, same⟩ := ih still others
    obtain ⟨spent, rfl⟩ : ∃ spent, k = { h with clock := a.now, faults := spent } := ⟨_, untouched.same⟩
    exact ⟨clock, faults, same⟩

theorem working_announce (h : Hub) (c : Conversation) :
    h.working.run (Dashboard.announce c) = ((), (h.run (Dashboard.announce c)).2.working) := by
  unfold Dashboard.announce Program.broadcast
  split <;> rfl

theorem perform_ok {h k : Hub} {call : Store.Call} {answer : call.Answer} (carried : h.perform call = (.ok answer, k)) :
    ∃ store, h.store.perform h.readings h.fresh call = .ok (answer, store) ∧
      k = { h with store, minted := h.minted + call.creates } := by
  unfold perform at carried
  split at carried
  next result store performed =>
    cases carried
    exact ⟨store, performed, rfl⟩
  next => cases carried

theorem perform_of_ok {h : Hub} {call : Store.Call} {answer : call.Answer} {store : Store}
    (performed : h.store.perform h.readings h.fresh call = .ok (answer, store)) :
    h.perform call = (.ok answer, { h with store, minted := h.minted + call.creates }) := by
  rw [perform, performed]

/-- A request that succeeds does so, and does the same, where nothing fails. -/
theorem working_callStore {h k : Hub} (undisturbed : h.Undisturbed) {call : Store.Call} {answer : call.Answer}
    (carried : h.callStore call = (.ok answer, k)) : h.working.callStore call = (.ok answer, k.working) := by
  have goes := h.callStore_goes call
  rw [carried] at goes
  generalize outcome : (Except.ok answer, k) = result at goes
  cases goes with
  | failed => cases outcome
  | performed faults inherits =>
    obtain ⟨store, performed, rfl⟩ := perform_ok outcome.symm
    exact perform_of_ok (h := h.working) performed
  | overtaken status faults inherits disturbed => exact (disturbed undisturbed).elim

/-- A start that succeeds does so, and does the same, where nothing fails. -/
theorem working_start {h k : Hub} (undisturbed : h.Undisturbed) {starter : Identity} {content : String}
    {label : Option String} {outcome : Start} (started : h.run (Intake.start starter content label) = (.ok outcome, k)) :
    h.working.run (Intake.start starter content label) = (.ok outcome, k.working) := by
  unfold Intake.start at started ⊢
  split at started
  · cases started
  · next content label checked =>
    change Hub.run h ((Program.store (.start starter label content)).bind _) = _ at started
    show Hub.run h.working ((Program.store (.start starter label content)).bind _) = _
    rw [Program.run_store_bind] at started ⊢
    rcases carried : h.callStore (.start starter label content) with ⟨error | answer, l⟩
    · rw [carried] at started
      cases started
    · rw [carried] at started
      rw [working_callStore undisturbed carried]
      cases answer with
      | alreadyOpen c =>
        cases started
        rfl
      | created c m =>
        have announced := working_announce l c
        change (l.run ((Dashboard.announce c).bind _)) = _ at started
        show (l.working.run ((Dashboard.announce c).bind _)) = _
        simp only [Hub.run, Program.run_bind] at announced started ⊢
        rw [announced]
        cases started
        rfl

end Hub

end Starts

end HelpDesk
