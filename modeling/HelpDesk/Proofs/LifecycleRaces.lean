import HelpDesk.Proofs.ConversationRows

/-! Calls about one conversation that race for it. Each decides by a row that it has read, which may be out of date when it
asks the store to move the conversation; but the store decides by the row that it has then. -/

namespace HelpDesk

/-- What the requests of a call find: a store that does not fail, with the conversation at most as far as it is in the
end. -/
def Occurrence.Finds (final : Conversation) : Occurrence → Prop
  | asked _ hub _ => hub.Reliable ∧ ∃ c, hub.store.get? final.id = some c ∧ Store.Follows c final
  | received _ | gone _ => True

/-- What a status cannot become, no later one can become. -/
theorem Store.Follows.cannotBecome {c d : Conversation} (follows : Follows c d) {status : Status}
    (cannot : c.status.canBecome status = false) : d.status.canBecome status = false := by
  rcases follows.status with same | moves
  · rw [← same]
    exact cannot
  · cases allowed : d.status.canBecome status with
    | false => rfl
    | true =>
      have onward := moves.trans ((canBecome_iff_moves _ _).mp allowed)
      rw [(canBecome_iff_moves _ _).mpr onward] at cannot
      cases cannot

/-- A store that does not fail moves a conversation if it can. -/
theorem Hub.Reliable.setStatus {h : Hub} (reliable : h.Reliable) {id : ConversationId} {c : Conversation}
    (stored : h.store.get? id = some c) (status : Status) (assignee : Option UserId) :
    (h.answer (.store (.setStatus id status assignee))).1 =
      (if c.status.canBecome status then
        .ok { c with status, assignee := assignee <|> c.assignee, updatedAt := h.clock }
      else .error (.invalidTransition c.status status) : Except StoreError Conversation) := by
  apply (reliable.callStore _).trans
  simp only [Store.perform, Store.setStatus, stored]
  split <;> rfl

theorem Hub.Reliable.get {h : Hub} (reliable : h.Reliable) {id : ConversationId} {c : Conversation}
    (stored : h.store.get? id = some c) :
    (h.answer (.store (.get id))).1 = (.ok c : Except StoreError Conversation) := by
  apply (reliable.callStore _).trans
  simp only [Store.perform, Store.get, stored]
  rfl

namespace Lifecycle
open Store (Follows Moves)

/-- A call about a conversation. A message comes with the conversation as its sender has read it. -/
inductive Call
  | memberJoined (party : Identity)
  | messageStored (read : Conversation) (party : Identity)
  | close (party : Identity)

namespace Call

def program (id : ConversationId) : Call → Program (Except LifecycleError (Option Conversation))
  | memberJoined party => Lifecycle.memberJoined id party
  | messageStored read party => Lifecycle.messageStored read party
  | close party => (Lifecycle.close id party).bind fun result => .done (result.map some)

/-- The status that the call is about. -/
def target : Call → Status
  | memberJoined _ | messageStored _ _ => .opened
  | close _ => .closed

/-- May the party move the conversation of this owner? -/
def entitled (owner : UserId) : Call → Bool
  | memberJoined party | messageStored _ party => party.role.opensConversations
  | close party => party.user == owner || party.role.isAdmin

def opening? : Call → Option Identity
  | memberJoined party | messageStored _ party => some party
  | close _ => none

/-- The result if the conversation was moved by others. -/
def late : Call → Except LifecycleError (Option Conversation)
  | memberJoined _ | messageStored _ _ => .ok none
  | close _ => .error (.invalidTransition .closed .closed)

/-- The result if the party may not move it. -/
def refused : Call → Except LifecycleError (Option Conversation)
  | memberJoined _ | messageStored _ _ => .ok none
  | close _ => .error .forbidden

end Call

/-- In these turns a conversation was changed to what it is here, and that was announced; and nothing else was. -/
structure Won (c : Conversation) (os : List Occurrence) : Prop where
  committed : os.filterMap (·.committed?) = [c]
  announced : os.filterMap (·.announced?) = (announcement c).toList

/-- In these turns nothing was changed, and nothing was announced. -/
structure Idle (os : List Occurrence) : Prop where
  committed : os.filterMap (·.committed?) = []
  announced : os.filterMap (·.announced?) = []

theorem Idle.nil : Idle [] := ⟨rfl, rfl⟩

theorem Idle.cons {os : List Occurrence} (idle : Idle os) {o : Occurrence} (uncommitted : o.committed? = none)
    (silent : o.announced? = none) : Idle (o :: os) := by
  refine ⟨?_, ?_⟩
  · rw [List.filterMap_cons_none uncommitted, idle.committed]
  · rw [List.filterMap_cons_none silent, idle.announced]

section Paths
variable {final : Conversation} {os : List Occurrence}

theorem path_of_announce {c : Conversation} (path : (Dashboard.announce c).Path os (.done ())) :
    os.filterMap (·.committed?) = [] ∧ os.filterMap (·.announced?) = (announcement c).toList := by
  have shape : Dashboard.announce c =
      (announcement c).elim (.done ()) fun parcel => .ask (.rooms (.broadcast .dashboard parcel)) .done := by
    rw [Dashboard.announce, Program.broadcast, announcement]
    cases (Frame.summaries [.ofConversation c]).pack? <;> rfl
  rw [shape] at path
  cases announced : announcement c with
  | none =>
    rw [announced] at path
    obtain ⟨rfl, -⟩ := path.of_done
    exact ⟨rfl, rfl⟩
  | some parcel =>
    rw [announced] at path
    obtain ⟨task, hub, later, rfl, ends⟩ := path.of_ask
    obtain ⟨rfl, -⟩ := ends.of_done
    exact ⟨rfl, rfl⟩

/-- The store moves a conversation as it has it, whatever the caller takes it for. -/
theorem path_of_move (finds : ∀ o ∈ os, o.Finds final) {status : Status} {assignee : Option UserId}
    {result : Except LifecycleError Conversation} (path : (move final.id status assignee).Path os (.done result)) :
    (∃ c, c.status = status ∧ c.id = final.id ∧ Won c os ∧ result = .ok c) ∨
    ∃ c, Follows c final ∧ c.status.canBecome status = false ∧ Idle os ∧
      result = .error (.invalidTransition c.status status) := by
  have path : (Program.ask (.store (.setStatus final.id status assignee)) _).Path os (.done result) := path
  obtain ⟨task, hub, later, rfl, onward⟩ := path.of_ask
  obtain ⟨reliable, c, stored, follows⟩ := finds _ List.mem_cons_self
  have same : c.id = final.id := Store.get?_id stored
  have reply := reliable.setStatus stored status assignee
  have committed : (Occurrence.asked task hub (.store (.setStatus final.id status assignee))).committed? =
      Request.committed? (.store (.setStatus final.id status assignee))
        (hub.answer (.store (.setStatus final.id status assignee))).1 := rfl
  have silent : (Occurrence.asked task hub (.store (.setStatus final.id status assignee))).announced? = none := rfl
  generalize (hub.answer (.store (.setStatus final.id status assignee))).1 = got at reply onward committed
  subst reply
  cases allowed : c.status.canBecome status with
  | true =>
    simp only [allowed, if_true, Program.bind] at onward committed
    obtain ⟨first, last, _, rfl, announces, ends⟩ := onward.of_bind
    obtain ⟨rfl, rfl⟩ := ends.of_done
    obtain ⟨nothing, announced⟩ := path_of_announce announces
    refine .inl ⟨{ c with status, assignee := assignee <|> c.assignee, updatedAt := hub.clock }, rfl, same,
      ⟨?_, ?_⟩, rfl⟩
    · rw [List.append_nil, List.filterMap_cons, committed, nothing]
      rfl
    · rw [List.append_nil, List.filterMap_cons, silent, announced]
  | false =>
    simp only [allowed, Bool.false_eq_true, if_false, Program.bind] at onward committed
    obtain ⟨rfl, rfl⟩ := onward.of_done
    refine .inr ⟨c, follows, allowed, ⟨?_, ?_⟩, rfl⟩
    · rw [List.filterMap_cons, committed]
      rfl
    · rw [List.filterMap_cons, silent]
      rfl

theorem path_of_openIfPending (finds : ∀ o ∈ os, o.Finds final) {read : Conversation}
    (follows : Follows read final) {party : Identity} {result : Except LifecycleError (Option Conversation)}
    (path : (openIfPending read party).Path os (.done result)) :
    (party.role.opensConversations = true ∧ ∃ c, c.status = .opened ∧ c.id = final.id ∧ Won c os ∧ result = .ok (some c)) ∨
    Idle os ∧ result = .ok none ∧
      (party.role.opensConversations = true → final.status.canBecome .opened = false) := by
  unfold openIfPending at path
  split at path
  · next decides =>
    obtain ⟨opens, -⟩ := Bool.and_eq_true_iff.mp decides
    obtain ⟨moves, later, between, rfl, begins, ends⟩ := Program.Path.of_bind path
    rw [← follows.id] at begins
    rcases path_of_move (fun o there => finds o (List.mem_append_left _ there)) begins with
      ⟨c, status, same, won, rfl⟩ | ⟨c, onward, cannot, idle, rfl⟩
    · obtain ⟨rfl, rfl⟩ := ends.of_done
      rw [List.append_nil]
      exact .inl ⟨opens, c, status, same, won, rfl⟩
    · obtain ⟨rfl, rfl⟩ := ends.of_done
      rw [List.append_nil]
      exact .inr ⟨idle, rfl, fun _ => onward.cannotBecome cannot⟩
  · next decides =>
    obtain ⟨rfl, rfl⟩ := Program.Path.of_done path
    refine .inr ⟨.nil, rfl, fun opens => follows.cannotBecome ?_⟩
    have other : read.status ≠ .pending := by simpa [opens] using decides
    cases status : read.status with
    | pending => exact absurd status other
    | opened => rfl
    | closed => rfl

/-- What comes of a call, by the turns that it had. -/
inductive Fate (final : Conversation) (call : Call) (os : List Occurrence) :
    Except LifecycleError (Option Conversation) → Prop
  | won {c : Conversation} (entitled : call.entitled final.owner = true) (status : c.status = call.target)
      (same : c.id = final.id) (won : Won c os) : Fate final call os (.ok (some c))
  | late (entitled : call.entitled final.owner = true) (idle : Idle os)
      (cannot : final.status.canBecome call.target = false) : Fate final call os call.late
  | refused (unentitled : call.entitled final.owner = false) (idle : Idle os) : Fate final call os call.refused

theorem Fate.cons {call : Call} {result : Except LifecycleError (Option Conversation)} (fate : Fate final call os result)
    {o : Occurrence} (uncommitted : o.committed? = none) (silent : o.announced? = none) :
    Fate final call (o :: os) result := by
  cases fate with
  | won entitled status same won =>
    refine .won entitled status same ⟨?_, ?_⟩
    · rw [List.filterMap_cons_none uncommitted, won.committed]
    · rw [List.filterMap_cons_none silent, won.announced]
  | late entitled idle cannot => exact .late entitled (idle.cons uncommitted silent) cannot
  | refused unentitled idle => exact .refused unentitled (idle.cons uncommitted silent)

theorem fate_of_opening (finds : ∀ o ∈ os, o.Finds final) {read : Conversation} (follows : Follows read final)
    {party : Identity} {call : Call} (opening : call.opening? = some party)
    {result : Except LifecycleError (Option Conversation)} (path : (openIfPending read party).Path os (.done result)) :
    Fate final call os result := by
  have facts : call.target = .opened ∧ call.entitled final.owner = party.role.opensConversations ∧
      call.late = .ok none ∧ call.refused = .ok none := by
    cases call <;> cases opening <;> exact ⟨rfl, rfl, rfl, rfl⟩
  obtain ⟨target, entitled, late, refused⟩ := facts
  rcases path_of_openIfPending finds follows path with ⟨opens, c, status, same, won, rfl⟩ | ⟨idle, rfl, cannot⟩
  · exact .won (entitled.trans opens) (status.trans target.symm) same won
  · cases opens : party.role.opensConversations with
    | true =>
      rw [← late]
      exact .late (entitled.trans opens) idle (target ▸ cannot opens)
    | false =>
      rw [← refused]
      exact .refused (entitled.trans opens) idle

theorem fate_of_memberJoined (finds : ∀ o ∈ os, o.Finds final) {party : Identity}
    {result : Except LifecycleError (Option Conversation)}
    (path : (memberJoined final.id party).Path os (.done result)) : Fate final (.memberJoined party) os result := by
  unfold memberJoined at path
  split at path
  · obtain ⟨task, hub, later, rfl, onward⟩ := Program.Path.of_ask path
    obtain ⟨reliable, c, stored, follows⟩ := finds _ List.mem_cons_self
    have reply := reliable.get stored
    generalize (hub.answer (.store (.get final.id))).1 = got at reply onward
    subst reply
    exact (fate_of_opening (fun o there => finds o (List.mem_cons_of_mem _ there)) follows rfl onward).cons rfl rfl
  · next unentitled =>
    obtain ⟨rfl, rfl⟩ := Program.Path.of_done path
    exact .refused (Bool.eq_false_iff.mpr unentitled) .nil

theorem fate_of_close (finds : ∀ o ∈ os, o.Finds final) {party : Identity}
    {result : Except LifecycleError Conversation} (path : (close final.id party).Path os (.done result)) :
    Fate final (.close party) os (result.map some) := by
  obtain ⟨task, hub, later, rfl, onward⟩ := Program.Path.of_ask path
  have rest : ∀ o ∈ later, o.Finds final := fun o there => finds o (List.mem_cons_of_mem _ there)
  obtain ⟨reliable, c, stored, follows⟩ := finds _ List.mem_cons_self
  have reply := reliable.get stored
  generalize (hub.answer (.store (.get final.id))).1 = got at reply onward
  subst reply
  have entitled : (Call.close party).entitled final.owner = (c.isOwnedBy party.user || party.role.isAdmin) := by
    simp [Call.entitled, Conversation.isOwnedBy, follows.owner, Bool.beq_comm]
  have closed {d : Conversation} (cannot : d.status.canBecome .closed = false) : d.status = .closed := by
    cases status : d.status <;> rw [status] at cannot <;> first | rfl | cases cannot
  change Program.Path (if !c.isOwnedBy party.user && !party.role.isAdmin then .done (.error .forbidden)
    else if !c.status.canBecome .closed then .done (.error (.invalidTransition c.status .closed))
    else move final.id .closed none) later (.done result) at onward
  split at onward
  · next unentitled =>
    obtain ⟨rfl, rfl⟩ := Program.Path.of_done onward
    refine (Fate.refused ?_ .nil).cons rfl rfl
    rw [entitled]
    simpa using unentitled
  · next authorised =>
    have authorised : (Call.close party).entitled final.owner = true := by
      rw [entitled]
      simpa [or_iff_not_imp_left] using authorised
    split at onward
    · next cannot =>
      obtain ⟨rfl, rfl⟩ := Program.Path.of_done onward
      have cannot : c.status.canBecome .closed = false := by simpa using cannot
      rw [closed cannot]
      exact (Fate.late authorised .nil (follows.cannotBecome cannot)).cons rfl rfl
    · rcases path_of_move rest onward with ⟨d, status, same, won, rfl⟩ | ⟨d, further, cannot, idle, rfl⟩
      · exact (Fate.won authorised status same won).cons rfl rfl
      · rw [closed cannot]
        exact (Fate.late authorised idle (further.cannotBecome cannot)).cons rfl rfl

/-- A call moves the conversation and announces that, or it comes too late, or it is refused. -/
theorem fate_of_call (finds : ∀ o ∈ os, o.Finds final) {call : Call}
    (stale : ∀ read party, call = .messageStored read party → Follows read final)
    {result : Except LifecycleError (Option Conversation)} (path : (call.program final.id).Path os (.done result)) :
    Fate final call os result := by
  cases call with
  | memberJoined party => exact fate_of_memberJoined finds path
  | messageStored read party => exact fate_of_opening finds (stale read party rfl) rfl path
  | close party =>
    obtain ⟨closing, later, outcome, rfl, begins, ends⟩ := Program.Path.of_bind path
    obtain ⟨rfl, rfl⟩ := ends.of_done
    rw [List.append_nil] at finds ⊢
    exact fate_of_close finds begins

section Fate
variable {call : Call} {result : Except LifecycleError (Option Conversation)} (fate : Fate final call os result)
include fate

theorem Fate.announced : os.filterMap (·.announced?) = (os.filterMap (·.committed?)).filterMap announcement := by
  cases fate with
  | won entitled status same won =>
    rw [won.announced, won.committed, List.filterMap_cons]
    cases announcement _ <;> rfl
  | late entitled idle cannot => rw [idle.announced, idle.committed, List.filterMap_nil]
  | refused unentitled idle => rw [idle.announced, idle.committed, List.filterMap_nil]

theorem Fate.mem_iff (c : Conversation) : c ∈ os.filterMap (·.committed?) ↔ result = .ok (some c) := by
  cases fate with
  | won entitled status same won =>
    rw [won.committed, List.mem_singleton]
    exact ⟨fun same => by rw [same], fun same => by cases same; rfl⟩
  | late entitled idle cannot =>
    rw [idle.committed]
    cases call <;> simp [Call.late]
  | refused unentitled idle =>
    rw [idle.committed]
    cases call <;> simp [Call.refused]

theorem Fate.of_mem {c : Conversation} (there : c ∈ os.filterMap (·.committed?)) :
    call.entitled final.owner = true ∧ c.status = call.target ∧ c.id = final.id := by
  cases fate with
  | won entitled status same won =>
    rw [won.committed, List.mem_singleton] at there
    subst there
    exact ⟨entitled, status, same⟩
  | late entitled idle cannot =>
    rw [idle.committed] at there
    cases there
  | refused unentitled idle =>
    rw [idle.committed] at there
    cases there

theorem Fate.of_not_mem (nothing : ∀ c, c ∉ os.filterMap (·.committed?)) :
    result = if call.entitled final.owner then call.late else call.refused := by
  cases fate with
  | won entitled status same won =>
    rw [won.committed] at nothing
    exact absurd List.mem_cons_self (nothing _)
  | late entitled idle cannot => rw [if_pos entitled]
  | refused unentitled idle => rw [unentitled, if_neg Bool.false_ne_true]

theorem Fate.settled (entitled : call.entitled final.owner = true) :
    (∃ c ∈ os.filterMap (·.committed?), c.status = call.target) ∨ final.status.canBecome call.target = false := by
  cases fate with
  | won entitled status same won =>
    rw [won.committed]
    exact .inl ⟨_, List.mem_cons_self, status⟩
  | late entitled idle cannot => exact .inr cannot
  | refused unentitled idle => cases unentitled.symm.trans entitled

end Fate

end Paths

/-- Calls about one conversation that take turns. -/
def race (hub : Hub) (id : ConversationId) (calls : List Call) : Execution (Except LifecycleError (Option Conversation)) :=
  ⟨hub, calls.map (·.program id)⟩

/-- Which calls moved the conversation, and what each made of it. -/
def wins (log : List Occurrence) : List (Nat × Conversation) :=
  log.filterMap (·.signed? (·.committed?))

/-- How a race for a conversation ends. -/
structure Decided (row : Conversation) (calls : List Call) (log : List Occurrence)
    (y : Execution (Except LifecycleError (Option Conversation))) : Prop where
  /-- at most one call opens the conversation and at most one closes it, and none opens it after that -/
  order : (wins log).map (·.2.status) ∈ [[], [.opened], [.closed], [.opened, .closed]]
  /-- only who may do so moves it, and to the status that the call is about -/
  entitled : ∀ task c, (task, c) ∈ wins log →
    ∃ call, calls[task]? = some call ∧ call.entitled row.owner = true ∧ c.status = call.target
  /-- each change is announced once and by its own call, and nothing else is announced -/
  announced : (log.filterMap (·.signed? (·.announced?))).Perm
    ((wins log).filterMap fun (task, c) => (announcement c).map (task, ·))
  /-- a change can be announced if its time has a text -/
  announcable : ∀ task c, (task, c) ∈ wins log → (announcement c).isSome = c.updatedAt.toChars?.isSome
  /-- each change is returned by the call that made it -/
  returned : ∀ task c, (task, c) ∈ wins log ↔ y.value? task = some (.ok (some c))
  /-- and by no other -/
  once : ∀ task other c, y.value? task = some (.ok (some c)) → y.value? other = some (.ok (some c)) → task = other
  /-- a call that did not move the conversation, but might have done so, came too late -/
  late : ∀ (task : Nat) call, calls[task]? = some call → call.entitled row.owner = true →
    (∀ c, (task, c) ∉ wins log) → y.value? task = some call.late
  /-- all others are refused -/
  refused : ∀ (task : Nat) call, calls[task]? = some call → call.entitled row.owner = false →
    y.value? task = some call.refused
  /-- the conversation ends as the calls that count ask for: a close before an opening -/
  final : ∃ final, y.hub.store.get? row.id = some final ∧
    ((∃ call ∈ calls, call.target = .closed ∧ call.entitled row.owner = true) → final.status = .closed) ∧
    ((¬ ∃ call ∈ calls, call.target = .closed ∧ call.entitled row.owner = true) →
      (∃ call ∈ calls, call.target = .opened ∧ call.entitled row.owner = true) → final.status = .opened) ∧
    ((∀ call ∈ calls, call.entitled row.owner = false) → final.status = .pending)

section Race
variable {hub : Hub} {row : Conversation} {calls : List Call} {turns : List Turn} {log : List Occurrence}
  {y : Execution (Except LifecycleError (Option Conversation))}

theorem announces_call {allowed : Request → Prop} (permits : Permits allowed) (id : ConversationId) (call : Call) :
    (call.program id).Announces allowed none := by
  cases call with
  | memberJoined party => exact announces_memberJoined permits id party
  | messageStored read party => exact announces_messageStored permits read party
  | close party => exact (announces_close permits id party).bind fun _ => .done _

theorem called_of_asked (runs : (race hub row.id calls).run turns = (log, y)) {task : Nat} {found : Hub} {request : Request}
    (there : .asked task found request ∈ log) :
    ∃ call, calls[task]? = some call ∧ (race hub row.id calls).tasks[task]? = some (call.program row.id) := by
  obtain ⟨before, later, split⟩ := List.append_of_mem there
  obtain ⟨program, last, own, -⟩ := Execution.run_program runs split
  have own' : (calls.map (·.program row.id))[task]? = some program := own
  rw [List.getElem?_map, Option.map_eq_some_iff] at own'
  obtain ⟨call, called, rfl⟩ := own'
  exact ⟨call, called, own⟩

/-- No call starts a conversation. -/
theorem new_of_race (runs : (race hub row.id calls).run turns = (log, y)) : ∀ o ∈ log, o.New := by
  intro o there
  cases o with
  | received queue => trivial
  | gone queue => trivial
  | asked task found request =>
    obtain ⟨call, -, own⟩ := called_of_asked runs there
    have permits : Permits fun request => ∀ found : Hub, request.New found :=
      ⟨fun _ _ => trivial, fun _ _ _ _ => trivial, fun _ _ => trivial⟩
    exact Execution.run_allowed runs own (announces_call permits row.id call) there found

theorem finds_of_race (reliable : hub.Reliable) (stored : hub.store.get? row.id = some row)
    (runs : (race hub row.id calls).run turns = (log, y)) :
    ∃ final, y.hub.store.get? row.id = some final ∧ final.id = row.id ∧ final.owner = row.owner ∧
      ∀ o ∈ log, o.Finds final := by
  have trail := Execution.run_trail reliable.undisturbed runs (new_of_race runs) row.id
  rw [show (race hub row.id calls).hub.store.get? row.id = some row from stored] at trail
  obtain ⟨final, last, follows, -⟩ := trail.follows
  refine ⟨final, last, follows.id, follows.owner, ?_⟩
  intro o there
  cases o with
  | received queue => trivial
  | gone queue => trivial
  | asked task found request =>
    obtain ⟨before, later, rfl⟩ := List.append_of_mem there
    have trails := Execution.trail_of_asked reliable.undisturbed runs (new_of_race runs) row.id
    rw [show (race hub row.id calls).hub.store.get? row.id = some row from stored, last] at trails
    obtain ⟨first, rest⟩ := trails
    obtain ⟨c, middle, -⟩ := first.follows
    rw [middle] at rest
    obtain ⟨_, same, onward, -⟩ := rest.follows
    cases same
    refine ⟨(Execution.inherits_of_asked runs there).reliable reliable, c, ?_, onward⟩
    rw [follows.id]
    exact middle

/-- What has come of each call. -/
def Fates (final : Conversation) (calls : List Call) (log : List Occurrence)
    (y : Execution (Except LifecycleError (Option Conversation))) : Prop :=
  ∀ (task : Nat) call, calls[task]? = some call →
    ∃ result, y.value? task = some result ∧ Fate final call (log.filter (·.isOf task)) result

theorem fates_of_race {final : Conversation} (finds : ∀ o ∈ log, o.Finds final) (same : final.id = row.id)
    (runs : (race hub row.id calls).run turns = (log, y)) (finished : ∀ program ∈ y.tasks, program.value?.isSome)
    (stale : ∀ read party, .messageStored read party ∈ calls → Follows read final) : Fates final calls log y := by
  intro task call called
  have there : (race hub row.id calls).tasks[task]? = some (call.program final.id) := by
    rw [same]
    simp [race, called]
  obtain ⟨last, ends, path⟩ := Execution.run_path runs there
  obtain ⟨result, value⟩ := Option.isSome_iff_exists.mp (finished last (List.mem_of_getElem? ends))
  rw [Program.eq_done_of_value? value] at path
  refine ⟨result, by simp [Execution.value?, ends, value], fate_of_call ?_ ?_ path⟩
  · intro o there
    exact finds o (List.mem_filter.mp there).1
  · rintro read party rfl
    exact stale read party (List.mem_of_getElem? called)

theorem called_of_signed (runs : (race hub row.id calls).run turns = (log, y)) {β : Type} {told? : Occurrence → Option β}
    {task : Nat} {b : β} (there : (task, b) ∈ log.filterMap (·.signed? told?)) : ∃ call, calls[task]? = some call := by
  obtain ⟨o, member, told⟩ := List.mem_filterMap.mp there
  cases o with
  | received queue => cases told
  | gone queue => cases told
  | asked number found request =>
    obtain ⟨_, -, same⟩ := Option.map_eq_some_iff.mp told
    cases same
    obtain ⟨call, called, -⟩ := called_of_asked runs member
    exact ⟨call, called⟩

theorem called_of_value? (runs : (race hub row.id calls).run turns = (log, y)) {task : Nat}
    {result : Except LifecycleError (Option Conversation)} (value : y.value? task = some result) :
    ∃ call, calls[task]? = some call := by
  obtain ⟨program, ends, -⟩ := Option.bind_eq_some_iff.mp value
  obtain ⟨bound, -⟩ := List.getElem?_eq_some_iff.mp ends
  rw [Execution.run_length runs, race, List.length_map] at bound
  exact ⟨_, List.getElem?_eq_getElem bound⟩

/-- The last status, by those that the conversation was given. -/
theorem ending_of_statuses {statuses : List Status} {last : Status} (given : (statuses, last) ∈
      [([], .pending), ([.opened], .opened), ([.closed], .closed), ([.opened, .closed], .closed)]) :
    (.closed ∈ statuses ∨ last.canBecome .closed = false → last = .closed) ∧
    (.closed ∉ statuses → .opened ∈ statuses ∨ last.canBecome .opened = false → last = .opened) ∧
    (statuses = [] → last = .pending) := by
  simp only [List.mem_cons, Prod.mk.injEq, List.not_mem_nil, or_false] at given
  rcases given with ⟨rfl, rfl⟩ | ⟨rfl, rfl⟩ | ⟨rfl, rfl⟩ | ⟨rfl, rfl⟩ <;> decide

section Fates
variable {final : Conversation} (fates : Fates final calls log y)
include fates

theorem Fates.settled {call : Call} (there : call ∈ calls) (entitled : call.entitled final.owner = true) :
    call.target ∈ (wins log).map (·.2.status) ∨ final.status.canBecome call.target = false := by
  obtain ⟨task, called⟩ := List.mem_iff_getElem?.mp there
  obtain ⟨result, -, fate⟩ := fates task call called
  rcases fate.settled entitled with ⟨c, committed, status⟩ | cannot
  · exact .inl (List.mem_map.mpr ⟨(task, c), Occurrence.mem_signed.mpr committed, status⟩)
  · exact .inr cannot

theorem Fates.value?_of_not_win {task : Nat} {call : Call} (called : calls[task]? = some call)
    (nothing : ∀ c, (task, c) ∉ wins log) :
    y.value? task = some (if call.entitled final.owner then call.late else call.refused) := by
  obtain ⟨result, value, fate⟩ := fates task call called
  rw [value, fate.of_not_mem fun c there => nothing c (Occurrence.mem_signed.mpr there)]

variable (runs : (race hub row.id calls).run turns = (log, y))
include runs

theorem Fates.call_of_win {task : Nat} {c : Conversation} (there : (task, c) ∈ wins log) :
    ∃ call, calls[task]? = some call ∧ call.entitled final.owner = true ∧ c.status = call.target ∧ c.id = final.id := by
  obtain ⟨call, called⟩ := called_of_signed runs there
  obtain ⟨result, -, fate⟩ := fates task call called
  exact ⟨call, called, fate.of_mem (Occurrence.mem_signed.mp there)⟩

theorem Fates.mem_wins_iff (task : Nat) (c : Conversation) : (task, c) ∈ wins log ↔ y.value? task = some (.ok (some c)) := by
  constructor
  · intro there
    obtain ⟨call, called⟩ := called_of_signed runs there
    obtain ⟨result, value, fate⟩ := fates task call called
    rw [value, (fate.mem_iff c).mp (Occurrence.mem_signed.mp there)]
  · intro value
    obtain ⟨call, called⟩ := called_of_value? runs value
    obtain ⟨result, also, fate⟩ := fates task call called
    cases also.symm.trans value
    exact Occurrence.mem_signed.mpr ((fate.mem_iff c).mpr rfl)

theorem Fates.refused {task : Nat} {call : Call} (called : calls[task]? = some call)
    (unentitled : call.entitled final.owner = false) : y.value? task = some call.refused := by
  have nothing (c : Conversation) : (task, c) ∉ wins log := by
    intro there
    obtain ⟨_, also, entitled, -⟩ := fates.call_of_win runs there
    cases also.symm.trans called
    cases unentitled.symm.trans entitled
  rw [fates.value?_of_not_win called nothing, unentitled, if_neg Bool.false_ne_true]

theorem Fates.ending (statuses : ((wins log).map (·.2.status), final.status) ∈
      [([], .pending), ([.opened], .opened), ([.closed], .closed), ([.opened, .closed], .closed)]) :
    ((∃ call ∈ calls, call.target = .closed ∧ call.entitled final.owner = true) → final.status = .closed) ∧
    ((¬ ∃ call ∈ calls, call.target = .closed ∧ call.entitled final.owner = true) →
      (∃ call ∈ calls, call.target = .opened ∧ call.entitled final.owner = true) → final.status = .opened) ∧
    ((∀ call ∈ calls, call.entitled final.owner = false) → final.status = .pending) := by
  obtain ⟨closes, opens, stays⟩ := ending_of_statuses statuses
  refine ⟨?_, ?_, ?_⟩
  · rintro ⟨call, there, target, entitled⟩
    exact closes (target ▸ fates.settled there entitled)
  · rintro unclosed ⟨call, there, target, entitled⟩
    refine opens ?_ (target ▸ fates.settled there entitled)
    intro closed
    obtain ⟨⟨task, c⟩, there, status⟩ := List.mem_map.mp closed
    obtain ⟨closing, called, allowed, asked, -⟩ := fates.call_of_win runs there
    exact unclosed ⟨closing, List.mem_of_getElem? called, asked.symm.trans status, allowed⟩
  · intro none
    apply stays
    rw [List.map_eq_nil_iff, List.eq_nil_iff_forall_not_mem]
    rintro ⟨task, c⟩ there
    obtain ⟨call, called, entitled, -⟩ := fates.call_of_win runs there
    cases (none call (List.mem_of_getElem? called)).symm.trans entitled

theorem Fates.announced : (log.filterMap (·.signed? (·.announced?))).Perm
    ((wins log).filterMap fun (task, c) => (announcement c).map (task, ·)) := by
  apply perm_of_signed
  intro task
  have own : (log.filter (·.isOf task)).filterMap (·.announced?) =
      ((log.filter (·.isOf task)).filterMap (·.committed?)).filterMap announcement := by
    cases called : calls[task]? with
    | some call =>
      obtain ⟨result, -, fate⟩ := fates task call called
      exact fate.announced
    | none =>
      have nothing : log.filter (·.isOf task) = [] :=
        Execution.turns_of_none runs (by simp [race, called])
      rw [nothing]
      rfl
  rw [filter_map_signed, wins, Occurrence.filter_signed, Occurrence.filter_signed, own, List.filterMap_map,
    List.map_filterMap]
  rfl

end Fates

/-- The rows that the conversation gets are those that the calls make of it. -/
theorem trail_of_wins (reliable : hub.Reliable) (stored : hub.store.get? row.id = some row)
    (runs : (race hub row.id calls).run turns = (log, y)) {final : Conversation}
    (last : y.hub.store.get? row.id = some final) (same : ∀ task c, (task, c) ∈ wins log → c.id = row.id) :
    Store.Trail (some row) ((wins log).map (·.2)) (some final) := by
  have trail := Execution.run_trail reliable.undisturbed runs (new_of_race runs) row.id
  rw [show (race hub row.id calls).hub.store.get? row.id = some row from stored, last] at trail
  have rows : log.filterMap (·.moved? row.id) = (wins log).map (·.2) := by
    rw [wins, Occurrence.map_snd_signed (fun _ => ⟨rfl, rfl⟩)]
    apply List.filterMap_congr
    intro o there
    rw [Occurrence.moved?]
    cases committed : o.committed? with
    | none => rfl
    | some c =>
      cases o with
      | received queue => cases committed
      | gone queue => cases committed
      | asked task found request =>
        have here := same task c (List.mem_filterMap.mpr ⟨_, there, congrArg (Option.map (task, ·)) committed⟩)
        simp [Option.filter_some, here]
  rwa [rows] at trail

/-- Any number of calls about a pending conversation take turns, at a store that does not fail. Each decides by the row
that it has read, or that it was given; which may be out of date by then, but is none that the conversation never comes to.
Then each change is made by one call, and every other call is told that it is too late or not allowed. -/
theorem race_decided (reliable : hub.Reliable) (stored : hub.store.get? row.id = some row) (pending : row.status = .pending)
    (runs : (race hub row.id calls).run turns = (log, y)) (finished : ∀ program ∈ y.tasks, program.value?.isSome)
    (stale : ∀ read party, .messageStored read party ∈ calls →
      ∃ final, y.hub.store.get? row.id = some final ∧ Store.Follows read final) :
    Decided row calls log y := by
  obtain ⟨final, last, same, owner, finds⟩ := finds_of_race reliable stored runs
  have fates : Fates final calls log y := by
    refine fates_of_race finds same runs finished ?_
    intro read party called
    obtain ⟨_, found, follows⟩ := stale read party called
    cases last.symm.trans found
    exact follows
  have trail := trail_of_wins reliable stored runs last fun task c there =>
    (fates.call_of_win runs there).choose_spec.2.2.2.trans same
  have statuses := trail.of_pending pending
  rw [List.map_map] at statuses
  have order : (wins log).map (·.2.status) ∈ [[], [.opened], [.closed], [.opened, .closed]] := by
    simp only [List.mem_cons, Prod.mk.injEq, List.not_mem_nil, or_false] at statuses ⊢
    exact statuses.imp And.left (Or.imp And.left (Or.imp And.left And.left))
  refine ⟨order, ?_, fates.announced runs, fun _ c _ => isSome_announcement c, fates.mem_wins_iff runs, ?_, ?_, ?_,
    final, last, ?_⟩
  · intro task c there
    obtain ⟨call, called, entitled, status, -⟩ := fates.call_of_win runs there
    exact ⟨call, called, owner ▸ entitled, status⟩
  · intro task other c mine also
    have single : ((wins log).map (·.2.status)).Nodup := by
      simp only [List.mem_cons, List.not_mem_nil, or_false] at order
      rcases order with order | order | order | order <;> rw [order] <;> decide
    have entry := List.inj_on_of_nodup_map single ((fates.mem_wins_iff runs task c).mpr mine)
      ((fates.mem_wins_iff runs other c).mpr also) rfl
    exact congrArg Prod.fst entry
  · intro task call called entitled nothing
    rw [fates.value?_of_not_win called nothing, owner, if_pos entitled]
  · intro task call called unentitled
    exact fates.refused runs called (owner ▸ unentitled)
  · rw [← owner]
    exact fates.ending runs statuses

end Race

/-- Staff join and the owner and another of the staff read the conversation, all while it is pending. It is opened and
closed before the opening is announced; a message of the system still takes it for pending. -/
theorem race_decided_of_stale_reads :
    let row : Conversation := ⟨⟨.ofNat 1⟩, ⟨.ofNat 1001⟩, none, "a", .pending, ⟨0, 0⟩, ⟨0, 0⟩⟩
    let hub : Hub := { settings := .default, clock := ⟨0, 0⟩, mint := fun n => .ofNat (n + 2), store := ⟨[row], []⟩ }
    let calls : List Call := [.memberJoined ⟨⟨.ofNat 1000⟩, .admin⟩, .messageStored row ⟨⟨.ofNat 1002⟩, .system⟩,
      .close ⟨⟨.ofNat 1001⟩, .user⟩, .close ⟨⟨.ofNat 1003⟩, .user⟩, .close ⟨⟨.ofNat 1000⟩, .admin⟩]
    let turns : List Turn := [.task 0 ⟨1, 0⟩, .task 2 ⟨2, 0⟩, .task 4 ⟨3, 0⟩, .task 0 ⟨4, 0⟩, .task 2 ⟨5, 0⟩, .task 2 ⟨6, 0⟩,
      .task 0 ⟨7, 0⟩, .task 1 ⟨8, 0⟩, .task 4 ⟨9, 0⟩, .task 3 ⟨10, 0⟩]
    let opened : Conversation := { row with status := .opened, assignee := some ⟨.ofNat 1000⟩, updatedAt := ⟨4, 0⟩ }
    let closed : Conversation := { opened with status := .closed, updatedAt := ⟨5, 0⟩ }
    let (log, y) := (race hub row.id calls).run turns
    Decided row calls log y ∧ wins log = [(0, opened), (2, closed)] ∧
      (List.range 5).map y.value? = [some (.ok (some opened)), some (.ok none), some (.ok (some closed)),
        some (.error .forbidden), some (.error (.invalidTransition .closed .closed))] := by
  intro row hub calls turns opened closed
  have won : wins ((race hub row.id calls).run turns).1 = [(0, opened), (2, closed)] := by decide +kernel
  have results : (List.range 5).map ((race hub row.id calls).run turns).2.value? =
      [some (.ok (some opened)), some (.ok none), some (.ok (some closed)), some (.error .forbidden),
        some (.error (.invalidTransition .closed .closed))] := by decide +kernel
  have finished : ∀ program ∈ ((race hub row.id calls).run turns).2.tasks, program.value?.isSome := by decide +kernel
  have last : ((race hub row.id calls).run turns).2.hub.store.get? row.id = some closed := by decide +kernel
  have reliable : hub.Reliable := ⟨rfl, fun _ _ there => by cases there⟩
  rcases runs : (race hub row.id calls).run turns with ⟨log, y⟩
  rw [runs] at won results finished last
  have stale : ∀ read party, .messageStored read party ∈ calls →
      ∃ final, y.hub.store.get? row.id = some final ∧ Store.Follows read final := by
    intro read party called
    have same : read = row := by
      simp only [calls, List.mem_cons, reduceCtorEq, Call.messageStored.injEq, List.not_mem_nil, or_false,
        false_or] at called
      exact called.1
    subst same
    exact ⟨closed, last, rfl, rfl, rfl, rfl, .inr .lapses, fun pending => by cases pending⟩
  exact ⟨race_decided reliable rfl rfl runs finished stale, won, results⟩

end Lifecycle

end HelpDesk
