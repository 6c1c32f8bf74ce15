import HelpDesk.Proofs.Operations

/-! The rows that a conversation has, one after the other, in an execution in which only the operations move conversations.
Each is created or moved in a turn of the log, and nothing else changes it. -/

namespace HelpDesk

namespace Hub

theorem Inherits.trans {h k l : Hub} (first : h.Inherits k) (last : k.Inherits l) : h.Inherits l :=
  ⟨last.reachable.trans first.reachable, fun method _ there => first.faults method (last.faults method there)⟩

theorem Inherits.undisturbed {h k : Hub} (inherits : h.Inherits k) (undisturbed : h.Undisturbed) : k.Undisturbed :=
  fun method fault there => undisturbed method fault (inherits.faults method there)

theorem Inherits.reliable {h k : Hub} (inherits : h.Inherits k) (reliable : h.Reliable) : k.Reliable :=
  ⟨inherits.reachable.trans reliable.1, fun method fault there => reliable.2 method fault (inherits.faults method there)⟩

theorem perform_inherits (h : Hub) (call : Store.Call) : h.Inherits (h.perform call).2 := by
  simp only [perform]
  split <;> exact ⟨rfl, fun _ => List.Subset.refl _⟩

theorem moveIfPossible_inherits (h : Hub) (id : ConversationId) (status : Status) :
    h.Inherits (h.moveIfPossible id status) := by
  simp only [moveIfPossible]
  split <;> exact ⟨rfl, fun _ => List.Subset.refl _⟩

theorem callStore_inherits (h : Hub) (call : Store.Call) : h.Inherits (h.callStore call).2 := by
  have goes := h.callStore_goes call
  generalize h.callStore call = outcome at goes
  cases goes with
  | failed error faults inherits => exact inherits
  | performed faults inherits => exact inherits.trans (perform_inherits _ call)
  | overtaken status faults inherits disturbed performed =>
    have carried := inherits.trans (perform_inherits _ call)
    rw [performed] at carried
    exact carried.trans (moveIfPossible_inherits _ call.subject status)

theorem answer_inherits (h : Hub) (request : Request) : h.Inherits (h.answer request).2 := by
  cases request with
  | store call => exact h.callStore_inherits call
  | rooms command => exact ⟨rfl, fun _ => List.Subset.refl _⟩
  | join room session identity capacity holding => exact ⟨rfl, fun _ => List.Subset.refl _⟩
  | roomCount => exact .refl h

/-- A request fails and changes nothing, or it is carried out as the store does. -/
theorem Undisturbed.callStore {h : Hub} (undisturbed : h.Undisturbed) (call : Store.Call) :
    ((h.callStore call).2.store = h.store ∧ ∃ error, (h.callStore call).1 = .error error) ∨
    ∃ answer, h.store.perform h.readings h.fresh call = .ok (answer, (h.callStore call).2.store) ∧
      (h.callStore call).1 = .ok answer := by
  have goes := h.callStore_goes call
  generalize h.callStore call = outcome at goes
  cases goes with
  | failed error faults => exact .inl ⟨rfl, error, rfl⟩
  | performed faults =>
    rw [perform_faults]
    unfold perform
    cases h.store.perform h.readings h.fresh call with
    | error error => exact .inl ⟨rfl, error, rfl⟩
    | ok result => exact .inr ⟨result.1, rfl, rfl⟩
  | overtaken status faults inherits disturbed => exact absurd undisturbed disturbed

theorem Reliable.callStore {h : Hub} (reliable : h.Reliable) (call : Store.Call) :
    (h.callStore call).1 = (h.store.perform h.readings h.fresh call).map Prod.fst := by
  have goes := h.callStore_goes call
  generalize h.callStore call = outcome at goes
  cases goes with
  | failed error faults inherits unreliable => exact absurd reliable unreliable
  | performed faults =>
    rw [perform_faults]
    unfold perform
    cases h.store.perform h.readings h.fresh call <;> rfl
  | overtaken status faults inherits disturbed => exact absurd reliable.undisturbed disturbed

end Hub

namespace Store

theorem Moves.ne {before after : Status} (moves : Moves before after) : before ≠ after := by
  cases moves <;> simp

/-- A conversation is created, or moved from how it was. -/
inductive Advances : Option Conversation → Conversation → Prop
  | created {c : Conversation} (pending : c.status = .pending) : Advances none c
  | moved {c d : Conversation} (follows : Follows c d) (moves : Moves c.status d.status) : Advances (some c) d

/-- The rows that a conversation gets, from one row to another. -/
inductive Trail : Option Conversation → List Conversation → Option Conversation → Prop
  | nil (row : Option Conversation) : Trail row [] row
  | cons {row last : Option Conversation} {c : Conversation} {rows : List Conversation} (advances : Advances row c)
      (rest : Trail (some c) rows last) : Trail row (c :: rows) last

theorem Trail.append {row middle last : Option Conversation} {rows more : List Conversation}
    (first : Trail row rows middle) (rest : Trail middle more last) : Trail row (rows ++ more) last := by
  induction first with
  | nil row => exact rest
  | cons advances _ ih => exact .cons advances (ih rest)

theorem Trail.split {row last : Option Conversation} {rows more : List Conversation}
    (trail : Trail row (rows ++ more) last) : ∃ middle, Trail row rows middle ∧ Trail middle more last := by
  induction rows generalizing row with
  | nil => exact ⟨row, .nil row, trail⟩
  | cons c rows ih =>
    cases trail with
    | cons advances rest =>
      obtain ⟨middle, first, last⟩ := ih rest
      exact ⟨middle, .cons advances first, last⟩

/-- A conversation stays, and each row that it gets has a later status than the one before. -/
theorem Trail.follows {c : Conversation} {rows : List Conversation} {last : Option Conversation}
    (trail : Trail (some c) rows last) :
    ∃ d, last = some d ∧ Follows c d ∧ (rows = [] ∧ d = c ∨ rows ≠ [] ∧ Moves c.status d.status) := by
  induction rows generalizing c with
  | nil =>
    cases trail
    exact ⟨c, rfl, .refl c, .inl ⟨rfl, rfl⟩⟩
  | cons e rows ih =>
    cases trail with
    | cons advances rest =>
      cases advances with
      | moved follows moves =>
        obtain ⟨d, rfl, further, later⟩ := ih rest
        refine ⟨d, rfl, follows.trans further, .inr ⟨List.cons_ne_nil e rows, ?_⟩⟩
        rcases later with ⟨-, rfl⟩ | ⟨-, onward⟩
        · exact moves
        · exact moves.trans onward

theorem Trail.of_closed {c : Conversation} {rows : List Conversation} {last : Option Conversation}
    (closed : c.status = .closed) (trail : Trail (some c) rows last) : rows = [] ∧ last = some c := by
  cases trail with
  | nil => exact ⟨rfl, rfl⟩
  | cons advances rest =>
    cases advances with
    | moved follows moves =>
      rw [closed] at moves
      cases moves.active

theorem Trail.of_opened {c : Conversation} {rows : List Conversation} {last : Option Conversation}
    (opened : c.status = .opened) (trail : Trail (some c) rows last) :
    rows = [] ∧ last = some c ∨ ∃ d, d.status = .closed ∧ rows = [d] ∧ last = some d := by
  cases trail with
  | nil => exact .inl ⟨rfl, rfl⟩
  | cons advances rest =>
    cases advances with
    | moved follows moves =>
      rcases moves.opened_or_closed with opens | closes
      · rw [opened, opens] at moves
        cases moves
      · obtain ⟨rfl, rfl⟩ := rest.of_closed closes
        exact .inr ⟨_, closes, rfl, rfl⟩

/-- A pending conversation is opened at most once and closed at most once, and not opened after that. -/
theorem Trail.of_pending {c d : Conversation} {rows : List Conversation} (pending : c.status = .pending)
    (trail : Trail (some c) rows (some d)) :
    (rows.map (·.status), d.status) ∈
      [([], .pending), ([.opened], .opened), ([.closed], .closed), ([.opened, .closed], .closed)] := by
  generalize last : some d = row at trail
  cases trail with
  | nil =>
    cases last
    simp [pending]
  | cons advances rest =>
    cases advances with
    | moved follows moves =>
      rcases moves.opened_or_closed with opens | closes
      · rcases rest.of_opened opens with ⟨rfl, rfl⟩ | ⟨e, closes, rfl, rfl⟩
        · cases last
          simp [opens]
        · cases last
          simp [opens, closes]
      · obtain ⟨rfl, rfl⟩ := rest.of_closed closes
        cases last
        simp [closes]

theorem Trail.eq_getLast {row last : Option Conversation} {rows : List Conversation} (trail : Trail row rows last)
    (some : rows ≠ []) : last = rows.getLast? := by
  induction trail with
  | nil row => exact absurd rfl some
  | @cons row last c rows advances rest ih =>
    cases rows with
    | nil =>
      cases rest
      rfl
    | cons d rows => exact ih (List.cons_ne_nil d rows)

theorem Follows.of_moves {c : Conversation} {later : Status} (given : Option UserId) (now : Moment)
    (moves : Moves c.status later) :
    Follows c { c with status := later, assignee := given <|> c.assignee, updatedAt := now } :=
  ⟨rfl, rfl, rfl, rfl, .inr moves,
    fun closed => (closed_of_not_active (isActive_of_moves moves) closed).elim⟩

theorem trail_of_moved {s : Store} {other : ConversationId} {status : Status} {assignee : Option UserId} {now : Moment}
    {c d : Conversation} (stored : s.get? other = some c) (moves : Moves c.status status)
    (row : d = { c with status, assignee := assignee <|> c.assignee, updatedAt := now }) (id : ConversationId) :
    Trail (s.get? id) ((some d).filter (·.id = id)).toList ((s.put d).get? id) := by
  have follows : Follows c d := row ▸ .of_moves assignee now moves
  have later : Moves c.status d.status := row ▸ moves
  obtain rfl := follows.id.trans (get?_id stored)
  by_cases here : d.id = id
  · subst here
    rw [get?_put_self (by simp [stored]), stored, Option.filter_some, if_pos (by simp)]
    exact .cons (.moved follows later) (.nil _)
  · rw [get?_put_of_ne s (Ne.symm here), Option.filter_some, if_neg (by simpa using here)]
    exact .nil _

theorem trail_of_created {s : Store} {c : Conversation} {m : Message} (pending : c.status = .pending)
    (new : s.get? c.id = none) (id : ConversationId) :
    Trail (s.get? id) ((some c).filter (·.id = id)).toList
      (get? ⟨s.conversations ++ [c], s.messages ++ [m]⟩ id) := by
  have added : get? ⟨s.conversations ++ [c], s.messages ++ [m]⟩ id =
      (s.get? id).or (if c.id = id then some c else none) := by
    simp only [get?, List.find?_append, List.find?_singleton, beq_iff_eq]
  rw [added]
  by_cases here : c.id = id
  · subst here
    rw [new, Option.filter_some, if_pos (by simp), if_pos rfl]
    exact .cons (.created pending) (.nil _)
  · rw [Option.filter_some, if_neg (by simpa using here), if_neg here, Option.or_none]
    exact .nil _

end Store

/-- What a request may make of a conversation: it moves the one that it finds, or it creates one. -/
inductive Hub.Commits (h : Hub) : Request → Conversation → Prop
  | moved {id : ConversationId} {status : Status} {assignee : Option UserId} {c : Conversation}
      (stored : h.store.get? id = some c) (moves : Store.Moves c.status status) :
      Commits h (.store (.setStatus id status assignee))
        { c with status, assignee := assignee <|> c.assignee, updatedAt := h.clock }
  | created (starter : Identity) (label content : String) (id : ConversationId) :
      Commits h (.store (.start starter label content)) ⟨id, starter.user, none, label, .pending, h.clock, h.clock⟩

theorem Hub.commits_of_committed {h : Hub} {request : Request} {c : Conversation}
    (committed : request.committed? (h.answer request).1 = some c) : h.Commits request c := by
  cases request with
  | rooms command => cases committed
  | join room session identity capacity holding => cases committed
  | roomCount => cases committed
  | store call =>
    have called := h.callStore_called call
    change Request.committed? (.store call) (h.callStore call).1 = some c at committed
    generalize h.callStore call = outcome at called committed
    cases called with
    | failed error l same registry => cases call <;> cases committed
    | carried answer k l performed reaches others overtaken registry =>
      generalize k.store = t at performed
      cases Store.performed_of_ok performed with
      | moved stored moves row =>
        cases committed
        rw [row]
        exact .moved stored moves
      | created vacant row opening =>
        cases committed
        rw [row]
        exact .created _ _ _ _
      | got | foundActive | listedActive | listedMessages | posted | alreadyOpen => cases committed

/-- What is created or moved bears the time of the request. -/
theorem Hub.updatedAt_of_committed {h : Hub} {request : Request} {c : Conversation}
    (committed : request.committed? (h.answer request).1 = some c) : c.updatedAt = h.clock := by
  cases Hub.commits_of_committed committed <;> rfl

/-- What a start creates is not there yet. -/
def Request.New (h : Hub) : Request → Prop
  | .store (.start starter label content) => ∀ c opening,
    (h.answer (.store (.start starter label content))).1 = (.ok (.created c opening) : Except StoreError Start) →
      h.store.get? c.id = none
  | .store _ | .rooms _ | .join _ _ _ _ _ | .roomCount => True

theorem Hub.new_of_distinct {h : Hub} {request : Request} (distinct : h.Distinct (h.answer request).2) :
    request.New h := by
  rcases request with (_ | _ | _ | _ | ⟨starter, label, content⟩ | _ | _) | _ | _ | _ <;> try exact trivial
  intro c opening created
  have called := h.callStore_called (.start starter label content)
  change h.Distinct (h.callStore (.start starter label content)).2 at distinct
  change (h.callStore (.start starter label content)).1 = _ at created
  generalize h.callStore (.start starter label content) = outcome at *
  cases called with
  | failed error l same registry => cases created
  | carried answer k l performed reaches others overtaken registry =>
    have fresh := reaches.fresh (reaches.distinct_left overtaken distinct)
    have unused := fresh.unused (Nat.succ_pos 1)
    generalize k.store = t at performed
    cases Store.performed_of_ok performed with
    | alreadyOpen active => cases created
    | created vacant row opening =>
      cases created
      rw [row]
      exact unused

/-- The row that a request gives to a conversation. -/
def Occurrence.moved? (id : ConversationId) (o : Occurrence) : Option Conversation :=
  o.committed?.filter (·.id = id)

/-- A request gives a conversation a row, or leaves it as it is. -/
theorem Hub.answer_trail {h : Hub} (undisturbed : h.Undisturbed) {request : Request} (new : request.New h)
    (id : ConversationId) (task : Nat) :
    Store.Trail (h.store.get? id) ((Occurrence.asked task h request).moved? id).toList
      ((h.answer request).2.store.get? id) := by
  cases request with
  | rooms command => exact .nil _
  | join room session identity capacity holding => exact .nil _
  | roomCount => exact .nil _
  | store call =>
    show Store.Trail (h.store.get? id) ((Request.committed? (.store call) (h.callStore call).1).filter (·.id = id)).toList
      ((h.callStore call).2.store.get? id)
    rcases undisturbed.callStore call with ⟨same, error, failed⟩ | ⟨answer, performed, carried⟩
    · rw [same, failed]
      have nothing : Request.committed? (.store call) (.error error) = none := by cases call <;> rfl
      rw [nothing]
      exact .nil _
    · have new : Request.New h (.store call) := new
      have started : (h.answer (.store call)).1 = .ok answer := carried
      rw [carried]
      generalize (h.callStore call).2.store = after at performed
      cases Store.performed_of_ok performed with
      | got | foundActive | listedActive | listedMessages | posted | alreadyOpen => exact .nil _
      | moved stored moves row => exact Store.trail_of_moved stored moves row id
      | created vacant row opening => exact Store.trail_of_created (by rw [row]) (new _ _ started) id

/-- Every start in the log that created a conversation found no other of that identifier. -/
def Occurrence.New : Occurrence → Prop
  | asked _ hub request => request.New hub
  | received _ | gone _ => True

namespace Execution
variable {α : Type} {x y u : Execution α} {turns : List Turn} {log : List Occurrence}

theorem next_inherits (x : Execution α) (turn : Turn) : x.hub.Inherits (x.next turn).2.hub := by
  have same (hub : Hub) (reachable : hub.reachable = x.hub.reachable) (faults : hub.faults = x.hub.faults) :
      x.hub.Inherits hub := ⟨reachable, fun _ => by rw [faults]; exact List.Subset.refl _⟩
  cases turn with
  | receive queue => exact same _ rfl rfl
  | endReceiving queue => exact same _ rfl rfl
  | task number moment =>
    simp only [next]
    split
    · next request rest found => exact (same { x.hub with clock := moment } rfl rfl).trans (Hub.answer_inherits _ request)
    · exact .refl _
    · exact .refl _

theorem run_inherits (runs : x.run turns = (log, y)) : x.hub.Inherits y.hub := by
  induction turns generalizing x log with
  | nil =>
    cases runs
    exact .refl _
  | cons turn turns ih =>
    cases runs
    exact (x.next_inherits turn).trans (ih (x := (x.next turn).2) rfl)

theorem next_trail (undisturbed : x.hub.Undisturbed) {turn : Turn} {o : Option Occurrence} (taken : x.next turn = (o, u))
    (new : ∀ p ∈ o, p.New) (id : ConversationId) :
    Store.Trail (x.hub.store.get? id) (o.toList.filterMap (·.moved? id)) (u.hub.store.get? id) := by
  cases turn with
  | receive queue =>
    cases taken
    exact .nil _
  | endReceiving queue =>
    cases taken
    exact .nil _
  | task number moment =>
    simp only [next] at taken
    split at taken
    · next request rest found =>
      cases taken
      have trail := Hub.answer_trail (h := { x.hub with clock := moment }) undisturbed (new _ rfl) id number
      rw [Option.toList_some, List.filterMap_cons]
      cases row : (Occurrence.asked number { x.hub with clock := moment } request).moved? id <;>
        rw [row] at trail <;> exact trail
    · cases taken
      exact .nil _
    · cases taken
      exact .nil _

/-- The rows that a conversation gets in an execution are those of the log. -/
theorem run_trail (undisturbed : x.hub.Undisturbed) (runs : x.run turns = (log, y)) (new : ∀ o ∈ log, o.New)
    (id : ConversationId) : Store.Trail (x.hub.store.get? id) (log.filterMap (·.moved? id)) (y.hub.store.get? id) := by
  induction turns generalizing x log with
  | nil =>
    cases runs
    exact .nil _
  | cons turn turns ih =>
    cases runs
    have first := next_trail undisturbed (o := (x.next turn).1) (u := (x.next turn).2) rfl
      (fun o there => new o (List.mem_append_left _ (Option.mem_toList.mpr there))) id
    have last := ih (x := (x.next turn).2) ((x.next_inherits turn).undisturbed undisturbed) rfl
      fun o there => new o (List.mem_append_right _ there)
    rw [List.filterMap_append]
    exact first.append last

/-- A request finds the row that the log has come to. -/
theorem trail_of_asked (undisturbed : x.hub.Undisturbed) {before later : List Occurrence} {task : Nat} {found : Hub}
    {request : Request} (runs : x.run turns = (before ++ .asked task found request :: later, y))
    (new : ∀ o ∈ before ++ .asked task found request :: later, o.New) (id : ConversationId) :
    Store.Trail (x.hub.store.get? id) (before.filterMap (·.moved? id)) (found.store.get? id) ∧
    Store.Trail (found.store.get? id) ((Occurrence.asked task found request :: later).filterMap (·.moved? id))
      (y.hub.store.get? id) := by
  obtain ⟨first, turn, last, u, v, -, earlier, now, remaining⟩ := run_split runs
  have same : found.store = u.hub.store := by
    obtain ⟨moment, next, -, rfl, -⟩ := next_asked now
    rfl
  have onward : u.run (turn :: last) = (.asked task found request :: later, y) := by
    rw [run_of_taken now, remaining]
  rw [same]
  exact ⟨run_trail undisturbed earlier (fun o there => new o (List.mem_append_left _ there)) id,
    run_trail ((run_inherits earlier).undisturbed undisturbed) onward
      (fun o there => new o (List.mem_append_right _ there)) id⟩

theorem inherits_of_asked (runs : x.run turns = (log, y)) {task : Nat} {found : Hub} {request : Request}
    (there : .asked task found request ∈ log) : x.hub.Inherits found := by
  obtain ⟨before, later, rfl⟩ := List.append_of_mem there
  obtain ⟨first, turn, last, u, v, -, earlier, now, -⟩ := run_split runs
  obtain ⟨moment, next, -, rfl, -⟩ := next_asked now
  exact (run_inherits earlier).trans ⟨rfl, fun _ => List.Subset.refl _⟩

theorem distinct_of_asked (runs : x.run turns = (log, y)) (distinct : x.hub.Distinct y.hub) {task : Nat} {found : Hub}
    {request : Request} (there : .asked task found request ∈ log) : found.Distinct (found.answer request).2 := by
  obtain ⟨before, later, rfl⟩ := List.append_of_mem there
  obtain ⟨-, ⟨_, start⟩, v, _, after, onward⟩ := run_asked runs
  obtain ⟨_, answered⟩ := found.answer_reaches request
  obtain ⟨-, _, rest⟩ := run_hub onward
  rw [after] at rest
  exact answered.distinct_left rest (start.distinct_right (answered.trans rest) distinct)

theorem run_new (runs : x.run turns = (log, y)) (distinct : x.hub.Distinct y.hub) : ∀ o ∈ log, o.New := by
  intro o there
  cases o with
  | received queue => trivial
  | gone queue => trivial
  | asked task found request => exact Hub.new_of_distinct (distinct_of_asked runs distinct there)

end Execution

end HelpDesk
