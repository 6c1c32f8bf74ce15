import HelpDesk.Proofs.ServiceSteps

/-! The rooms of a help desk while connections come and go. Every connection has a seat of its own in the registry, whatever
the others do; who is in a room is served, or was let in by somebody else. -/

namespace HelpDesk.Traffic
open Registry (Coherent)

variable {x y : Traffic} {moves earlier : List Move} {move : Move}

/-- The session that comes to be served. -/
def Move.entering? : Move → Option SessionId
  | enter c => some c.session
  | step _ _ | request _ | clock _ | receive _ | endReceiving _ => none

/-- The session that somebody else lets into a room. -/
def Move.admits? : Move → Option SessionId
  | request (.join _ session _ _ _) => some session
  | request (.store _) | request (.rooms _) | request .roomCount => none
  | enter _ | step _ _ | clock _ | receive _ | endReceiving _ => none

/-- The session that joins a room. -/
def Move.joining? (move : Move) : Option SessionId :=
  move.entering?.or move.admits?

/-- What a move comes to. -/
inductive Becomes (x : Traffic) : Move → Traffic → Prop
  | entered {c : Connection} {queue : QueueId} {hub : Hub} (joins : x.hub.registry.join c.room c.session c.identity
      x.hub.settings.queueCapacity c.isDashboard = (queue, hub.registry)) :
      Becomes x (.enter c) ⟨hub, x.services ++ [.entering c queue c.afterJoin]⟩
  | stepped {n : Nat} {step : Service.Step} {s s' : Service} {es : List (Registry.Event Parcel)} {hub : Hub}
      (served : x.services[n]? = some s) (does : Service.Does x.hub step s s' es)
      (registry : hub.registry = x.hub.registry.after es) : Becomes x (.step n step) ⟨hub, x.services.set n s'⟩
  /-- no connection does anything -/
  | beside {move : Move} {hub : Hub} (es : List (Registry.Event Parcel)) (quiet : move.entering? = none)
      (idle : ∀ n step, move = .step n step → x.services[n]? = none)
      (registry : hub.registry = x.hub.registry.after es)
      (apart : ∀ s ∈ x.services, .receive s.queue ∉ es ∧ .endReceiving s.queue ∉ es)
      (joins : ∀ room session identity capacity holding, .join room session identity capacity holding ∈ es →
        move.admits? = some session) : Becomes x move ⟨hub, x.services⟩

theorem after_of_joins {r joined : Registry Parcel} {room : ConversationId} {session : SessionId} {identity : Identity}
    {capacity : Nat} {holding : Bool} {queue : QueueId}
    (joins : r.join room session identity capacity holding = (queue, joined)) :
    joined = r.after [.join room session identity capacity holding] := by
  rw [Registry.after_cons, Registry.after_nil, Registry.next, joins]

theorem not_isServed {queue : QueueId} (unserved : ¬ x.isServed queue = true) : ∀ s ∈ x.services, s.queue ≠ queue := by
  simpa [isServed] using unserved

theorem becomes_next (x : Traffic) (move : Move) : x.Becomes move (x.next move) := by
  have unchanged {hub : Hub} (quiet : move.entering? = none)
      (idle : ∀ n step, move = .step n step → x.services[n]? = none) (registry : hub.registry = x.hub.registry) :
      x.Becomes move ⟨hub, x.services⟩ :=
    .beside [] quiet idle registry (fun s _ => ⟨List.not_mem_nil, List.not_mem_nil⟩)
      fun _ _ _ _ _ there => absurd there List.not_mem_nil
  cases move with
  | enter c => exact .entered rfl
  | step n step =>
    simp only [next]
    cases served : x.services[n]? with
    | none =>
      refine unchanged rfl (fun k other same => ?_) rfl
      cases same
      exact served
    | some s =>
      obtain ⟨es, does, registry⟩ := s.comes_step x.hub step
      exact .stepped served does registry
  | clock now => exact unchanged rfl (fun _ _ same => by cases same) rfl
  | request request =>
    refine .beside request.event?.toList rfl (fun _ _ same => by cases same) (x.hub.answer_registry request) ?_ ?_
    · intro s _
      cases request <;> simp [Request.event?]
    · intro room session identity capacity holding there
      cases request with
      | store | roomCount => cases there
      | rooms command => simp [Request.event?] at there
      | join => simp_all [Request.event?, Move.admits?]
  | receive queue =>
    simp only [next]
    split
    · exact unchanged rfl (fun _ _ same => by cases same) rfl
    · next unserved =>
      refine .beside [.receive queue] rfl (fun _ _ same => by cases same) rfl (fun s there => ?_) (by simp)
      simpa using not_isServed unserved s there
  | endReceiving queue =>
    simp only [next]
    split
    · exact unchanged rfl (fun _ _ same => by cases same) rfl
    · next unserved =>
      refine .beside [.endReceiving queue] rfl (fun _ _ same => by cases same) rfl (fun s there => ?_) (by simp)
      simpa using not_isServed unserved s there

/-- What is true after some moves from an empty registry. -/
structure Kept (moves : List Move) (x : Traffic) : Prop where
  coherent : Coherent x.hub.registry
  seats : ∀ s ∈ x.services, ∃ seat, s.Holds x.hub.registry seat
  /-- connections have queues of their own -/
  queues : (x.services.map (·.queue)).Nodup
  sessions : x.services.map (·.connection.session) = moves.filterMap (·.entering?)
  /-- whoever is in a room is served, or was let in by somebody else -/
  members : ∀ room, ∀ m ∈ x.hub.registry.members room,
    (∃ s ∈ x.services, s.queue = m.queue) ∨ m.session ∈ moves.filterMap (·.admits?)

theorem Kept.start {hub : Hub} (vacant : hub.registry = {}) : Kept [] ⟨hub, []⟩ := by
  refine ⟨?_, fun _ there => absurd there List.not_mem_nil, List.nodup_nil, rfl, ?_⟩
  all_goals rw [vacant]
  · exact .initial
  · intro room m there
    cases there

theorem map_set_of_same {α β : Type} {f : α → β} {as : List α} {n : Nat} {a b : α} (there : as[n]? = some a)
    (same : f b = f a) : (as.set n b).map f = as.map f := by
  rw [List.map_set, same]
  apply List.ext_getElem?
  intro i
  rw [List.getElem?_set]
  split
  · next here =>
    subst here
    have known : (as.map f)[n]? = some (f a) := by rw [List.getElem?_map, there, Option.map_some]
    rw [known, if_pos (List.getElem?_eq_some_iff.mp known).1]
  · rfl

section Next
variable (kept : Kept earlier x)
include kept

section Registry
variable {hub : Hub} {es : List (Registry.Event Parcel)} (registry : hub.registry = x.hub.registry.after es)
include registry

theorem Kept.coherent_after : Coherent hub.registry := by
  rw [registry]
  exact kept.coherent.after es

theorem Kept.seat_after {s : Service} (there : s ∈ x.services) : ∃ seat, s.Holds hub.registry seat := by
  obtain ⟨seat, holds⟩ := kept.seats s there
  rw [registry]
  exact ⟨_, holds.after kept.coherent.valid es⟩

/-- Whoever is in a room then is served now, or was let in by somebody else, or joins. -/
theorem Kept.member_after {room : ConversationId} {m : Member Parcel} (there : m ∈ hub.registry.members room) :
    (m.queue ∈ x.services.map (·.queue) ∨ m.session ∈ earlier.filterMap (·.admits?)) ∨
      ∃ capacity holding, .join room m.session m.identity capacity holding ∈ es := by
  rw [registry] at there
  refine (Registry.mem_after kept.coherent.valid there).imp_left ?_
  rintro ⟨before, old, keeps⟩
  rw [keeps.queue, keeps.session]
  exact (kept.members room before old).imp_left fun ⟨s, served, own⟩ => own ▸ List.mem_map_of_mem served

end Registry

theorem Kept.of_entered {c : Connection} {queue : QueueId} {hub : Hub} (joins : x.hub.registry.join c.room c.session
    c.identity x.hub.settings.queueCapacity c.isDashboard = (queue, hub.registry)) :
    Kept (earlier ++ [.enter c]) ⟨hub, x.services ++ [.entering c queue c.afterJoin]⟩ := by
  have registry := after_of_joins joins
  have fresh : queue = (x.hub.registry.newQueue x.hub.settings.queueCapacity).1 := by
    rw [← Registry.join_number, joins]
  obtain ⟨-, seat, seated, sound, -⟩ := Registry.seat_of_join kept.coherent.valid joins
  have newcomer : (Service.entering c queue c.afterJoin).Holds hub.registry seat := by
    refine ⟨seated, sound, ?_, ?_, c.minds_afterJoin queue, ?_, ?_⟩
    · intro left
      cases left
    · intro complete
      cases complete
    · intro closed
      cases closed
    · intro since writing
      cases writing
  refine ⟨kept.coherent_after registry, ?_, ?_, ?_, ?_⟩
  · intro s there
    rcases List.mem_append.mp there with there | there
    · exact kept.seat_after registry there
    · rw [List.mem_singleton.mp there]
      exact ⟨seat, newcomer⟩
  · rw [List.map_append, List.map_singleton]
    refine List.Nodup.append kept.queues (List.nodup_singleton _) ?_
    intro other old new
    obtain ⟨s, there, rfl⟩ := List.mem_map.mp old
    obtain ⟨seat, holds⟩ := kept.seats s there
    exact Registry.not_new holds.seated.queue _ ((List.mem_singleton.mp new).trans fresh)
  · rw [List.map_append, List.filterMap_append, kept.sessions]
    rfl
  · intro room m there
    rw [registry, Registry.after_cons, Registry.after_nil] at there
    rcases Registry.mem_next kept.coherent.valid there with ⟨before, old, keeps⟩ | ⟨capacity, holding, -, new⟩
    · rw [keeps.queue, keeps.session, List.filterMap_append]
      refine (kept.members room before old).imp ?_ (List.mem_append_left _)
      rintro ⟨s, served, own⟩
      exact ⟨s, List.mem_append_left _ served, own⟩
    · refine .inl ⟨_, List.mem_append_right _ List.mem_cons_self, ?_⟩
      rw [new]
      exact fresh

theorem Kept.of_stepped {n : Nat} {step : Service.Step} {s s' : Service} {es : List (Registry.Event Parcel)} {hub : Hub}
    (served : x.services[n]? = some s) (does : Service.Does x.hub step s s' es)
    (registry : hub.registry = x.hub.registry.after es) :
    Kept (earlier ++ [.step n step]) ⟨hub, x.services.set n s'⟩ := by
  obtain ⟨seat, holds⟩ := kept.seats s (List.mem_of_getElem? served)
  have queues : (x.services.set n s').map (·.queue) = x.services.map (·.queue) :=
    map_set_of_same served (congrArg Registry.Place.queue does.place)
  refine ⟨kept.coherent_after registry, ?_, ?_, ?_, ?_⟩
  · intro other there
    rcases List.mem_or_eq_of_mem_set there with there | rfl
    · exact kept.seat_after registry there
    · rw [registry]
      exact ⟨_, holds.step kept.coherent.valid does⟩
  · rw [queues]
    exact kept.queues
  · rw [map_set_of_same served (congrArg Registry.Place.session does.place), kept.sessions, List.filterMap_append]
    exact (List.append_nil _).symm
  · intro room m there
    rw [List.filterMap_append]
    rcases kept.member_after registry there with (served | admitted) | ⟨capacity, holding, joins⟩
    · rw [← queues] at served
      exact .inl (List.mem_map.mp served)
    · exact .inr (List.mem_append_left _ admitted)
    · rcases does.events holds.minds with ⟨room, parcel, rfl⟩ | own
      · cases List.mem_singleton.mp joins
      · exact (own _ joins).elim

theorem Kept.of_beside {es : List (Registry.Event Parcel)} {hub : Hub} (quiet : move.entering? = none)
    (registry : hub.registry = x.hub.registry.after es)
    (joins : ∀ room session identity capacity holding, .join room session identity capacity holding ∈ es →
      move.admits? = some session) : Kept (earlier ++ [move]) ⟨hub, x.services⟩ := by
  refine ⟨kept.coherent_after registry, fun s there => kept.seat_after registry there, kept.queues, ?_, ?_⟩
  · rw [kept.sessions, List.filterMap_append]
    simp [quiet]
  · intro room m there
    rw [List.filterMap_append]
    rcases kept.member_after registry there with (served | admitted) | ⟨capacity, holding, joined⟩
    · exact .inl (List.mem_map.mp served)
    · exact .inr (List.mem_append_left _ admitted)
    · refine .inr (List.mem_append_right _ ?_)
      simp [joins _ _ _ _ _ joined]

theorem Kept.next (move : Move) : Kept (earlier ++ [move]) (x.next move) := by
  have becomes := x.becomes_next move
  generalize x.next move = y at becomes
  cases becomes with
  | entered joins => exact kept.of_entered joins
  | stepped served does registry => exact kept.of_stepped served does registry
  | beside es quiet idle registry apart joins => exact kept.of_beside quiet registry joins

theorem Kept.after (moves : List Move) : Kept (earlier ++ moves) (x.after moves) := by
  induction moves generalizing earlier x with
  | nil => rwa [List.append_nil]
  | cons move moves ih =>
    rw [List.append_cons]
    exact ih (kept.next move)

end Next

theorem count_filterMap_or {α β : Type} [BEq β] {f g : α → Option β} (apart : ∀ a, f a = none ∨ g a = none) (as : List α)
    (b : β) : (as.filterMap fun a => (f a).or (g a)).count b = (as.filterMap f).count b + (as.filterMap g).count b := by
  induction as with
  | nil => rfl
  | cons a as ih =>
    rcases apart a with none | none
    · cases found : g a <;> simp [none, found, List.count_cons, ih]
      omega
    · cases found : f a <;> simp [none, found, List.count_cons, ih]
      omega

theorem count_joining (session : SessionId) (moves : List Move) : (moves.filterMap (·.joining?)).count session =
    (moves.filterMap (·.entering?)).count session + (moves.filterMap (·.admits?)).count session := by
  refine count_filterMap_or (fun move => ?_) moves session
  cases move with
  | enter c => exact .inr rfl
  | step | request | clock | receive | endReceiving => exact .inl rfl

/-- Two of a list that look alike count twice. -/
theorem two_le_count {α β : Type} [BEq β] [LawfulBEq β] (f : α → β) {as : List α} {a b : α} (left : a ∈ as)
    (right : b ∈ as) (different : a ≠ b) (same : f a = f b) : 2 ≤ (as.map f).count (f a) := by
  obtain ⟨first, last, rfl⟩ := List.append_of_mem left
  have elsewhere : b ∈ first ++ last := by
    rcases List.mem_append.mp right with there | there
    · exact List.mem_append_left _ there
    · rcases List.mem_cons.mp there with equal | there
      · exact absurd equal.symm different
      · exact List.mem_append_right _ there
  have counted : 0 < ((first ++ last).map f).count (f a) := by
    rw [List.count_pos_iff, same]
    exact List.mem_map_of_mem elsewhere
  rw [List.map_append, List.count_append] at counted
  rw [List.map_append, List.map_cons, List.count_append, List.count_cons_self]
  omega

section Results
variable (kept : Kept moves x)
include kept

/-- A member has the queue of a connection only if it is this connection's session, and has not left. -/
theorem Kept.own_member {s : Service} (there : s ∈ x.services) {room : ConversationId} {m : Member Parcel}
    (present : m ∈ x.hub.registry.members room) (own : m.queue = s.queue) :
    m.session = s.connection.session ∧ s.isStaying = true := by
  obtain ⟨seat, holds⟩ := kept.seats s there
  obtain ⟨-, sits⟩ := holds.seated.only room m present own
  refine ⟨(holds.seated.member m sits).2.1, ?_⟩
  cases staying : s.isStaying with
  | true => rfl
  | false => cases (holds.left staying).symm.trans sits

theorem Kept.not_member {s : Service} (there : s ∈ x.services) (left : s.isStaying = false) {room : ConversationId}
    {m : Member Parcel} (present : m ∈ x.hub.registry.members room) : m.queue ≠ s.queue := by
  intro own
  cases left.symm.trans (kept.own_member there present own).2

/-- A session that is served once, and that nobody else lets in, is in no room after it has left its own. -/
theorem Kept.absent_of_left {s : Service} (there : s ∈ x.services) (left : s.isStaying = false)
    (once : (moves.filterMap (·.joining?)).count s.connection.session ≤ 1) (room : ConversationId) :
    x.hub.registry.member? room s.connection.session = none := by
  rw [count_joining, ← kept.sessions] at once
  rw [Registry.member?_eq_none_iff]
  intro m present same
  have counted : 0 < (x.services.map (·.connection.session)).count s.connection.session :=
    List.count_pos_iff.mpr (List.mem_map_of_mem there)
  rcases kept.members room m present with ⟨t, served, own⟩ | admitted
  · have different : s ≠ t := fun equal => kept.not_member there left present (own.symm.trans (equal ▸ rfl))
    have alike : s.connection.session = t.connection.session :=
      same.symm.trans (kept.own_member served present own.symm).1
    have twice := two_le_count (·.connection.session) there served different alike
    omega
  · rw [same] at admitted
    have more := List.count_pos_iff.mpr admitted
    omega

/-- If only connections that are served are let into rooms, all rooms are gone when all connections have left. -/
theorem Kept.roomCount_of_left (nobody : ∀ move ∈ moves, move.admits? = none)
    (left : ∀ s ∈ x.services, s.isStaying = false) : x.hub.registry.roomCount = 0 := by
  apply Registry.roomCount_eq_zero kept.coherent.tidy
  intro room
  rw [List.eq_nil_iff_forall_not_mem]
  intro m present
  rcases kept.members room m present with ⟨s, served, own⟩ | admitted
  · exact kept.not_member served (left s served) present own.symm
  · obtain ⟨move, there, admits⟩ := List.mem_filterMap.mp admitted
    cases (nobody move there).symm.trans admits

/-- The session that is over has given up both ends of its queue. -/
theorem Kept.queue_of_over {s : Service} (there : s ∈ x.services) (complete : s.isOver = true) :
    ∃ q, x.hub.registry.queue? s.queue = some q ∧ q.sending = false ∧ q.receiving = false ∧ q.waiting = [] := by
  obtain ⟨seat, holds⟩ := kept.seats s there
  have vacant := holds.left (Service.not_staying_of_over complete)
  obtain ⟨receiving, waiting⟩ := holds.gone complete
  refine ⟨seat.queue, holds.seated.queue, ?_, receiving, waiting⟩
  rw [holds.sound.sending, vacant]
  rfl

theorem Kept.enter_removes_nobody (c : Connection) {q : Registry.Place} (sits : x.hub.registry.Sits q) :
    (x.next (.enter c)).hub.registry.Sits q :=
  sits.after_join kept.coherent.valid kept.coherent.manned _ _ _ _ _

/-- A connection removes another session by a frame for the whole room only, which that session cannot take. -/
theorem Kept.exhausted_of_removed {n : Nat} {step : Service.Step} {s : Service} (served : x.services[n]? = some s)
    {q : Registry.Place} (other : ¬ (q.room = s.connection.room ∧ q.session = s.connection.session))
    (sits : x.hub.registry.Sits q) (gone : ¬ (x.next (.step n step)).hub.registry.Sits q) :
    ∃ frame, (x.next (.step n step)).hub.registry = x.hub.registry.broadcast q.room frame ∧
      ∃ m ∈ x.hub.registry.members q.room, m.session = q.session ∧ m.queue = q.queue ∧
        ∃ queue, x.hub.registry.queue? q.queue = some queue ∧ Registry.Exhausted m queue := by
  have becomes := x.becomes_next (.step n step)
  generalize x.next (.step n step) = y at becomes gone ⊢
  cases becomes with
  | beside es quiet idle registry apart joins => cases served.symm.trans (idle n step rfl)
  | stepped found does registry =>
    cases served.symm.trans found
    obtain ⟨seat, holds⟩ := kept.seats s (List.mem_of_getElem? served)
    rw [registry] at gone ⊢
    rcases does.events holds.minds with ⟨room, frame, rfl⟩ | own
    · obtain ⟨rfl, exhausted⟩ := sits.exhausted_of_broadcast kept.coherent.valid kept.coherent.manned gone
      exact ⟨frame, rfl, exhausted⟩
    · exact absurd (sits.after_own kept.coherent.valid kept.coherent.manned own other) gone

end Results

end HelpDesk.Traffic
