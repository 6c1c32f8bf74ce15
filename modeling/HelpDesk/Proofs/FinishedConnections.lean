import HelpDesk.Proofs.ServedRooms

/-! The end of a connection. Whatever ends it, nothing of it is left in the registry; and if its reader stops first, its
writer may still write all that waits, and then the close frame. -/

namespace HelpDesk

/-- Neither a ping nor the close frame. -/
def SocketFrame.isOwed (frame : SocketFrame) : Bool :=
  frame != .heartbeat && frame != .close

/-- What the writer is writing, and what waits for it. -/
def Session.pending (s : Session) (r : Registry Parcel) : List SocketFrame :=
  s.writing?.toList ++ (r.waiting s.queue).map fun parcel => .text parcel.text

section Pending
variable {s : Session} {r r' : Registry Parcel}

theorem Session.pending_congr (same : r'.waiting s.queue = r.waiting s.queue) : s.pending r' = s.pending r := by
  rw [pending, pending, same]

theorem Session.pending_of_idle (idle : s.writer.phase = .idle) :
    s.pending r = (r.waiting s.queue).map fun parcel => .text parcel.text := by
  cases stage : s.stage <;> simp [pending, writing?, stage, idle]

theorem Session.pending_of_writing {limit since : Instant} {frame : SocketFrame} (stage : s.stage = .draining limit)
    (writing : s.writer.phase = .writing frame since) :
    s.pending r = [frame] ++ (r.waiting s.queue).map fun parcel => .text parcel.text := by
  simp [pending, writing?, stage, writing]

end Pending

namespace Traffic

/-- No write fails or takes too long, and nobody finds that the limit is reached. -/
def Move.IsTimely (n : Nat) (limit : Instant) : Move → Prop
  | step k (.wrote _ succeeded) => k = n → succeeded = true
  | step k (.stall _) => k ≠ n
  | step k (.expire now) => k = n → now < limit
  | step _ (.proceed _) | step _ (.hear _ _) | step _ (.begin _ _) | step _ .conclude => True
  | enter _ | request _ | clock _ | receive _ | endReceiving _ => True

end Traffic

namespace Service

/-- What has become of a connection whose reader has stopped, when the writer had written `sent` and `owed` was left. -/
inductive Drains (limit : Instant) (sent owed : List SocketFrame) (r : Registry Parcel) : Service → Prop
  | going {s : Session} {work : Program Unit} {frames : List SocketFrame} (stage : s.stage = .draining limit)
      (going : ∀ when, s.writer.phase ≠ .ended when) (unclosed : .close ∉ sent ++ frames)
      (rest : frames.filter (· != .heartbeat) ++ (s.pending r).filter (·.isOwed) = owed) :
      Drains limit sent owed r (.live s work (sent ++ frames))
  | closed {s : Session} {work : Program Unit} {frames : List SocketFrame} {when : Instant}
      (stopped : ∀ deadline, s.stage ≠ .serving deadline) (ended : s.writer.phase = .ended when)
      (unclosed : .close ∉ sent ++ frames) (all : frames.filter (· != .heartbeat) = owed) :
      Drains limit sent owed r (.live s work (sent ++ frames ++ [.close]))

theorem Holds.waiting_aside {s : Service} {r : Registry Parcel} {seat : Registry.Seat Parcel}
    {es : List (Registry.Event Parcel)} (holds : s.Holds r seat) (valid : Registry.Valid r) (left : s.isStaying = false)
    (taken : .receive s.queue ∉ es) (abandoned : .endReceiving s.queue ∉ es) :
    (r.after es).waiting s.queue = r.waiting s.queue := by
  have unchanged := Registry.Seat.foldl_unchanged (p := s.place) (holds.left left) taken abandoned
  have after := (holds.seated.after valid es).waiting
  rw [unchanged] at after
  exact after.trans holds.seated.waiting.symm

section Drains
variable {limit : Instant} {sent owed : List SocketFrame} {h : Hub} {r : Registry Parcel} {seat : Registry.Seat Parcel}
  {s s' : Service} {es : List (Registry.Event Parcel)}

theorem Drains.not_staying (drains : Drains limit sent owed r s) : s.isStaying = false := by
  cases drains with
  | going stage => simp [isStaying, stage]
  | @closed session work frames when stopped =>
    cases stage : session.stage with
    | serving deadline => exact absurd stage (stopped deadline)
    | draining | finished => simp [isStaying, stage]

theorem Drains.aside (drains : Drains limit sent owed r s) (holds : s.Holds r seat) (valid : Registry.Valid r)
    (taken : .receive s.queue ∉ es) (abandoned : .endReceiving s.queue ∉ es) : Drains limit sent owed (r.after es) s := by
  have waiting := holds.waiting_aside valid drains.not_staying taken abandoned
  cases drains with
  | @going session work frames stage going unclosed rest =>
    have same : session.pending (r.after es) = session.pending r := Session.pending_congr waiting
    exact .going stage going unclosed (by rw [same, rest])
  | closed stopped ended unclosed all => exact .closed stopped ended unclosed all

theorem Drains.step {n : Nat} {step : Step} (drains : Drains limit sent owed h.registry s)
    (holds : s.Holds h.registry seat) (valid : Registry.Valid h.registry) (does : Does h step s s' es)
    (timely : (Traffic.Move.step n step).IsTimely n limit) : Drains limit sent owed (h.registry.after es) s' := by
  have left := drains.not_staying
  cases drains with
  | closed stopped ended unclosed all =>
    cases does with
    | nothing | replies => exact .closed stopped ended unclosed all
    | finishes => exact .closed (fun _ same => by cases same) ended unclosed all
    | takesIn reads | waits reads | leaves reads _ | concludes reads => exact absurd reads (stopped _)
    | pings idle | takes idle | closes idle => cases idle.symm.trans ended
    | writes writing | ends writing | fails _ writing => cases writing.symm.trans ended
  | @going session work frames stage going unclosed rest =>
    cases does with
    | nothing => exact .going stage going unclosed rest
    | @replies now session request =>
      have waiting : (h.registry.after request.event?.toList).waiting session.queue = h.registry.waiting session.queue := by
        apply holds.waiting_aside valid left <;> cases request <;> simp [Request.event?]
      have same : session.pending (h.registry.after request.event?.toList) = session.pending h.registry :=
        Session.pending_congr waiting
      exact .going stage going unclosed (by rw [same, rest])
    | takesIn reads | waits reads | leaves reads _ | concludes reads => cases reads.symm.trans stage
    | @pings _ _ _ _ _ _ writer idle writes =>
      have next : ({ session with writer } : Session).pending h.registry = _ := Session.pending_of_writing stage writes
      refine .going stage (fun when ended => by cases writes.symm.trans ended) unclosed ?_
      rw [← rest, Registry.after_nil, next, Session.pending_of_idle idle]
      rfl
    | @takes _ _ _ _ _ _ writer parcel idle received writes =>
      have next (r : Registry Parcel) : ({ session with writer } : Session).pending r = _ :=
        Session.pending_of_writing stage writes
      have waiting : h.registry.waiting session.queue = _ :: _ := holds.seated.waiting_of_received valid received
      refine .going stage (fun when ended => by cases writes.symm.trans ended) unclosed ?_
      rw [← rest, next, Session.pending_of_idle idle, waiting]
      rfl
    | @closes _ _ _ _ _ _ writer idle closed writes =>
      have next (r : Registry Parcel) : ({ session with writer } : Session).pending r = _ :=
        Session.pending_of_writing stage writes
      have spent := spent_of_closed holds.seated holds.sound closed
      have before : h.registry.waiting session.queue = [] := holds.seated.waiting.trans spent.2
      have after : (h.registry.after [.receive session.queue]).waiting session.queue = [] :=
        (holds.seated.after valid [.receive session.queue]).waiting.trans (spent.after _ _).2
      refine .going stage (fun when ended => by cases writes.symm.trans ended) unclosed ?_
      rw [← rest, next, Session.pending_of_idle idle, before, after]
      rfl
    | @writes _ _ _ _ _ writer frame writing other idle =>
      have next : ({ session with writer } : Session).pending h.registry = _ := Session.pending_of_idle idle
      have alike : [frame].filter (·.isOwed) = [frame].filter (· != .heartbeat) := by
        simp [List.filter_cons, SocketFrame.isOwed, other]
      rw [List.append_assoc]
      refine .going stage (fun when ended => by cases idle.symm.trans ended) ?_ ?_
      · rw [← List.append_assoc]
        simpa [other.symm] using unclosed
      · rw [← rest, Registry.after_nil, next, Session.pending_of_writing stage writing,
          List.filter_append, List.filter_append, alike, List.append_assoc]
    | ends writing ended =>
      have nothing : h.registry.waiting session.queue = [] :=
        holds.seated.waiting.trans (holds.closing _ writing).2
      refine .closed (fun deadline reads => by cases reads.symm.trans stage) ended unclosed ?_
      rw [← rest, Session.pending_of_writing stage writing, nothing]
      exact (List.append_nil _).symm
    | fails fault writing ended =>
      obtain ⟨now, rfl | rfl⟩ := fault
      · cases timely rfl
      · exact absurd rfl timely
    | finishes drains why =>
      cases drains.symm.trans stage
      rcases why with ⟨-, ended⟩ | ⟨now, rfl, late⟩
      · cases phase : session.writer.phase with
        | ended when => exact absurd phase (going when)
        | idle | writing => simp [Writer.hasEnded, phase] at ended
      · exact absurd (timely rfl) (Nat.not_lt_of_le late)

end Drains

end Service

/-- After the frames `sent`, all that were pending are written, in order, perhaps with pings among them; and then the close
frame, which was not written before. -/
def ClosedAfter (sent pending all : List SocketFrame) : Prop :=
  ∃ frames, all = sent ++ frames ++ [.close] ∧ .close ∉ sent ++ frames ∧
    frames.filter (· != .heartbeat) = pending.filter (·.isOwed)

namespace Traffic
open Service (Drains)

variable {x : Traffic} {moves earlier later : List Move} {move : Move} {n : Nat} {limit : Instant}
  {sent owed : List SocketFrame}

theorem Kept.index_of_queue (kept : Kept moves x) {k : Nat} {s t : Service} (left : x.services[k]? = some t)
    (right : x.services[n]? = some s) (same : t.queue = s.queue) : k = n := by
  have first : (x.services.map (·.queue))[k]? = some s.queue := by rw [List.getElem?_map, left, Option.map_some, same]
  have last : (x.services.map (·.queue))[n]? = some s.queue := by rw [List.getElem?_map, right, Option.map_some]
  exact (List.getElem?_inj (List.getElem?_eq_some_iff.mp first).1 kept.queues).mp (first.trans last.symm)

theorem Kept.drains_next (kept : Kept earlier x) {s : Service} (served : x.services[n]? = some s)
    (drains : Drains limit sent owed x.hub.registry s) (timely : move.IsTimely n limit) :
    ∃ t, (x.next move).services[n]? = some t ∧ Drains limit sent owed (x.next move).hub.registry t := by
  have there := List.mem_of_getElem? served
  have valid := kept.coherent.valid
  obtain ⟨seat, holds⟩ := kept.seats s there
  have becomes := x.becomes_next move
  generalize x.next move = y at becomes
  cases becomes with
  | entered joins =>
    rw [after_of_joins joins]
    refine ⟨s, ?_, drains.aside holds valid (by simp) (by simp)⟩
    exact (List.getElem?_append_left (List.getElem?_eq_some_iff.mp served).1).trans served
  | beside es quiet idle registry apart joins =>
    rw [registry]
    exact ⟨s, served, drains.aside holds valid (apart s there).1 (apart s there).2⟩
  | @stepped k step t t' es hub found does registry =>
    rw [registry]
    by_cases same : k = n
    · subst same
      cases served.symm.trans found
      refine ⟨t', ?_, drains.step holds valid does timely⟩
      exact List.getElem?_set_self (List.getElem?_eq_some_iff.mp served).1
    · obtain ⟨_, other⟩ := kept.seats t (List.mem_of_getElem? found)
      have apart : s.queue ≠ t.queue := fun equal => same (kept.index_of_queue found served equal.symm)
      obtain ⟨taken, abandoned⟩ := does.elsewhere other.minds apart
      exact ⟨s, (List.getElem?_set_ne same).trans served, drains.aside holds valid taken abandoned⟩

theorem Kept.drains_after (kept : Kept earlier x) {s : Service} (served : x.services[n]? = some s)
    (drains : Drains limit sent owed x.hub.registry s) (timely : ∀ move ∈ later, move.IsTimely n limit) :
    ∃ t, (x.after later).services[n]? = some t ∧ Drains limit sent owed (x.after later).hub.registry t := by
  induction later generalizing earlier x s with
  | nil => exact ⟨s, served, drains⟩
  | cons move later ih =>
    obtain ⟨t, served', drains'⟩ := kept.drains_next served drains (timely move List.mem_cons_self)
    exact ih (kept.next move) served' drains' fun other there => timely other (List.mem_cons_of_mem move there)

/-- A writer that is idle after the reader has stopped has something to write. -/
theorem Kept.isSome_begin? (kept : Kept moves x) {s : Session} {work : Program Unit}
    (there : .live s work sent ∈ x.services) (stage : s.stage = .draining limit) (idle : s.writer.phase = .idle)
    (now : Instant) (pingFirst : Bool) : (s.begin? x.hub now pingFirst).isSome := by
  obtain ⟨seat, holds⟩ := kept.seats _ there
  have left : (Service.live s work sent).isStaying = false := by simp [Service.isStaying, stage]
  have known : x.hub.registry.queue? s.queue = some seat.queue := holds.seated.queue
  have unsent : seat.queue.sending = false := by
    rw [holds.sound.sending, holds.left left]
    rfl
  have takes : (s.take? x.hub now).isSome := by
    cases waits : seat.queue.waiting <;>
      simp [Session.take?, Registry.receive, known, Queue.receive, waits, unsent]
  have begins : s.begin? x.hub now pingFirst =
      if pingFirst then (s.ping? x.hub now).or (s.take? x.hub now) else (s.take? x.hub now).or (s.ping? x.hub now) := by
    simp [Session.begin?, stage, idle]
  rw [begins]
  cases pingFirst <;> simp [takes]

theorem Kept.closed_after (kept : Kept earlier x) {s : Session} {work : Program Unit}
    (served : x.services[n]? = some (.live s work sent)) (stage : s.stage = .draining limit)
    (going : s.writer.hasEnded = false) (timely : ∀ move ∈ later, move.IsTimely n limit) {t : Service}
    (finished : (x.after later).services[n]? = some t) (complete : t.isOver = true) :
    ClosedAfter sent (s.pending x.hub.registry) t.sent := by
  obtain ⟨seat, holds⟩ := kept.seats _ (List.mem_of_getElem? served)
  have unended (when : Instant) : s.writer.phase ≠ .ended when := fun ended => by simp [Writer.hasEnded, ended] at going
  have unclosed : .close ∉ sent ++ [] := by
    rw [List.append_nil]
    intro closed
    obtain ⟨when, ended⟩ := holds.last closed
    exact unended when ended
  have drains : Drains limit sent ((s.pending x.hub.registry).filter (·.isOwed)) x.hub.registry
      (.live s work (sent ++ [])) := .going stage unended unclosed rfl
  rw [List.append_nil] at drains
  obtain ⟨t', found, drained⟩ := kept.drains_after served drains timely
  cases finished.symm.trans found
  cases drained with
  | going stage => simp [Service.isOver, Session.isOver, stage] at complete
  | closed stopped ended unclosed all => exact ⟨_, rfl, unclosed, all⟩

/-- When the reader stops, the writer may take so long from then on; what it has to write is the same as before. -/
theorem Kept.stops (kept : Kept moves x) {step : Service.Step} {s t : Session} {work work' : Program Unit}
    {sent' : List SocketFrame} {deadline : Instant} (served : x.services[n]? = some (.live s work sent))
    (reads : s.stage = .serving deadline)
    (after : (x.next (.step n step)).services[n]? = some (.live t work' sent')) (stage : t.stage = .draining limit) :
    (∃ now, step.now? = some now ∧ limit = now + x.hub.settings.writeWait) ∧ t.writer = s.writer ∧ sent' = sent ∧
      t.pending (x.next (.step n step)).hub.registry = s.pending x.hub.registry := by
  have there := List.mem_of_getElem? served
  have valid := kept.coherent.valid
  obtain ⟨seat, holds⟩ := kept.seats _ there
  have becomes := x.becomes_next (.step n step)
  generalize x.next (.step n step) = y at becomes after
  cases becomes with
  | beside es quiet idle registry apart joins => cases served.symm.trans (idle n step rfl)
  | stepped found does registry =>
    cases served.symm.trans found
    rw [List.getElem?_set_self (List.getElem?_eq_some_iff.mp served).1] at after
    obtain rfl := Option.some.inj after
    cases does with
    | @leaves _ now _ _ _ _ time =>
      have waiting : (x.hub.registry.after [.command (.leave s.connection.room s.connection.session)]).waiting s.queue =
          x.hub.registry.waiting s.queue :=
        (holds.seated.next valid _).waiting.trans ((seat.waiting_leave _ _ _).trans holds.seated.waiting.symm)
      have writing : ({ s with stage := .draining (now + x.hub.settings.writeWait) } : Session).writing? = s.writing? := by
        cases phase : s.writer.phase <;> simp [Session.writing?, reads, phase]
      cases stage
      refine ⟨⟨now, time, rfl⟩, rfl, rfl, ?_⟩
      rw [Session.pending, Session.pending, writing, registry, waiting]
    | waits | concludes | finishes => cases stage
    | _ => cases reads.symm.trans stage

end Traffic

/-- Nothing of a connection is left in the registry. -/
structure Service.LeavesNothing (s : Service) (moves : List Traffic.Move) (r : Registry Parcel) : Prop where
  /-- its queue has neither a sender nor a receiver, and nothing waits there -/
  queue : ∃ q, r.queue? s.queue = some q ∧ q.sending = false ∧ q.receiving = false ∧ q.waiting = []
  unowned : ∀ room, ∀ m ∈ r.members room, m.queue ≠ s.queue
  /-- its session is in no room, if it has not joined twice -/
  absent : (moves.filterMap (·.joining?)).count s.connection.session ≤ 1 →
    ∀ room, r.member? room s.connection.session = none

/-- A member is removed by a frame for its room that it cannot take: there is no room for it, where it would be parked or
on the queue, or nobody to receive it. -/
def Registry.Evicts {φ : Type} (r r' : Registry φ) (p : Place) : Prop :=
  ∃ frame, r' = r.broadcast p.room frame ∧ ∃ m ∈ r.members p.room, m.session = p.session ∧ m.queue = p.queue ∧
    ∃ queue, r.queue? p.queue = some queue ∧ Exhausted m queue

/-- Connections come and go, and others do whatever they do. When a connection is over, whatever has ended it, nothing of it
is left in the registry. No session of others is removed by what a connection does, from its coming on, except by a frame
for the whole room that finds no place for it. If nobody else lets sessions into rooms, there are no rooms when all
connections are over. And if the reader of a connection stops before its writer, and no write fails or takes too long, and
all of them are over before the limit that was set then, the connection ends with all that was pending written, and then
one close frame; its writer is never without anything to write meanwhile. -/
theorem finished_connections_leave_nothing {hub : Hub} (vacant : hub.registry = {}) (moves : List Traffic.Move) :
    let x := (Traffic.mk hub []).after moves
    (∀ s ∈ x.services, s.isOver = true → s.LeavesNothing moves x.hub.registry) ∧
    (∀ p, x.hub.registry.Sits p →
      (∀ c, (x.next (.enter c)).hub.registry.Sits p) ∧
      ∀ n step s, x.services[n]? = some s → ¬ (p.room = s.connection.room ∧ p.session = s.connection.session) →
        ¬ (x.next (.step n step)).hub.registry.Sits p →
        x.hub.registry.Evicts (x.next (.step n step)).hub.registry p) ∧
    ((∀ move ∈ moves, move.admits? = none) → (∀ s ∈ x.services, s.isOver = true) → x.hub.registry.roomCount = 0) ∧
    (∀ n step s t work work' sent sent' deadline limit, x.services[n]? = some (.live s work sent) →
      s.stage = .serving deadline → (x.next (.step n step)).services[n]? = some (.live t work' sent') →
      t.stage = .draining limit →
      (∃ now, step.now? = some now ∧ limit = now + x.hub.settings.writeWait) ∧ t.writer = s.writer ∧ sent' = sent ∧
        t.pending (x.next (.step n step)).hub.registry = s.pending x.hub.registry) ∧
    (∀ n s work sent limit, x.services[n]? = some (.live s work sent) → s.stage = .draining limit →
      s.writer.hasEnded = false →
      (s.writer.phase = .idle → ∀ now pingFirst, (s.begin? x.hub now pingFirst).isSome) ∧
      ∀ later, (∀ move ∈ later, move.IsTimely n limit) → ∀ t, (x.after later).services[n]? = some t → t.isOver = true →
        ClosedAfter sent (s.pending x.hub.registry) t.sent) := by
  have kept : Traffic.Kept moves ((Traffic.mk hub []).after moves) := (Traffic.Kept.start vacant).after moves
  refine ⟨?_, ?_, ?_, ?_, ?_⟩
  · intro s there complete
    have left := Service.not_staying_of_over complete
    exact ⟨kept.queue_of_over there complete, fun room m present => kept.not_member there left present,
      kept.absent_of_left there left⟩
  · intro p sits
    exact ⟨fun c => kept.enter_removes_nobody c sits, fun n step s served other gone =>
      kept.exhausted_of_removed served other sits gone⟩
  · exact fun nobody complete => kept.roomCount_of_left nobody fun s there => Service.not_staying_of_over (complete s there)
  · intro n step s t work work' sent sent' deadline limit served reads after stage
    exact kept.stops served reads after stage
  · intro n s work sent limit served stage going
    refine ⟨fun idle now pingFirst => kept.isSome_begin? (List.mem_of_getElem? served) stage idle now pingFirst, ?_⟩
    intro later timely t finished complete
    exact kept.closed_after served stage going timely finished complete

/-- A customer closes the socket while one frame is being written to it and another one waits. Both are written, then the
close frame, and the room is gone. -/
theorem finished_connections_leave_nothing_of_close :
    let hub : Hub := { settings := .default, clock := ⟨0, 0⟩, mint := fun n => .ofNat (n + 1) }
    let c : Connection := ⟨⟨1⟩, ⟨⟨.ofNat 1001⟩, .user⟩, ⟨.ofNat 1⟩⟩
    let frames : List Parcel := [Frame.error .conversationClosed, Frame.error .conversationClosed].filterMap Frame.pack?
    let moves : List Traffic.Move := [.enter c, .step 0 (.proceed 0)] ++
      frames.map (fun frame => .request (.rooms (.broadcast c.room frame))) ++
      [.step 0 (.begin 1 true), .step 0 (.hear 2 (.frame .close))]
    let later : List Traffic.Move := [.step 0 (.wrote 3 true), .step 0 (.begin 4 true), .step 0 (.wrote 5 true),
      .step 0 (.begin 6 false), .step 0 (.wrote 7 true), .step 0 .conclude]
    let y := (Traffic.mk hub []).after (moves ++ later)
    y.hub.registry.member? c.room c.session = none ∧ y.hub.registry.roomCount = 0 ∧
      ∃ t ∈ y.services, t.isOver = true ∧ ClosedAfter [] (frames.map fun frame => .text frame.text) t.sent := by
  intro hub c frames moves later
  have once : ((moves ++ later).filterMap (·.joining?)).count c.session ≤ 1 := by decide +kernel
  have nobody : ∀ move ∈ moves ++ later, move.admits? = none := by decide +kernel
  have timely (limit : Instant) : ∀ move ∈ later, move.IsTimely 0 limit := by simp [later, Traffic.Move.IsTimely]
  have state : ((Traffic.mk hub []).after moves).services[0]?.map
      (fun s => (s.queue, s.isStaying, s.isOver, s.sent, s.phase)) =
        some (⟨0⟩, false, false, [], .writing (.text ((frames.map (·.text)).headD "")) 1) := by decide +kernel
  have waiting : [SocketFrame.text ((frames.map (·.text)).headD "")] ++
      (((Traffic.mk hub []).after moves).hub.registry.waiting ⟨0⟩).map (fun frame => SocketFrame.text frame.text) =
        frames.map fun frame => .text frame.text := by decide +kernel
  have final : ((Traffic.mk hub []).after (moves ++ later)).services.map (fun s => (s.connection, s.isOver)) =
      [(c, true)] := by decide +kernel
  have split : (Traffic.mk hub []).after (moves ++ later) = ((Traffic.mk hub []).after moves).after later :=
    List.foldl_append
  have first := @finished_connections_leave_nothing hub rfl moves
  have last := @finished_connections_leave_nothing hub rfl (moves ++ later)
  generalize (Traffic.mk hub []).after (moves ++ later) = y at final split last ⊢
  generalize (Traffic.mk hub []).after moves = x at state waiting split first
  obtain ⟨-, -, -, -, drains⟩ := first
  obtain ⟨gone, -, empty, -⟩ := last
  obtain ⟨t, services, connection, complete⟩ : ∃ t, y.services = [t] ∧ t.connection = c ∧ t.isOver = true := by
    rcases found : y.services with _ | ⟨t, _ | _⟩ <;> simp [found] at final
    exact ⟨t, rfl, final⟩
  have there : t ∈ y.services := by rw [services]; exact List.mem_singleton_self t
  refine ⟨?_, ?_, t, there, complete, ?_⟩
  · have absent := (gone t there complete).absent
    rw [connection] at absent
    exact absent once c.room
  · refine empty nobody fun s served => ?_
    rw [services, List.mem_singleton] at served
    rw [served, complete]
  · rcases served : x.services[0]? with _ | ⟨_, _, _⟩ | ⟨s, work, sent⟩ <;> rw [served] at state
    · cases state
    · simp [Service.isStaying] at state
    · simp only [Option.map_some, Option.some.injEq, Prod.mk.injEq] at state
      obtain ⟨queue, staying, going, rfl, writing⟩ := state
      change s.queue = ⟨0⟩ at queue
      change s.writer.phase = _ at writing
      cases stage : s.stage with
      | serving deadline => simp [Service.isStaying, stage] at staying
      | finished => simp [Service.isOver, Session.isOver, stage] at going
      | draining limit =>
        have unended : s.writer.hasEnded = false := by simp [Writer.hasEnded, writing]
        have finished : (x.after later).services[0]? = some t := by
          rw [← split, services]
          rfl
        have closed := (drains 0 s work [] limit served stage unended).2 later (timely limit) t finished complete
        rwa [Session.pending_of_writing stage writing, queue, waiting] at closed

end HelpDesk
