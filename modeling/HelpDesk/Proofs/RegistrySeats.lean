import HelpDesk.Proofs.RegistryRuns

/-! A registry seen from one queue. The queue, with the member that it belongs to as long as there is one, is a seat.
What an event does to a seat depends on nothing but the seat. -/

namespace HelpDesk.Registry
variable {φ : Type}

/-- The same member, whatever it holds. -/
structure Keeps (m left : Member φ) : Prop where
  session : left.session = m.session
  identity : left.identity = m.identity
  queue : left.queue = m.queue

theorem Keeps.refl (m : Member φ) : Keeps m m :=
  ⟨rfl, rfl, rfl⟩

theorem Keeps.trans {m n left : Member φ} (first : Keeps m n) (last : Keeps n left) : Keeps m left :=
  ⟨last.session.trans first.session, last.identity.trans first.identity, last.queue.trans first.queue⟩

structure Seat (φ : Type) where
  member : Option (Member φ)
  queue : Queue φ

namespace Seat

def vacate (seat : Seat φ) : Seat φ :=
  ⟨none, seat.queue.endSending⟩

def take (seat : Seat φ) (frame : φ) : Seat φ :=
  match seat.member with
  | none => seat
  | some m =>
    match m.held with
    | some held =>
      if held.length < seat.queue.capacity then ⟨some { m with held := some (held ++ [frame]) }, seat.queue⟩
      else seat.vacate
    | none =>
      match seat.queue.push? frame with
      | some queue => ⟨some m, queue⟩
      | none => seat.vacate

def release (seat : Seat φ) (lead : Option φ) : Seat φ :=
  match seat.member with
  | none => seat
  | some m => (lead.toList ++ m.held.getD []).foldl take ⟨some { m with held := none }, seat.queue⟩

theorem foldl_take_vacant (queue : Queue φ) (frames : List φ) : frames.foldl take ⟨none, queue⟩ = ⟨none, queue⟩ := by
  induction frames with
  | nil => rfl
  | cons frame frames ih => exact ih

variable {m left : Member φ} {queue : Queue φ}

theorem take_member {frame : φ} (there : ((Seat.mk (some m) queue).take frame).member = some left) :
    Keeps m left := by
  simp only [take] at there
  split at there
  · split at there
    · cases there
      exact ⟨rfl, rfl, rfl⟩
    · cases there
  · split at there
    · cases there
      exact .refl _
    · cases there

theorem foldl_take_member {frames : List φ} (there : (frames.foldl take ⟨some m, queue⟩).member = some left) :
    Keeps m left := by
  induction frames generalizing m queue with
  | nil =>
    cases there
    exact .refl _
  | cons frame frames ih =>
    rw [List.foldl_cons] at there
    rcases taken : (Seat.mk (some m) queue).take frame with ⟨_ | n, rest⟩
    · rw [taken, foldl_take_vacant] at there
      cases there
    · have first := take_member (congrArg Seat.member taken)
      rw [taken] at there
      exact first.trans (ih there)

theorem release_member {lead : Option φ} (there : ((Seat.mk (some m) queue).release lead).member = some left) :
    Keeps m left := by
  have keeps : Keeps { m with held := none } left := foldl_take_member there
  exact ⟨keeps.session, keeps.identity, keeps.queue⟩

theorem foldl_take_unheld (free : m.held = none) {frames : List φ}
    (there : (frames.foldl take ⟨some m, queue⟩).member = some left) : left.held = none := by
  induction frames generalizing queue with
  | nil =>
    cases there
    exact free
  | cons frame frames ih =>
    rw [List.foldl_cons] at there
    simp only [take, free] at there
    split at there
    · exact ih there
    · rw [vacate, foldl_take_vacant] at there
      cases there

/-- Whoever is released holds nothing any more. -/
theorem release_unheld {lead : Option φ} (there : ((Seat.mk (some m) queue).release lead).member = some left) :
    left.held = none := by
  have free : ({ m with held := none } : Member φ).held = none := rfl
  exact foldl_take_unheld free there

end Seat

def Command.room : Command φ → ConversationId
  | leave room _ | broadcast room _ | sendTo room _ _ | release room _ _ => room

/-- What a request does to the seat of a member of its room. -/
def Command.effect (m : Member φ) (seat : Seat φ) : Command φ → Seat φ
  | leave _ session => if m.session = session then seat.vacate else seat
  | broadcast _ frame => seat.take frame
  | sendTo _ session frame => if m.session = session then seat.take frame else seat
  | release _ session lead => if m.session = session then seat.release lead else seat

theorem Command.effect_member {command : Command φ} {m left : Member φ} {queue : Queue φ}
    (there : (command.effect m ⟨some m, queue⟩).member = some left) : Keeps m left := by
  have unchanged (same : (Seat.mk (some m) queue).member = some left) : Keeps m left := by
    cases same
    exact .refl m
  cases command with
  | leave room session =>
    simp only [effect] at there
    split at there
    · cases there
    · exact unchanged there
  | broadcast room frame => exact Seat.take_member there
  | sendTo room session frame =>
    simp only [effect] at there
    split at there
    · exact Seat.take_member there
    · exact unchanged there
  | release room session lead =>
    simp only [effect] at there
    split at there
    · exact Seat.release_member there
    · exact unchanged there

def Seat.next (p : Place) (seat : Seat φ) : Event φ → Seat φ
  | .join _ _ _ _ _ => seat
  | .command command =>
    match seat.member with
    | some m => if command.room = p.room then command.effect m seat else seat
    | none => seat
  | .receive queue => if queue = p.queue then { seat with queue := seat.queue.receive.2 } else seat
  | .endReceiving queue => if queue = p.queue then { seat with queue := seat.queue.endReceiving } else seat

/-- Members of one room differ in their sessions and in their queues, and every queue is there. -/
structure Valid (r : Registry φ) : Prop where
  sessions : ∀ room, ((r.members room).map (·.session)).Nodup
  queues : ∀ room, ((r.members room).map (·.queue)).Nodup
  known : ∀ room, ∀ m ∈ r.members room, ∃ queue, r.queue? m.queue = some queue

/-- The seat of a place: its queue belongs to the member that is there, and to nobody else. -/
structure Seated (r : Registry φ) (p : Place) (seat : Seat φ) : Prop where
  queue : r.queue? p.queue = some seat.queue
  member : ∀ m, seat.member = some m → m ∈ r.members p.room ∧ m.session = p.session ∧ m.queue = p.queue
  only : ∀ room, ∀ m ∈ r.members room, m.queue = p.queue → room = p.room ∧ seat.member = some m

theorem members_setMembers (r : Registry φ) (room other : ConversationId) (members : List (Member φ)) :
    (r.setMembers room members).members other = if other = room then members else r.members other := by
  by_cases same : other = room
  · subst same
    simp
  · simp [same, members_setMembers_of_ne r members same]

@[simp] theorem queue?_setMembers (r : Registry φ) (room : ConversationId) (members : List (Member φ)) (queue : QueueId) :
    (r.setMembers room members).queue? queue = r.queue? queue := rfl

@[simp] theorem members_modifyQueue (r : Registry φ) (queue : QueueId) (f : Queue φ → Queue φ) (room : ConversationId) :
    (r.modifyQueue queue f).members room = r.members room := rfl

theorem queue?_modifyQueue (r : Registry φ) (queue other : QueueId) (f : Queue φ → Queue φ) :
    (r.modifyQueue queue f).queue? other = if other = queue then (r.queue? other).map f else r.queue? other := by
  simp only [queue?, modifyQueue, List.getElem?_modify]
  by_cases same : other = queue
  · subst same
    simp
  · have apart : queue.number ≠ other.number := fun equal => same (congrArg QueueId.mk equal.symm)
    simp [same, apart]

theorem Seated.of_same {r r' : Registry φ} {p : Place} {seat : Seat φ} (seated : Seated r p seat) (queue : Queue φ)
    (found : r'.queue? p.queue = some queue)
    (same : ∀ room m, m.queue = p.queue → (m ∈ r'.members room ↔ m ∈ r.members room)) :
    Seated r' p { seat with queue } := by
  refine ⟨found, ?_, ?_⟩
  · intro m present
    obtain ⟨there, session, queue⟩ := seated.member m present
    exact ⟨(same _ m queue).mpr there, session, queue⟩
  · intro room m there queue
    exact seated.only room m ((same _ m queue).mp there) queue

/-- What a request does to a registry: in one room, each member's seat changes by itself. -/
structure Acts (r r' : Registry φ) (command : Command φ) : Prop where
  members : r'.members command.room = (r.members command.room).filterMap fun m =>
    (r.queue? m.queue).bind fun queue => (command.effect m ⟨some m, queue⟩).member
  queues : ∀ m ∈ r.members command.room, ∀ queue, r.queue? m.queue = some queue →
    r'.queue? m.queue = some (command.effect m ⟨some m, queue⟩).queue
  elsewhere : ∀ room, room ≠ command.room → r'.members room = r.members room
  others : ∀ id, (∀ m ∈ r.members command.room, m.queue ≠ id) → r'.queue? id = r.queue? id

theorem keys_sublist {α κ : Type} {key : α → κ} {f : α → Option α} (kept : ∀ a b, f a = some b → key b = key a)
    (as : List α) : ((as.filterMap f).map key).Sublist (as.map key) := by
  induction as with
  | nil => exact .slnil
  | cons a as ih =>
    cases found : f a with
    | none => simpa [found] using ih.cons _
    | some b => simpa [found, kept a b found] using ih.cons_cons (key a)

section Acts
variable {r r' : Registry φ} {command : Command φ}

theorem Acts.mem (acts : Acts r r' command) {left : Member φ} (member : left ∈ r'.members command.room) :
    ∃ m ∈ r.members command.room, ∃ queue, r.queue? m.queue = some queue ∧
      (command.effect m ⟨some m, queue⟩).member = some left := by
  rw [acts.members, List.mem_filterMap] at member
  obtain ⟨m, member, found⟩ := member
  obtain ⟨queue, known, there⟩ := Option.bind_eq_some_iff.mp found
  exact ⟨m, member, queue, known, there⟩

theorem Acts.valid (acts : Acts r r' command) (valid : Valid r) : Valid r' := by
  have kept (m left : Member φ) (found : ((r.queue? m.queue).bind fun queue =>
      (command.effect m ⟨some m, queue⟩).member) = some left) : Keeps m left := by
    obtain ⟨queue, -, there⟩ := Option.bind_eq_some_iff.mp found
    exact Command.effect_member there
  constructor
  · intro room
    by_cases here : room = command.room
    · subst here
      rw [acts.members]
      exact (valid.sessions _).sublist (keys_sublist (fun m left found => (kept m left found).session) _)
    · rw [acts.elsewhere room here]
      exact valid.sessions room
  · intro room
    by_cases here : room = command.room
    · subst here
      rw [acts.members]
      exact (valid.queues _).sublist (keys_sublist (fun m left found => (kept m left found).queue) _)
    · rw [acts.elsewhere room here]
      exact valid.queues room
  · intro room left member
    by_cases here : room = command.room
    · subst here
      obtain ⟨m, member, queue, known, there⟩ := acts.mem member
      rw [(Command.effect_member there).queue]
      exact ⟨_, acts.queues m member queue known⟩
    · rw [acts.elsewhere room here] at member
      obtain ⟨queue, known⟩ := valid.known room left member
      by_cases shared : ∃ m ∈ r.members command.room, m.queue = left.queue
      · obtain ⟨m, member, same⟩ := shared
        rw [← same] at known ⊢
        exact ⟨_, acts.queues m member queue known⟩
      · rw [acts.others left.queue fun m member same => shared ⟨m, member, same⟩]
        exact ⟨queue, known⟩

theorem Seated.command_here {p : Place} {m : Member φ} {queue : Queue φ} (seated : Seated r p ⟨some m, queue⟩)
    (acts : Acts r r' command) (here : command.room = p.room) :
    Seated r' p (command.effect m ⟨some m, queue⟩) := by
  obtain ⟨there, session, same⟩ := seated.member m rfl
  have known : r.queue? m.queue = some queue := by
    rw [same]
    exact seated.queue
  rw [← here] at there
  refine ⟨?_, ?_, ?_⟩
  · rw [← same]
    exact acts.queues m there queue known
  · intro left stays
    have keys := Command.effect_member stays
    refine ⟨?_, keys.session.trans session, keys.queue.trans same⟩
    rw [← here, acts.members, List.mem_filterMap]
    exact ⟨m, there, Option.bind_eq_some_iff.mpr ⟨queue, known, stays⟩⟩
  · intro room left there owns
    by_cases inside : room = command.room
    · subst inside
      obtain ⟨n, there, found, known', stays⟩ := acts.mem there
      obtain ⟨-, present⟩ := seated.only _ n there ((Command.effect_member stays).queue.symm.trans owns)
      cases present
      cases known.symm.trans known'
      exact ⟨here, stays⟩
    · rw [acts.elsewhere room inside] at there
      exact absurd (seated.only room left there owns).1 fun equal => inside (equal.trans here.symm)

theorem Acts.seated (acts : Acts r r' command) {p : Place} {seat : Seat φ} (seated : Seated r p seat) :
    Seated r' p (seat.next p (.command command)) := by
  -- No other member of any room has the queue.
  have unaffected (absent : seat.member = none ∨ command.room ≠ p.room) : Seated r' p seat := by
    have alone : ∀ m ∈ r.members command.room, m.queue ≠ p.queue := by
      intro m there same
      obtain ⟨here, present⟩ := seated.only command.room m there same
      rcases absent with vacant | apart
      · cases vacant.symm.trans present
      · exact apart here
    apply seated.of_same seat.queue ((acts.others _ alone).trans seated.queue)
    intro room m same
    by_cases here : room = command.room
    · subst here
      constructor
      · intro there
        obtain ⟨n, there, _, _, stays⟩ := acts.mem there
        exact absurd ((Command.effect_member stays).queue.symm.trans same) (alone n there)
      · intro there
        exact absurd same (alone m there)
    · rw [acts.elsewhere room here]
  obtain ⟨_ | m, queue⟩ := seat
  · exact unaffected (.inl rfl)
  · by_cases here : command.room = p.room
    · simp only [Seat.next, here, if_true]
      exact seated.command_here acts here
    · simp only [Seat.next, here, if_false]
      exact unaffected (.inr here)

end Acts

end HelpDesk.Registry
