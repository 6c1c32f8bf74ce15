import HelpDesk.Proofs.RegistryInvariant

/-! Who takes whom out of a room, and what becomes of their seats. What a party does about its own session and at its own
queue touches nobody else; a frame for everybody in a room removes those that cannot take it, and no others. What waits at a
seat that nobody has can be received, and nothing more comes. -/

namespace HelpDesk.Registry
variable {φ : Type} {r : Registry φ} {p q : Place} {e : Event φ} {es : List (Event φ)}

/-- A registry as it can be. -/
structure Coherent (r : Registry φ) : Prop where
  valid : Valid r
  manned : Manned r
  tidy : Tidy r.rooms

theorem Coherent.initial : Coherent ({} : Registry φ) :=
  ⟨.initial, .initial, List.nodup_nil, fun _ there => absurd there List.not_mem_nil⟩

theorem Coherent.after (coherent : Coherent r) (es : List (Event φ)) : Coherent (r.after es) :=
  ⟨coherent.valid.after es, coherent.manned.after coherent.valid es, coherent.tidy.after es⟩

/-- The event is a request about the session that is there, or it is at the receiving end of its queue. -/
def Event.Own (p : Place) : Event φ → Prop
  | .join _ _ _ _ _ => False
  | .command asked => asked.room = p.room ∧ asked.session? = some p.session
  | .receive queue | .endReceiving queue => queue = p.queue

/-- Another frame has no place, where the member parks them or on its queue; or nobody receives from the queue. -/
def Exhausted (m : Member φ) (queue : Queue φ) : Prop :=
  m.held.elim (queue.receiving = false ∨ queue.waiting.length = queue.capacity) fun held => held.length = queue.capacity

section Own
variable (own : e.Own p) (apart : ¬ (q.room = p.room ∧ q.session = p.session))
include own apart

theorem Event.Own.silent : e.offered q = [] ∧ e.release? q = none := by
  have elsewhere (room : ConversationId) (session : SessionId) (here : room = p.room) (who : session = p.session) :
      ¬ (room = q.room ∧ session = q.session) :=
    fun same => apart ⟨same.1.symm.trans here, same.2.symm.trans who⟩
  cases e with
  | join => cases own
  | receive | endReceiving => exact ⟨rfl, rfl⟩
  | command command =>
    obtain ⟨room, session⟩ := own
    cases command with
    | leave => exact ⟨rfl, rfl⟩
    | broadcast => cases session
    | sendTo other who frame => exact ⟨if_neg (elsewhere other who room (Option.some.inj session)), rfl⟩
    | release other who lead =>
      have neither := elsewhere other who room (Option.some.inj session)
      exact ⟨if_neg neither, if_neg neither⟩

end Own

/-- An event that offers a member nothing, and does not release it, removes it only if it leaves. -/
theorem leaves_of_removes {m : Member φ} {queue : Queue φ} {fits : List φ} (removes : Removes q m queue e fits)
    (offered : e.offered q = []) (held : e.release? q = none) : e = .command (.leave q.room q.session) := by
  cases removes with
  | left leaves => exact leaves
  | overflow frame parked holds holding offers full => cases offered.symm.trans offers
  | refused frame fits lost due why =>
    cases holds : m.held with
    | none =>
      rw [holds, due_cons_free, offered, due_nil] at due
      simp at due
    | some parked =>
      rw [holds, due_cons_parked held, due_nil] at due
      simp at due

/-- Whoever was a member is one after the event, or the event has removed it. -/
theorem Sits.next_cases (valid : Valid r) (manned : Manned r) (sits : r.Sits q) :
    (r.next e).Sits q ∨ ∃ m ∈ r.members q.room, m.session = q.session ∧ m.queue = q.queue ∧
      ∃ queue, r.queue? q.queue = some queue ∧ ∃ fits, Removes q m queue e fits := by
  obtain ⟨m, there, session, owns⟩ := sits
  obtain ⟨queue, seated, sound⟩ := manned.seated valid there
  rw [session, owns] at seated
  have present : Present q m queue :=
    ⟨session, sound.sending, sound.fits, fun held holds => (sound.parks m rfl held holds).1⟩
  have next := seated.next valid e
  rcases present.outcome e with ⟨m', queue', same, -⟩ | ⟨fits, -, removes⟩
  · left
    rw [same] at next
    exact next.sits_iff.mpr ⟨m', rfl⟩
  · exact .inr ⟨m, there, session, owns, queue, seated.queue, fits, removes⟩

/-- Nobody is removed because somebody joins. -/
theorem Sits.after_join (valid : Valid r) (manned : Manned r) (sits : r.Sits q) (room : ConversationId)
    (session : SessionId) (identity : Identity) (capacity : Nat) (holding : Bool) :
    (r.next (.join room session identity capacity holding)).Sits q := by
  rcases sits.next_cases valid manned with stays | ⟨m, -, -, -, queue, -, fits, removes⟩
  · exact stays
  · cases leaves_of_removes removes rfl rfl

/-- What a party does for itself removes no other session. -/
theorem Sits.after_own (valid : Valid r) (manned : Manned r) (own : ∀ e ∈ es, e.Own p)
    (apart : ¬ (q.room = p.room ∧ q.session = p.session)) (sits : r.Sits q) : (r.after es).Sits q := by
  induction es generalizing r with
  | nil => exact sits
  | cons e es ih =>
    refine ih (valid.next e) (manned.next valid e) (fun x there => own x (List.mem_cons_of_mem e there)) ?_
    rcases sits.next_cases valid manned with stays | ⟨m, -, -, -, queue, -, fits, removes⟩
    · exact stays
    · have first := own e List.mem_cons_self
      obtain ⟨offered, held⟩ := first.silent apart
      obtain rfl := leaves_of_removes removes offered held
      exact absurd ⟨first.1, Option.some.inj first.2⟩ apart

/-- A frame for a room removes members of that room that cannot take it. -/
theorem Sits.exhausted_of_broadcast (valid : Valid r) (manned : Manned r) {room : ConversationId} {frame : φ}
    (sits : r.Sits q) (gone : ¬ (r.next (.command (.broadcast room frame))).Sits q) : q.room = room ∧
      ∃ m ∈ r.members room, m.session = q.session ∧ m.queue = q.queue ∧
        ∃ queue, r.queue? q.queue = some queue ∧ Exhausted m queue := by
  rcases sits.next_cases valid manned with stays | ⟨m, there, session, owns, queue, known, fits, removes⟩
  · exact absurd stays gone
  · have here : (Event.command (.broadcast room frame)).offered q ≠ [] → q.room = room := by
      intro offered
      by_contra elsewhere
      exact offered (if_neg fun same => elsewhere same.symm)
    have plain : (Event.command (.broadcast room frame)).release? q = none := rfl
    suffices q.room = room ∧ Exhausted m queue by
      obtain ⟨rfl, exhausted⟩ := this
      exact ⟨rfl, m, there, session, owns, queue, known, exhausted⟩
    cases removes with
    | left leaves => cases leaves
    | overflow frame parked holds holding offers full =>
      refine ⟨here fun none => ?_, ?_⟩
      · cases none.symm.trans offers
      · rw [Exhausted, holds]
        exact full
    | refused first fits lost due why =>
      cases holds : m.held with
      | some parked =>
        rw [holds, due_cons_parked plain, due_nil] at due
        simp at due
      | none =>
        rw [holds, due_cons_free, due_nil, List.append_nil] at due
        have offered : (Event.command (.broadcast room frame)).offered q ≠ [] := by
          rw [due]
          simp
        have inside := here offered
        subst inside
        obtain rfl : fits = [] := by
          simp only [Event.offered, if_true] at due
          cases fits with
          | nil => rfl
          | cons => simp at due
        refine ⟨rfl, ?_⟩
        rw [Exhausted, holds]
        exact why.imp (·.1) id

theorem Seat.foldl_vacant {seat : Seat φ} (vacant : seat.member = none) (p : Place) (es : List (Event φ)) :
    (es.foldl (Seat.next p) seat).member = none := by
  induction es generalizing seat with
  | nil => exact vacant
  | cons e es ih =>
    obtain ⟨member, queue⟩ := seat
    subst vacant
    obtain ⟨changed, same, -⟩ := Seat.next_vacant p queue e
    rw [List.foldl_cons, same]
    exact ih rfl

/-- Whoever leaves has no seat any more. -/
theorem Seated.vacant_of_leave (valid : Valid r) {seat : Seat φ} (seated : Seated r p seat)
    (leaves : .command (.leave p.room p.session) ∈ es) : (es.foldl (Seat.next p) seat).member = none := by
  obtain ⟨first, last, rfl⟩ := List.append_of_mem leaves
  rw [List.foldl_append, List.foldl_cons]
  apply Seat.foldl_vacant
  have before := seated.after valid first
  generalize first.foldl (Seat.next p) seat = last at before
  obtain ⟨_ | m, queue⟩ := last
  · rfl
  · have session : m.session = p.session := (before.member m rfl).2.1
    simp [Seat.next, Command.room, Command.effect, session, Seat.vacate]

/-- Nobody has the seat, and nothing waits there. -/
def Seat.Spent (seat : Seat φ) : Prop :=
  seat.member = none ∧ seat.queue.waiting = []

theorem Seat.Spent.after {seat : Seat φ} (spent : seat.Spent) (p : Place) (es : List (Event φ)) :
    (es.foldl (Seat.next p) seat).Spent := by
  induction es generalizing seat with
  | nil => exact spent
  | cons e es ih =>
    obtain ⟨member, queue⟩ := seat
    obtain ⟨vacant, empty⟩ := spent
    obtain rfl : member = none := vacant
    obtain ⟨changed, same, shorter⟩ := Seat.next_vacant p queue e
    rw [List.foldl_cons, same]
    refine ih ⟨rfl, List.eq_nil_of_length_eq_zero ?_⟩
    rw [show queue.waiting = [] from empty] at shorter
    exact Nat.le_zero.mp shorter

theorem Seat.abandoned_after {seat : Seat φ} (gone : Abandoned seat.queue) (p : Place) (es : List (Event φ)) :
    Abandoned (es.foldl (Seat.next p) seat).queue := by
  induction es generalizing seat with
  | nil => exact gone
  | cons e es ih => exact ih (Seat.next_abandoned gone e)

theorem Seat.abandoned_of_end (seat : Seat φ) {p : Place} (ends : .endReceiving p.queue ∈ es) :
    Abandoned (es.foldl (Seat.next p) seat).queue := by
  obtain ⟨first, last, rfl⟩ := List.append_of_mem ends
  rw [List.foldl_append, List.foldl_cons]
  apply Seat.abandoned_after
  simp [Seat.next, Queue.endReceiving, Abandoned]

/-- Nobody but its receiver takes anything from the queue of a seat that nobody has, or puts anything there. -/
theorem Seat.foldl_unchanged {seat : Seat φ} (vacant : seat.member = none)
    (taken : .receive p.queue ∉ es) (ended : .endReceiving p.queue ∉ es) : es.foldl (Seat.next p) seat = seat := by
  induction es with
  | nil => rfl
  | cons e es ih =>
    have first : seat.next p e = seat := by
      cases e with
      | join => rfl
      | command command => simp [Seat.next, vacant]
      | receive id =>
        have other : id ≠ p.queue := fun same => taken (same ▸ List.mem_cons_self)
        simp [Seat.next, other]
      | endReceiving id =>
        have other : id ≠ p.queue := fun same => ended (same ▸ List.mem_cons_self)
        simp [Seat.next, other]
    rw [List.foldl_cons, first]
    exact ih (fun there => taken (List.mem_cons_of_mem e there)) fun there => ended (List.mem_cons_of_mem e there)

/-- What waits for somebody who leaves can still be received. -/
theorem Seat.waiting_leave (seat : Seat φ) (p : Place) (room : ConversationId) (session : SessionId) :
    (seat.next p (.command (.leave room session))).queue.waiting = seat.queue.waiting := by
  simp only [Seat.next, Command.effect]
  split
  · split
    · split <;> rfl
    · rfl
  · rfl

theorem Seated.waiting_of_received {seat : Seat φ} (valid : Valid r) (seated : Seated r p seat) {frame : φ}
    (received : (r.receive p.queue).1 = .frame frame) :
    r.waiting p.queue = frame :: (r.after [.receive p.queue]).waiting p.queue := by
  have known := seated.queue
  have next := seated.next valid (.receive p.queue)
  rw [after_cons, after_nil, next.waiting, seated.waiting]
  obtain ⟨member, capacity, waiting, sending, receiving⟩ := seat
  simp only [receive, known, Queue.receive] at received
  split at received
  · cases received
    simp [Seat.next, Queue.receive]
  · split at received <;> cases received

/-- Whoever is in a room after some events was in it before, or has joined. -/
theorem mem_after (valid : Valid r) {room : ConversationId} {left : Member φ} (there : left ∈ (r.after es).members room) :
    (∃ m ∈ r.members room, Keeps m left) ∨
      ∃ capacity holding, .join room left.session left.identity capacity holding ∈ es := by
  induction es generalizing r with
  | nil => exact .inl ⟨left, there, .refl left⟩
  | cons e es ih =>
    rcases ih (valid.next e) there with ⟨m, between, keeps⟩ | ⟨capacity, holding, joins⟩
    · rcases mem_next valid between with ⟨first, old, before⟩ | ⟨capacity, holding, rfl, -⟩
      · exact .inl ⟨first, old, before.trans keeps⟩
      · rw [keeps.session, keeps.identity]
        exact .inr ⟨capacity, holding, List.mem_cons_self⟩
    · exact .inr ⟨capacity, holding, List.mem_cons_of_mem e joins⟩

theorem roomCount_eq_zero (tidy : Tidy r.rooms) (nobody : ∀ room, r.members room = []) : r.roomCount = 0 := by
  rw [roomCount, List.length_eq_zero_iff, List.eq_nil_iff_forall_not_mem]
  intro room there
  exact tidy.occupied room there ((tidy.members there).symm.trans (nobody room.id))

end HelpDesk.Registry
