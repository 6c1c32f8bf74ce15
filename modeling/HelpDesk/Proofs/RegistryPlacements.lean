import HelpDesk.Proofs.RegistryInvariant

/-! For whom an event puts a frame on a queue or parks it: for a member of the room that the frame is for, to which it is
offered now, or for which it was parked already. -/

namespace HelpDesk.Registry
variable {φ : Type} {r : Registry φ} {p : Place} {e : Event φ} {frame : φ}

/-- The frames that are parked in a room for the receiver of a queue. -/
def parked (r : Registry φ) (room : ConversationId) (queue : QueueId) : List φ :=
  ((r.members room).find? (·.queue = queue)).elim [] (·.held.getD [])

/-- The event puts the frame on the queue, or parks it for the receiver of the queue. -/
def Places (r : Registry φ) (e : Event φ) (queue : QueueId) (frame : φ) : Prop :=
  frame ∈ r.added queue e ∨ ∃ room, frame ∈ ((r.next e).parked room queue).drop (r.parked room queue).length

theorem mem_parked {room : ConversationId} {queue : QueueId} (there : frame ∈ r.parked room queue) :
    ∃ m ∈ r.members room, m.queue = queue ∧ frame ∈ m.held.getD [] := by
  rw [Registry.parked] at there
  cases found : (r.members room).find? (·.queue = queue) with
  | none =>
    rw [found] at there
    cases there
  | some m =>
    rw [found] at there
    exact ⟨m, List.mem_of_find?_eq_some found, by simpa using List.find?_some found, there⟩

def Seat.parked (seat : Seat φ) : List φ :=
  seat.member.elim [] (·.held.getD [])

theorem Seated.parked {seat : Seat φ} (seated : Seated r p seat) (room : ConversationId) :
    r.parked room p.queue = if room = p.room then seat.parked else [] := by
  rw [Registry.parked]
  cases found : (r.members room).find? (·.queue = p.queue) with
  | some m =>
    have owns : m.queue = p.queue := by simpa using List.find?_some found
    obtain ⟨rfl, present⟩ := seated.only room m (List.mem_of_find?_eq_some found) owns
    rw [if_pos rfl, Seat.parked, present]
  | none =>
    have nobody : ∀ m ∈ r.members room, m.queue ≠ p.queue := by simpa using List.find?_eq_none.mp found
    split
    · next here =>
      subst here
      obtain ⟨_ | m, queue⟩ := seat
      · rfl
      · obtain ⟨there, -, owns⟩ := seated.member m rfl
        exact absurd owns (nobody m there)
    · rfl

theorem Seated.places {seat : Seat φ} (valid : Valid r) (seated : Seated r p seat) (places : r.Places e p.queue frame) :
    frame ∈ (seat.next p e).queue.waiting.drop seat.queue.waiting.length ∨
      frame ∈ (seat.next p e).parked.drop seat.parked.length := by
  rcases places with added | ⟨room, parked⟩
  · rw [seated.added valid e] at added
    exact .inl added
  · rw [seated.parked, (seated.next valid e).parked] at parked
    split at parked
    · exact .inr parked
    · cases parked

theorem Seated.present {m : Member φ} {queue : Queue φ} (seated : Seated r p ⟨some m, queue⟩)
    (sound : Seat.Sound ⟨some m, queue⟩) : Present p m queue :=
  ⟨(seated.member m rfl).2.1, sound.sending, sound.fits, fun held holds => (sound.parks m rfl held holds).1⟩

/-- The frame is offered to the member, or was parked for it and the member is released. -/
def Owed (p : Place) (m : Member φ) (e : Event φ) (frame : φ) : Prop :=
  frame ∈ e.offered p ∨ e.release? p ≠ none ∧ frame ∈ m.held.getD []

theorem owed_of_due {m : Member φ} (there : frame ∈ due p m.held [e]) : Owed p m e frame := by
  cases release : e.release? p with
  | some lead =>
    rw [due_cons_of_release release, due_nil, List.append_nil, ← offered_of_release release] at there
    exact (List.mem_append.mp there).imp id fun parked => ⟨by simp [release], parked⟩
  | none =>
    cases holds : m.held with
    | none =>
      rw [holds, due_cons_free, due_nil, List.append_nil] at there
      exact .inl there
    | some held =>
      rw [holds, due_cons_parked release, due_nil] at there
      cases there

/-- Whoever holds after an event has held before, and what it is offered is parked with the rest. -/
theorem Stays.parked {m m' : Member φ} {queue queue' : Queue φ} (step : Stays p m queue e m' queue') :
    m'.held = none ∨ ∃ held, m.held = some held ∧ m'.held = some (held ++ e.offered p) := by
  cases release : e.release? p with
  | some lead => exact .inl (step.released (by simp [release]))
  | none =>
    rw [step.held release]
    cases m.held with
    | none => exact .inl rfl
    | some held => exact .inr ⟨held, rfl, rfl⟩

theorem Seated.owed {m : Member φ} {queue : Queue φ} (valid : Valid r) (seated : Seated r p ⟨some m, queue⟩)
    (present : Present p m queue) (places : r.Places e p.queue frame) : Owed p m e frame := by
  rcases present.outcome e with ⟨m', queue', next, step⟩ | ⟨fits, next, step⟩
  · rcases seated.places valid places with queued | parked
    · have due := step.due []
      rw [due_nil, List.append_nil] at due
      rw [next, ← due] at queued
      exact owed_of_due queued
    · rw [next] at parked
      change frame ∈ (m'.held.getD []).drop (m.held.getD []).length at parked
      rcases step.parked with free | ⟨held, holds, more⟩
      · rw [free, Option.getD_none, List.drop_nil] at parked
        cases parked
      · rw [more, holds, Option.getD_some, Option.getD_some, List.drop_left] at parked
        exact .inl parked
  · rcases seated.places valid places with queued | parked
    · rw [next] at queued
      change frame ∈ (queue.waiting ++ fits).drop queue.waiting.length at queued
      rw [List.drop_left] at queued
      cases step with
      | left leaves => cases queued
      | overflow => cases queued
      | refused _ fits lost due =>
        apply owed_of_due
        rw [due]
        exact List.mem_append_left _ queued
    · rw [next] at parked
      change frame ∈ ([] : List φ).drop _ at parked
      rw [List.drop_nil] at parked
      cases parked

theorem Seated.not_places {queue : Queue φ} (valid : Valid r) (seated : Seated r p ⟨none, queue⟩) :
    ¬ r.Places e p.queue frame := by
  intro places
  obtain ⟨changed, next, shorter⟩ := Seat.next_vacant p queue e
  rcases seated.places valid places with queued | parked
  · rw [next, List.drop_eq_nil_of_le shorter] at queued
    cases queued
  · rw [next] at parked
    cases parked

/-- On a queue that was not there before, an event puts nothing. -/
theorem not_places_of_new (valid : Valid r) {queue : QueueId} (new : r.queue? queue = none) :
    ¬ r.Places e queue frame := by
  intro places
  rcases places with queued | ⟨room, parked⟩
  · have nothing : (r.next e).waiting queue = [] := by
      rw [waiting]
      cases known : (r.next e).queue? queue with
      | none => rfl
      | some later => exact (joins_of_new valid new known).1
    rw [added, nothing, List.drop_nil] at queued
    cases queued
  · obtain ⟨left, there, rfl, holds⟩ := mem_parked (List.mem_of_mem_drop parked)
    rcases mem_next valid there with ⟨m, old, keeps⟩ | ⟨capacity, holding, -, newcomer⟩
    · obtain ⟨before, known⟩ := valid.known room m old
      rw [← keeps.queue, new] at known
      cases known
    · rw [newcomer] at holds
      cases holding <;> cases holds

/-- Whatever is put on a queue or parked for its receiver is owed to a member that the queue belongs to. -/
theorem owed_of_places (valid : Valid r) (manned : Manned r) {queue : QueueId} (places : r.Places e queue frame) :
    ∃ room, ∃ m ∈ r.members room, m.queue = queue ∧ Owed ⟨room, m.session, queue⟩ m e frame := by
  cases known : r.queue? queue with
  | none => exact absurd places (not_places_of_new valid known)
  | some before =>
    obtain ⟨p, ⟨_ | m, waits⟩, rfl, seated, sound⟩ := manned queue before known
    · exact absurd places (seated.not_places valid)
    · obtain ⟨there, session, owns⟩ := seated.member m rfl
      refine ⟨p.room, m, there, owns, ?_⟩
      rw [session]
      exact seated.owed valid (seated.present sound) places

theorem held_next (valid : Valid r) (manned : Manned r) {room : ConversationId} {m left : Member φ}
    (old : m ∈ r.members room) (there : left ∈ (r.next e).members room) (keeps : Keeps m left) :
    left.held = none ∨ ∃ held, m.held = some held ∧ left.held = some (held ++ e.offered ⟨room, m.session, m.queue⟩) := by
  obtain ⟨queue, seated, sound⟩ := manned.seated valid old
  have stays := ((seated.next valid e).only room left there keeps.queue).2
  rcases (seated.present sound).outcome e with ⟨m', queue', next, step⟩ | ⟨fits, next, -⟩
  · rw [next] at stays
    cases stays
    exact step.parked
  · rw [next] at stays
    cases stays

end HelpDesk.Registry
