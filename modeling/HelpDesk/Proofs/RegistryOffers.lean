import HelpDesk.Proofs.RegistryRequests

/-! What one event does to a member who is present: it stays, and its queue gets what is due to it, or it is removed. -/

namespace HelpDesk.Registry
variable {φ : Type} {p : Place} {m : Member φ} {queue : Queue φ} {e : Event φ}

structure Present (p : Place) (m : Member φ) (queue : Queue φ) : Prop where
  session : m.session = p.session
  sending : queue.sending = true
  fits : queue.waiting.length ≤ queue.capacity
  parks : ∀ held, m.held = some held → held.length ≤ queue.capacity

def extend (queue : Queue φ) (frames : List φ) : Queue φ :=
  { queue with waiting := queue.waiting ++ frames }

@[simp] theorem extend_nil (queue : Queue φ) : extend queue [] = queue := by
  simp [extend]

@[simp] theorem extend_extend (queue : Queue φ) (first last : List φ) :
    extend (extend queue first) last = extend queue (first ++ last) := by
  simp [extend]

@[simp] theorem length_extend (queue : Queue φ) (frames : List φ) :
    (extend queue frames).waiting.length = queue.waiting.length + frames.length :=
  List.length_append

theorem take_of_room (free : m.held = none) (sending : queue.sending = true) (receiving : queue.receiving = true)
    (room : queue.waiting.length < queue.capacity) (frame : φ) :
    (Seat.mk (some m) queue).take frame = ⟨some m, extend queue [frame]⟩ := by
  simp [Seat.take, free, Queue.push?, sending, receiving, room, extend]

theorem take_of_gone (free : m.held = none) (gone : queue.receiving = false) (frame : φ) :
    (Seat.mk (some m) queue).take frame = Seat.vacate ⟨some m, queue⟩ := by
  simp [Seat.take, free, Queue.push?, gone]

theorem take_of_full (free : m.held = none) (full : queue.capacity ≤ queue.waiting.length) (frame : φ) :
    (Seat.mk (some m) queue).take frame = Seat.vacate ⟨some m, queue⟩ := by
  have room : ¬ queue.waiting.length < queue.capacity := by omega
  simp [Seat.take, free, Queue.push?, room]

/-- Frames are offered to a member that holds nothing: it gets all of them, or those before the first one that finds
the queue full or the receiver gone. -/
theorem foldl_take_cases (free : m.held = none) (sending : queue.sending = true)
    (bound : queue.waiting.length ≤ queue.capacity) (frames : List φ) :
    (frames.foldl Seat.take ⟨some m, queue⟩ = ⟨some m, extend queue frames⟩ ∧
      queue.waiting.length + frames.length ≤ queue.capacity) ∨
    ∃ fits frame lost, frames = fits ++ frame :: lost ∧
      frames.foldl Seat.take ⟨some m, queue⟩ = Seat.vacate ⟨some m, extend queue fits⟩ ∧
      (queue.receiving = false ∧ fits = [] ∨ queue.waiting.length + fits.length = queue.capacity) := by
  induction frames generalizing queue with
  | nil =>
    left
    rw [extend_nil]
    exact ⟨rfl, bound⟩
  | cons frame frames ih =>
    rw [List.foldl_cons]
    cases receiving : queue.receiving with
    | false =>
      right
      refine ⟨[], frame, frames, rfl, ?_, .inl ⟨rfl, rfl⟩⟩
      rw [take_of_gone free receiving, extend_nil]
      exact Seat.foldl_take_vacant _ _
    | true =>
      rcases Nat.lt_or_ge queue.waiting.length queue.capacity with room | full
      · rw [take_of_room free sending receiving room]
        have bound : (extend queue [frame]).waiting.length ≤ (extend queue [frame]).capacity := by
          rw [length_extend]
          exact room
        rcases @ih (extend queue [frame]) sending bound with ⟨all, bounded⟩ | ⟨fits, cut, lost, rfl, all, why⟩
        · left
          refine ⟨by simpa using all, ?_⟩
          rw [length_extend] at bounded
          simp only [List.length_cons, List.length_nil, extend] at bounded ⊢
          omega
        · right
          refine ⟨frame :: fits, cut, lost, rfl, by simpa using all, ?_⟩
          rcases why with ⟨gone, -⟩ | full
          · exact absurd (receiving.symm.trans gone) (by decide)
          · right
            rw [length_extend] at full
            simp only [List.length_cons, List.length_nil, extend] at full ⊢
            omega
      · right
        refine ⟨[], frame, frames, rfl, ?_, .inr ?_⟩
        · rw [take_of_full free full, extend_nil]
          exact Seat.foldl_take_vacant _ _
        · simp only [List.length_nil]
          omega

/-- A member is still there after an event. -/
structure Stays (p : Place) (m : Member φ) (queue : Queue φ) (e : Event φ) (m' : Member φ) (queue' : Queue φ) :
    Prop where
  present : Present p m' queue'
  capacity : queue'.capacity = queue.capacity
  stays : e ≠ .command (.leave p.room p.session)
  due : ∀ es, due p m.held (e :: es) = queue'.waiting.drop queue.waiting.length ++ due p m'.held es
  held : e.release? p = none → m'.held = m.held.map (· ++ e.offered p)
  released : e.release? p ≠ none → m'.held = none
  gone : queue'.receiving = false → queue.receiving = false ∨ e = .endReceiving p.queue

/-- A member is removed by an event, that puts the frames `fits` on its queue still. -/
inductive Removes (p : Place) (m : Member φ) (queue : Queue φ) (e : Event φ) : (fits : List φ) → Prop
  | left (leaves : e = .command (.leave p.room p.session)) : Removes p m queue e []
  | refused (frame : φ) (fits lost : List φ) (due : due p m.held [e] = fits ++ frame :: lost)
      (why : queue.receiving = false ∧ fits = [] ∨ queue.waiting.length + fits.length = queue.capacity) :
      Removes p m queue e fits
  | overflow (frame : φ) (held : List φ) (holds : m.held = some held) (holding : e.release? p = none)
      (offered : e.offered p = [frame]) (full : held.length = queue.capacity) : Removes p m queue e []

theorem offered_of_release {lead : Option φ} (release : e.release? p = some lead) : e.offered p = lead.toList := by
  unfold Event.release? at release
  split at release
  · split at release
    · cases release
      simp_all [Event.offered]
    · cases release
  · cases release

theorem due_cons_of_release {lead : Option φ} (release : e.release? p = some lead) (held : Option (List φ))
    (es : List (Event φ)) : due p held (e :: es) = lead.toList ++ held.getD [] ++ due p none es := by
  cases held with
  | some parked => simp [due, release]
  | none => simp [due, offered_of_release release]

theorem due_cons_free (e : Event φ) (es : List (Event φ)) : due p none (e :: es) = e.offered p ++ due p none es := by
  simp [due]

theorem due_cons_parked (holding : e.release? p = none) (parked : List φ) (es : List (Event φ)) :
    due p (some parked) (e :: es) = due p (some (parked ++ e.offered p)) es := by
  simp [due, holding]

namespace Present

/-- A member is there after an event, or it was removed. -/
def Outcome (p : Place) (m : Member φ) (queue : Queue φ) (e : Event φ) : Prop :=
  (∃ m' queue', Seat.next p ⟨some m, queue⟩ e = ⟨some m', queue'⟩ ∧ Stays p m queue e m' queue') ∨
  ∃ fits, Seat.next p ⟨some m, queue⟩ e = Seat.vacate ⟨some m, extend queue fits⟩ ∧ Removes p m queue e fits

variable (present : Present p m queue)
include present

theorem gets (free : Member φ) (frames : List φ) (session : free.session = m.session) (holdsNot : free.held = none)
    (next : Seat.next p ⟨some m, queue⟩ e = frames.foldl Seat.take ⟨some free, queue⟩)
    (stays : e ≠ .command (.leave p.room p.session))
    (owed : ∀ es, due p m.held (e :: es) = frames ++ due p none es)
    (held : e.release? p = none → m.held = none) : Outcome p m queue e := by
  rcases foldl_take_cases holdsNot present.sending present.fits frames with
    ⟨all, bound⟩ | ⟨fits, frame, lost, rfl, all, why⟩
  · refine .inl ⟨free, extend queue frames, next.trans all, ?_, rfl, stays, ?_, ?_, fun _ => holdsNot, .inl⟩
    · refine ⟨session.trans present.session, present.sending, ?_, ?_⟩
      · rw [length_extend]
        exact bound
      · intro parked holds
        cases holdsNot.symm.trans holds
    · intro es
      rw [owed, holdsNot]
      simp [extend]
    · intro holding
      rw [holdsNot, held holding]
      rfl
  · refine .inr ⟨fits, next.trans all, .refused frame fits lost ?_ why⟩
    rw [owed]
    simp [due]

theorem take (frame : φ) (next : Seat.next p ⟨some m, queue⟩ e = Seat.take ⟨some m, queue⟩ frame)
    (offered : e.offered p = [frame]) (holding : e.release? p = none) : Outcome p m queue e := by
  have stays : e ≠ .command (.leave p.room p.session) := by
    rintro rfl
    cases offered
  cases holds : m.held with
  | none =>
    refine present.gets m [frame] rfl holds next stays ?_ fun _ => holds
    intro es
    rw [holds, due_cons_free, offered]
  | some parked =>
    rcases Nat.lt_or_ge parked.length queue.capacity with room | full
    · have parks : Seat.take ⟨some m, queue⟩ frame = ⟨some { m with held := some (parked ++ [frame]) }, queue⟩ := by
        simp [Seat.take, holds, room]
      refine .inl ⟨_, queue, next.trans parks, ⟨present.session, present.sending, present.fits, ?_⟩, rfl, stays, ?_, ?_,
        fun released => absurd holding released, .inl⟩
      · intro held same
        cases same
        rw [List.length_append]
        exact room
      · intro es
        rw [holds, due_cons_parked holding, offered, List.drop_length, List.nil_append]
      · intro _
        simp [holds, offered]
    · have noRoom : ¬ parked.length < queue.capacity := by omega
      have overflows : Seat.take ⟨some m, queue⟩ frame = Seat.vacate ⟨some m, extend queue []⟩ := by
        simp [Seat.take, holds, noRoom]
      have filled : parked.length = queue.capacity := Nat.le_antisymm (present.parks parked holds) full
      exact .inr ⟨[], next.trans overflows, .overflow frame parked holds holding offered filled⟩

theorem release (lead : Option φ) (next : Seat.next p ⟨some m, queue⟩ e = Seat.release ⟨some m, queue⟩ lead)
    (release : e.release? p = some lead) : Outcome p m queue e := by
  have stays : e ≠ .command (.leave p.room p.session) := by
    rintro rfl
    cases release
  refine present.gets { m with held := none } (lead.toList ++ m.held.getD []) rfl rfl next stays
    (due_cons_of_release release m.held) fun holding => ?_
  cases holding.symm.trans release

theorem other (changed : Queue φ) (next : Seat.next p ⟨some m, queue⟩ e = ⟨some m, changed⟩)
    (offered : e.offered p = []) (holding : e.release? p = none) (stays : e ≠ .command (.leave p.room p.session))
    (sending : changed.sending = queue.sending) (capacity : changed.capacity = queue.capacity)
    (shorter : changed.waiting.length ≤ queue.waiting.length)
    (gone : changed.receiving = false → queue.receiving = false ∨ e = .endReceiving p.queue) :
    Outcome p m queue e := by
  refine .inl ⟨m, changed, next, ?_, capacity, stays, ?_, ?_, fun released => absurd holding released, gone⟩
  · refine ⟨present.session, sending.trans present.sending, ?_, ?_⟩
    · have bound := present.fits
      omega
    · rw [capacity]
      exact present.parks
  · intro es
    rw [List.drop_eq_nil_of_le shorter, List.nil_append]
    cases m.held with
    | none => rw [due_cons_free, offered, List.nil_append]
    | some parked => rw [due_cons_parked holding, offered, List.append_nil]
  · intro _
    simp [offered]

/-- A request that is not for the member leaves it alone. -/
theorem elsewhere {command : Command φ} (apart : command.room ≠ p.room) : Outcome p m queue (.command command) := by
  refine present.other queue ?_ ?_ ?_ ?_ rfl rfl (Nat.le_refl _) .inl
  · simp [Seat.next, apart]
  · cases command <;> simp_all [Event.offered, Command.room]
  · cases command <;> simp_all [Event.release?, Command.room]
  · rintro ⟨⟩
    exact apart rfl

theorem another {command : Command φ} {session : SessionId} (addressed : command.session? = some session)
    (apart : m.session ≠ session) : Outcome p m queue (.command command) := by
  have apart' : session ≠ p.session := fun same => apart (present.session.trans same.symm)
  refine present.other queue ?_ ?_ ?_ ?_ rfl rfl (Nat.le_refl _) .inl
  · simp [Seat.next, Command.effect_of_ne addressed apart]
  · cases command <;> cases addressed <;> simp [Event.offered, apart']
  · cases command <;> cases addressed <;> simp [Event.release?, apart']
  · rintro ⟨⟩
    cases addressed
    exact apart' rfl

theorem requested {command : Command φ} (here : command.room = p.room)
    (own : ∀ session, command.session? = some session → session = p.session) :
    Outcome p m queue (.command command) := by
  have next : Seat.next p ⟨some m, queue⟩ (.command command) = command.effect m ⟨some m, queue⟩ := by
    simp [Seat.next, here]
  have session := present.session
  cases command with
  | leave room who =>
    cases here
    cases own who rfl
    refine .inr ⟨[], next.trans ?_, .left rfl⟩
    simp [Command.effect, session]
  | broadcast room frame =>
    cases here
    refine present.take frame next ?_ rfl
    simp [Event.offered]
  | sendTo room who frame =>
    cases here
    cases own who rfl
    refine present.take frame (next.trans ?_) ?_ rfl
    · simp [Command.effect, session]
    · simp [Event.offered]
  | release room who lead =>
    cases here
    cases own who rfl
    refine present.release lead (next.trans ?_) ?_
    · simp [Command.effect, session]
    · simp [Event.release?]

/-- Every event keeps the member, with what is due to it queued or parked, or removes it. -/
theorem outcome (e : Event φ) : Outcome p m queue e := by
  cases e with
  | join room session identity capacity holding =>
    exact present.other queue rfl rfl rfl (fun same => by cases same) rfl rfl (Nat.le_refl _) .inl
  | command command =>
    by_cases here : command.room = p.room
    · cases addressed : command.session? with
      | none => exact present.requested here fun session same => by cases addressed.symm.trans same
      | some session =>
        by_cases own : session = p.session
        · apply present.requested here
          intro session' same
          cases addressed.symm.trans same
          exact own
        · exact present.another addressed fun same => own (same.symm.trans present.session)
    · exact present.elsewhere here
  | receive id =>
    have waits : queue.receive.2 = { queue with waiting := queue.waiting.tail } := by
      obtain ⟨capacity, _ | ⟨first, rest⟩, sending, receiving⟩ := queue <;> rfl
    by_cases own : id = p.queue
    · refine present.other queue.receive.2 ?_ rfl rfl (fun same => by cases same) ?_ ?_ ?_ ?_
      · simp [Seat.next, own]
      all_goals rw [waits]
      · rw [List.length_tail]
        omega
      · exact .inl
    · refine present.other queue ?_ rfl rfl (fun same => by cases same) rfl rfl (Nat.le_refl _) .inl
      simp [Seat.next, own]
  | endReceiving id =>
    by_cases own : id = p.queue
    · subst own
      refine present.other queue.endReceiving ?_ rfl rfl (fun same => by cases same) rfl rfl ?_ ?_
      · simp [Seat.next]
      · exact Nat.zero_le _
      · exact fun _ => .inr rfl
    · refine present.other queue ?_ rfl rfl (fun same => by cases same) rfl rfl (Nat.le_refl _) .inl
      simp [Seat.next, own]

end Present

end HelpDesk.Registry
