import HelpDesk.Proofs.RegistryFlow
import HelpDesk.Proofs.RegistryOffers

/-! What a member gets, from its join to its removal: all that is due to it, in order and once, up to the first frame
that finds its queue full or its receiver gone. -/

namespace HelpDesk.Registry
variable {φ : Type} {r : Registry φ} {p : Place} {seat : Seat φ}

/-- Whoever joined there is a member still, and holds these frames. -/
def Parks (r : Registry φ) (p : Place) (held : List φ) : Prop :=
  ∃ m ∈ r.members p.room, m.session = p.session ∧ m.queue = p.queue ∧ m.held = some held

/-- Does nobody receive from the queue any more? -/
def Gone (r : Registry φ) (queue : QueueId) : Prop :=
  ∃ q, r.queue? queue = some q ∧ q.receiving = false

/-- How a member is removed by an event after some others. Frames that fit are queued before that. -/
inductive Ending (r : Registry φ) (p : Place) (capacity : Nat) (parked : Option (List φ)) (stay : List (Event φ))
    (e : Event φ) : (fits : List φ) → Prop
  | left (leaves : e = .command (.leave p.room p.session)) : Ending r p capacity parked stay e []
  /-- of the frames that are due now, one finds nobody to receive it, or no room -/
  | refused (frame : φ) (fits lost : List φ)
      (cut : due p parked (stay ++ [e]) = due p parked stay ++ fits ++ frame :: lost)
      (why : (r.after stay).Gone p.queue ∧ fits = [] ∨
        ((r.after stay).waiting p.queue).length + fits.length = capacity) : Ending r p capacity parked stay e fits
  /-- no frame more can be parked -/
  | overflow (frame : φ) (held : List φ) (holds : parked = some held)
      (holding : ∀ x ∈ stay ++ [e], x.release? p = none) (offered : e.offered p = [frame])
      (full : (held ++ stay.flatMap (·.offered p)).length = capacity) : Ending r p capacity parked stay e []

/-- A run of which a member is there for the first part, and then never again. -/
structure Membership (r : Registry φ) (p : Place) (capacity : Nat) (parked : Option (List φ))
    (es stay rest : List (Event φ)) (fits : List φ) : Prop where
  split : es = stay ++ rest
  sits : ∀ first, first <+: stay → (r.after first).Sits p
  stays : .command (.leave p.room p.session) ∉ stay
  put : put p.queue r es = due p parked stay ++ fits
  parks : ∀ held, parked = some held → ∀ first, first <+: stay → (∀ e ∈ first, e.release? p = none) →
    (r.after first).Parks p (held ++ first.flatMap (·.offered p)) ∧
      (held ++ first.flatMap (·.offered p)).length ≤ capacity
  ending : rest = [] ∧ fits = [] ∨ ∃ e later, rest = e :: later ∧ Ending r p capacity parked stay e fits ∧
    ∀ first, first <+: later → ¬ (r.after (stay ++ e :: first)).Sits p

theorem Seated.sits_iff (seated : Seated r p seat) : r.Sits p ↔ ∃ m, seat.member = some m := by
  constructor
  · rintro ⟨m, there, -, queue⟩
    exact ⟨m, (seated.only _ m there queue).2⟩
  · rintro ⟨m, present⟩
    exact ⟨m, seated.member m present⟩

theorem Seat.next_vacant (p : Place) (queue : Queue φ) (e : Event φ) :
    ∃ changed, Seat.next p ⟨none, queue⟩ e = ⟨none, changed⟩ ∧ changed.waiting.length ≤ queue.waiting.length := by
  cases e with
  | join => exact ⟨queue, rfl, Nat.le_refl _⟩
  | command command => exact ⟨queue, rfl, Nat.le_refl _⟩
  | receive id =>
    by_cases own : id = p.queue
    · refine ⟨queue.receive.2, by simp [Seat.next, own], ?_⟩
      obtain ⟨capacity, _ | ⟨frame, rest⟩, sending, receiving⟩ := queue <;> simp [Queue.receive]
    · exact ⟨queue, by simp [Seat.next, own], Nat.le_refl _⟩
  | endReceiving id =>
    by_cases own : id = p.queue
    · exact ⟨queue.endReceiving, by simp [Seat.next, own], Nat.zero_le _⟩
    · exact ⟨queue, by simp [Seat.next, own], Nat.le_refl _⟩

/-- The seat of somebody who was removed stays vacant, and nothing more is put on its queue. -/
theorem Seated.vacant (valid : Valid r) {queue : Queue φ} (seated : Seated r p ⟨none, queue⟩) (es : List (Event φ)) :
    Registry.put p.queue r es = [] ∧ ∀ first, first <+: es → ¬ (r.after first).Sits p := by
  induction es generalizing r queue with
  | nil =>
    refine ⟨rfl, fun first part => ?_⟩
    rw [List.prefix_nil.mp part, after_nil, seated.sits_iff]
    rintro ⟨m, ⟨⟩⟩
  | cons e es ih =>
    have next := seated.next valid e
    have nothing := seated.added valid e
    obtain ⟨changed, same, shorter⟩ := Seat.next_vacant p queue e
    rw [same] at next nothing
    rw [List.drop_eq_nil_of_le shorter] at nothing
    obtain ⟨put, never⟩ := ih (valid.next e) next
    refine ⟨?_, ?_⟩
    · rw [Registry.put, nothing, put]
      rfl
    · intro first part
      rcases List.prefix_cons_iff.mp part with rfl | ⟨rest, rfl, inner⟩
      · rw [after_nil, seated.sits_iff]
        rintro ⟨m, ⟨⟩⟩
      · exact never rest inner

@[simp] theorem due_nil (p : Place) (held : Option (List φ)) : due p held [] = [] := by
  cases held <;> rfl

section Induction
variable {m m' : Member φ} {queue queue' : Queue φ} {e : Event φ} {es stay rest : List (Event φ)} {fits : List φ}

theorem Seated.parks (seated : Seated r p ⟨some m, queue⟩) {held : List φ} (holds : m.held = some held) :
    r.Parks p held := by
  obtain ⟨there, session, owns⟩ := seated.member m rfl
  exact ⟨m, there, session, owns, holds⟩

theorem Membership.cons (valid : Valid r) (seated : Seated r p ⟨some m, queue⟩) (present : Present p m queue)
    (next : Seat.next p ⟨some m, queue⟩ e = ⟨some m', queue'⟩) (step : Stays p m queue e m' queue')
    (rest' : Membership (r.next e) p queue'.capacity m'.held es stay rest fits) :
    Membership r p queue.capacity m.held (e :: es) (e :: stay) rest fits := by
  have added := seated.added valid e
  rw [next] at added
  refine ⟨?_, ?_, ?_, ?_, ?_, ?_⟩
  · rw [rest'.split]
    rfl
  · intro first part
    rcases List.prefix_cons_iff.mp part with rfl | ⟨inner, rfl, part'⟩
    · exact seated.sits_iff.mpr ⟨m, rfl⟩
    · exact rest'.sits inner part'
  · intro leaves
    rcases List.mem_cons.mp leaves with same | later
    · exact step.stays same.symm
    · exact rest'.stays later
  · rw [Registry.put, rest'.put, added, step.due, List.append_assoc]
  · intro held holds first part holding
    rcases List.prefix_cons_iff.mp part with rfl | ⟨inner, rfl, part'⟩
    · rw [List.flatMap_nil, List.append_nil]
      exact ⟨seated.parks holds, present.parks held holds⟩
    · have holds' := step.held (holding e List.mem_cons_self)
      rw [holds, Option.map_some] at holds'
      have parks := rest'.parks _ holds' inner part' fun x there => holding x (List.mem_cons_of_mem e there)
      rw [step.capacity, List.append_assoc] at parks
      exact parks
  · apply rest'.ending.imp id
    rintro ⟨x, later, rfl, ending, never⟩
    refine ⟨x, later, rfl, ?_, never⟩
    cases ending with
    | left leaves => exact .left leaves
    | refused frame fits lost cut why =>
      refine .refused frame fits lost ?_ ?_
      · rw [List.cons_append, step.due, step.due, cut]
        simp only [List.append_assoc]
      · rw [step.capacity] at why
        exact why
    | overflow frame held holds holding offered full =>
      have holding' : e.release? p = none := by
        cases release : e.release? p with
        | none => rfl
        | some lead => cases holds.symm.trans (step.released (by simp [release]))
      rw [step.held holding'] at holds
      obtain ⟨parked, held, rfl⟩ := Option.map_eq_some_iff.mp holds
      refine .overflow frame parked held ?_ offered ?_
      · intro y there
        rcases List.mem_cons.mp there with rfl | there
        · exact holding'
        · exact holding y there
      · rw [step.capacity, List.append_assoc] at full
        exact full

theorem Membership.removed (valid : Valid r) (seated : Seated r p ⟨some m, queue⟩) (present : Present p m queue)
    (next : Seat.next p ⟨some m, queue⟩ e = Seat.vacate ⟨some m, extend queue fits⟩)
    (step : Removes p m queue e fits) (es : List (Event φ)) :
    Membership r p queue.capacity m.held (e :: es) [] (e :: es) fits := by
  have added := seated.added valid e
  have gone := seated.next valid e
  rw [next] at added gone
  obtain ⟨nothing, never⟩ := gone.vacant (valid.next e) es
  refine ⟨rfl, ?_, List.not_mem_nil, ?_, ?_, .inr ⟨e, es, rfl, ?_, never⟩⟩
  · intro first part
    rw [List.prefix_nil.mp part]
    exact seated.sits_iff.mpr ⟨m, rfl⟩
  · have queued : r.added p.queue e = fits := by
      rw [added]
      exact List.drop_left
    rw [Registry.put, queued, nothing, due_nil, List.append_nil, List.nil_append]
  · intro held holds first part _
    rw [List.prefix_nil.mp part, List.flatMap_nil, List.append_nil]
    exact ⟨seated.parks holds, present.parks held holds⟩
  · cases step with
    | left leaves => exact .left leaves
    | refused frame fits lost cut why =>
      refine .refused frame fits lost ?_ ?_
      · rw [List.nil_append, due_nil, cut]
        rfl
      · rw [after_nil, seated.waiting]
        exact why.imp (fun why => ⟨⟨queue, seated.queue, why.1⟩, why.2⟩) id
    | overflow frame held holds holding offered full =>
      refine .overflow frame held holds ?_ offered ?_
      · intro x there
        rw [List.mem_singleton.mp there]
        exact holding
      · rw [List.flatMap_nil, List.append_nil]
        exact full

theorem Seated.membership (valid : Valid r) (seated : Seated r p ⟨some m, queue⟩) (present : Present p m queue)
    (es : List (Event φ)) : ∃ stay rest fits, Membership r p queue.capacity m.held es stay rest fits := by
  induction es generalizing r m queue with
  | nil =>
    refine ⟨[], [], [], rfl, ?_, List.not_mem_nil, ?_, ?_, .inl ⟨rfl, rfl⟩⟩
    · intro first part
      rw [List.prefix_nil.mp part]
      exact seated.sits_iff.mpr ⟨m, rfl⟩
    · rw [due_nil]
      rfl
    · intro held holds first part _
      rw [List.prefix_nil.mp part, List.flatMap_nil, List.append_nil]
      exact ⟨seated.parks holds, present.parks held holds⟩
  | cons e es ih =>
    rcases present.outcome e with ⟨m', queue', next, step⟩ | ⟨fits, next, step⟩
    · have seated' := seated.next valid e
      rw [next] at seated'
      obtain ⟨stay, rest, fits, member⟩ := ih (valid.next e) seated' step.present
      exact ⟨e :: stay, rest, fits, member.cons valid seated present next step⟩
    · exact ⟨[], e :: es, fits, .removed valid seated present next step es⟩

end Induction

theorem due_of_holding (held : List φ) {es : List (Event φ)} (holding : ∀ e ∈ es, e.release? p = none) :
    due p (some held) es = [] := by
  induction es generalizing held with
  | nil => rfl
  | cons e es ih =>
    rw [due_cons_parked (holding e List.mem_cons_self)]
    exact ih _ fun x there => holding x (List.mem_cons_of_mem e there)

/-- What is due to a member that held and is released: the lead, what was parked, and whatever came later. -/
theorem due_of_release (p : Place) (held : List φ) (lead : Option φ) {first : List (Event φ)}
    (holding : ∀ e ∈ first, e.release? p = none) (last : List (Event φ)) :
    due p (some held) (first ++ .command (.release p.room p.session lead) :: last) =
      lead.toList ++ held ++ (first ++ last).flatMap (·.offered p) := by
  induction first generalizing held with
  | nil =>
    have release : (Event.command (.release p.room p.session lead)).release? p = some lead := by
      simp [Event.release?]
    rw [List.nil_append, due_cons_of_release release]
    simp [due]
  | cons e first ih =>
    rw [List.cons_append, due_cons_parked (holding e List.mem_cons_self),
      ih _ fun x there => holding x (List.mem_cons_of_mem e there)]
    simp

theorem Membership.put_of_holding {capacity : Nat} {held : List φ} {es stay rest : List (Event φ)} {fits : List φ}
    (member : Membership r p capacity (some held) es stay rest fits)
    (holding : ∀ e ∈ stay ++ rest.take 1, e.release? p = none) : Registry.put p.queue r es = [] := by
  have stays : ∀ e ∈ stay, e.release? p = none := fun e there => holding e (List.mem_append_left _ there)
  have none : fits = [] := by
    rcases member.ending with ⟨-, none⟩ | ⟨e, later, rfl, ending, -⟩
    · exact none
    · cases ending with
      | left => rfl
      | overflow => rfl
      | refused frame fits lost cut why =>
        have nothing : due p (some held) (stay ++ [e]) = [] := due_of_holding held holding
        rw [nothing] at cut
        simp at cut
  rw [member.put, due_of_holding held stays, none]
  rfl

section Newcomer
variable {joined : Registry φ} {room : ConversationId} {session : SessionId} {identity : Identity} {capacity : Nat}
  {holding : Bool} {queue : QueueId} (valid : Valid r) (absent : r.member? room session = none)
  (joins : r.join room session identity capacity holding = (queue, joined))
include valid absent joins

theorem seated_newcomer : Valid joined ∧ Seated joined ⟨room, session, queue⟩
    ⟨some (r.newcomer session identity capacity holding), ⟨capacity, [], true, true⟩⟩ := by
  have after := @Valid.join _ _ room session identity capacity holding valid
  have seated := @seated_of_join _ _ room session identity capacity holding valid absent
  rw [joins] at after seated
  exact ⟨after, seated⟩

theorem membership_of_join (es : List (Event φ)) :
    ∃ stay rest fits, Membership joined ⟨room, session, queue⟩ capacity (if holding then some [] else none) es stay rest
      fits := by
  obtain ⟨after, seated⟩ := seated_newcomer valid absent joins
  refine seated.membership after ⟨rfl, rfl, Nat.zero_le _, ?_⟩ es
  intro held holds
  cases holding <;> cases holds
  exact Nat.zero_le _

theorem received_of_join (es : List (Event φ)) :
    received queue joined es <+: put queue joined es ∧
    (.endReceiving queue ∉ es →
      put queue joined es = received queue joined es ++ (joined.after es).waiting queue ∧
      received queue joined (es ++ List.replicate ((joined.after es).waiting queue).length (.receive queue)) =
        put queue joined es) := by
  obtain ⟨after, seated⟩ := seated_newcomer valid absent joins
  have empty : joined.waiting queue = [] := seated.waiting
  have first := seated.received_prefix after es
  rw [empty, List.nil_append] at first
  refine ⟨first, fun kept => ?_⟩
  have all := seated.put_eq after es kept
  rw [empty, List.nil_append] at all
  refine ⟨all, ?_⟩
  obtain ⟨nothing, left⟩ := (seated.after after es).drained (after.after es) ((joined.after es).waiting queue).length
  have kept' : .endReceiving queue ∉ es ++ List.replicate ((joined.after es).waiting queue).length (.receive queue) := by
    simpa [List.mem_replicate] using kept
  have more := seated.put_eq after _ kept'
  rw [empty, List.nil_append, put_append, nothing, List.append_nil, after_append, left, List.drop_length,
    List.append_nil] at more
  exact more.symm

end Newcomer

/-- Somebody joins a room that their session is not in, with a queue of their own. Whatever happens then, the frames put
on the queue are those that are due to them, up to their removal; and they receive these and no others, all of them if
they keep receiving. Whoever joins holding gets nothing before their release. -/
theorem delivery_trace (earlier es : List (Event φ)) (room : ConversationId) (session : SessionId)
    (identity : Identity) (capacity : Nat) (holding : Bool) (queue : QueueId) (r : Registry φ)
    (absent : (({} : Registry φ).after earlier).member? room session = none)
    (joins : (({} : Registry φ).after earlier).join room session identity capacity holding = (queue, r)) :
    (∃ stay rest fits,
      Membership r ⟨room, session, queue⟩ capacity (if holding then some [] else none) es stay rest fits ∧
      (holding = true → (∀ e ∈ stay ++ rest.take 1, e.release? ⟨room, session, queue⟩ = none) →
        put queue r es = [] ∧ received queue r es = [])) ∧
    received queue r es <+: put queue r es ∧
    (.endReceiving queue ∉ es →
      put queue r es = received queue r es ++ (r.after es).waiting queue ∧
      received queue r (es ++ List.replicate ((r.after es).waiting queue).length (.receive queue)) =
        put queue r es) := by
  have valid : Valid (({} : Registry φ).after earlier) := Valid.initial.after earlier
  obtain ⟨stay, rest, fits, member⟩ := membership_of_join valid absent joins es
  obtain ⟨first, kept⟩ := received_of_join valid absent joins es
  refine ⟨⟨stay, rest, fits, member, ?_⟩, first, kept⟩
  rintro rfl quiet
  have nothing := member.put_of_holding quiet
  rw [nothing] at first
  exact ⟨nothing, List.prefix_nil.mp first⟩

/-- A member that holds gets its lead, then the frame parked before, and then the next. -/
theorem delivery_trace_of_holding :
    let room := ConversationId.dashboard
    let staff : Identity := ⟨⟨.ofNat 1⟩, .admin⟩
    let r : Registry Nat := (({} : Registry Nat).join room ⟨1⟩ staff 2 true).2
    let es : List (Event Nat) := [.command (.broadcast room 1), .command (.release room ⟨1⟩ (some 10)), .receive ⟨0⟩,
      .command (.broadcast room 2)]
    ({} : Registry Nat).member? room ⟨1⟩ = none ∧ ({} : Registry Nat).join room ⟨1⟩ staff 2 true = (⟨0⟩, r) ∧
      .endReceiving ⟨0⟩ ∉ es ∧ received ⟨0⟩ r (es ++ [.receive ⟨0⟩, .receive ⟨0⟩]) = [10, 1, 2] := by
  intro room staff r es
  have absent : ({} : Registry Nat).member? room ⟨1⟩ = none := rfl
  have joins : ({} : Registry Nat).join room ⟨1⟩ staff 2 true = (⟨0⟩, r) := rfl
  have kept : .endReceiving ⟨0⟩ ∉ es := by simp [es]
  have waiting : ((r.after es).waiting ⟨0⟩).length = 2 := by decide +kernel
  have queued : put ⟨0⟩ r es = [10, 1, 2] := by decide +kernel
  have all := ((delivery_trace [] es room ⟨1⟩ staff 2 true ⟨0⟩ r absent joins).2.2 kept).2
  rw [waiting, queued] at all
  exact ⟨absent, joins, kept, all⟩

end HelpDesk.Registry
