import HelpDesk.Proofs.RegistryPlacements

/-! What a member gets when it is released. As many frames are parked for it as its queue can take; the lead goes into the
same queue ahead of them, and nobody receives meanwhile. So the lead takes the place of the last parked frame when the
parking is full, and the member is lost with that frame. -/

namespace HelpDesk.Registry
variable {φ : Type} {r : Registry φ} {p : Place} {m : Member φ} {queue : Queue φ} {held : List φ}

/-- Whoever joined there is a member still, and holds no longer. -/
def Flows (r : Registry φ) (p : Place) : Prop :=
  ∃ m ∈ r.members p.room, m.session = p.session ∧ m.queue = p.queue ∧ m.held = none

/-- Whoever holds, is not released and is a member still has parked all that was offered since. -/
theorem Seated.parks_after (valid : Valid r) (seated : Seated r p ⟨some m, queue⟩) (sound : Seat.Sound ⟨some m, queue⟩)
    (holds : m.held = some held) {es : List (Event φ)} (holding : ∀ e ∈ es, e.release? p = none)
    (sits : (r.after es).Sits p) :
    ∃ m' queue', Seated (r.after es) p ⟨some m', queue'⟩ ∧ Seat.Sound ⟨some m', queue'⟩ ∧
      m'.held = some (held ++ es.flatMap (·.offered p)) ∧ queue'.capacity = queue.capacity := by
  induction es generalizing r m queue held with
  | nil => exact ⟨m, queue, seated, sound, by simpa using holds, rfl⟩
  | cons e es ih =>
    have next := seated.next valid e
    have sound' := sound.next p e
    rcases (seated.present sound).outcome e with ⟨m', queue', same, step⟩ | ⟨fits, same, -⟩
    · rw [same] at next sound'
      have parked := step.held (holding e List.mem_cons_self)
      rw [holds, Option.map_some] at parked
      obtain ⟨n, last, there, well, all, capacity⟩ :=
        ih (valid.next e) next sound' parked (fun x later => holding x (List.mem_cons_of_mem e later)) sits
      refine ⟨n, last, there, well, ?_, capacity.trans step.capacity⟩
      rw [all, List.flatMap_cons, List.append_assoc]
    · rw [same] at next
      exact absurd sits ((next.vacant (valid.next e) es).2 es (List.prefix_refl es))

/-- A member that is released gets the lead and what it has parked, and stays; or its queue takes as much of this as it
can, and the member is removed. -/
theorem Seated.release (valid : Valid r) (seated : Seated r p ⟨some m, queue⟩) (sound : Seat.Sound ⟨some m, queue⟩)
    (alive : queue.receiving = true) (lead : Option φ) :
    let frames := lead.toList ++ m.held.getD []
    (queue.waiting.length + frames.length ≤ queue.capacity ∧
      Seated (r.release p.room p.session lead) p ⟨some { m with held := none }, extend queue frames⟩) ∨
    (queue.capacity < queue.waiting.length + frames.length ∧ Seated (r.release p.room p.session lead) p
      (Seat.vacate ⟨some { m with held := none }, extend queue (frames.take (queue.capacity - queue.waiting.length))⟩)) := by
  intro frames
  have present := seated.present sound
  have next := seated.next valid (.command (.release p.room p.session lead))
  have effect : Seat.next p ⟨some m, queue⟩ (.command (.release p.room p.session lead)) =
      frames.foldl Seat.take ⟨some { m with held := none }, queue⟩ := by
    simp [Seat.next, Command.room, Command.effect, Seat.release, present.session, frames]
  rw [effect] at next
  have free : ({ m with held := none } : Member φ).held = none := rfl
  rcases foldl_take_cases free present.sending present.fits frames with
    ⟨all, bound⟩ | ⟨fits, frame, lost, cut, all, why⟩
  · rw [all] at next
    exact .inl ⟨bound, next⟩
  · rw [all] at next
    have full : queue.waiting.length + fits.length = queue.capacity := by
      rcases why with ⟨gone, -⟩ | full
      · exact absurd (alive.symm.trans gone) (by decide)
      · exact full
    refine .inr ⟨?_, ?_⟩
    · rw [cut, List.length_append, List.length_cons]
      omega
    · rw [cut, List.take_left' (by omega)]
      exact next

/-- Whoever holds has nothing waiting, so it is only what was parked that has to fit. -/
theorem Seated.released (valid : Valid r) (seated : Seated r p ⟨some m, queue⟩) (sound : Seat.Sound ⟨some m, queue⟩)
    (holds : m.held = some held) (alive : queue.receiving = true) (lead : Option φ) :
    ((lead.toList ++ held).length ≤ queue.capacity ∧
      (r.release p.room p.session lead).waiting p.queue = lead.toList ++ held ∧
      (r.release p.room p.session lead).Flows p) ∨
    (queue.capacity < (lead.toList ++ held).length ∧
      (r.release p.room p.session lead).waiting p.queue = (lead.toList ++ held).take queue.capacity ∧
      ¬ (r.release p.room p.session lead).Sits p) := by
  have empty : queue.waiting = [] := (sound.parks m rfl held holds).2
  have outcome := seated.release valid sound alive lead
  simp only [holds, Option.getD_some, empty, List.length_nil, Nat.zero_add, Nat.sub_zero] at outcome
  rcases outcome with ⟨bound, next⟩ | ⟨more, next⟩
  · obtain ⟨there, session, owns⟩ := next.member _ rfl
    have waiting := next.waiting
    rw [extend, empty, List.nil_append] at waiting
    exact .inl ⟨bound, waiting, _, there, session, owns, rfl⟩
  · have waiting := next.waiting
    rw [Seat.vacate, extend, empty, List.nil_append] at waiting
    refine .inr ⟨more, waiting, fun sits => ?_⟩
    obtain ⟨_, absent⟩ := next.sits_iff.mp sits
    cases absent

/-- Somebody joins holding, with a queue of their own, and is still a member after some events, none of which releases
them. All the frames that they were offered are parked, and their queue is empty. If the receiver is there, a release
puts the lead and then all these frames on the queue, and leaves them in the room, exactly if the queue has room for all of
this. It has, unless there is a lead and the parking is full: then the frame that is parked last is lost, and the member is
removed. -/
theorem release_delivers_all_iff (earlier es : List (Event φ)) (room : ConversationId) (session : SessionId)
    (identity : Identity) (capacity : Nat) (queue : QueueId) (r : Registry φ)
    (absent : (({} : Registry φ).after earlier).member? room session = none)
    (joins : (({} : Registry φ).after earlier).join room session identity capacity true = (queue, r))
    (holding : ∀ e ∈ es, e.release? ⟨room, session, queue⟩ = none)
    (sits : (r.after es).Sits ⟨room, session, queue⟩) (alive : ¬ (r.after es).Gone queue) (lead : Option φ) :
    let p : Place := ⟨room, session, queue⟩
    let parked := es.flatMap (·.offered p)
    let released := (r.after es).release room session lead
    (r.after es).Parks p parked ∧ (r.after es).waiting queue = [] ∧
    (released.waiting queue = lead.toList ++ parked ∧ released.Flows p ↔ (lead.toList ++ parked).length ≤ capacity) ∧
    (capacity < (lead.toList ++ parked).length → lead.isSome ∧ parked.length = capacity ∧
      released.waiting queue = (lead.toList ++ parked).take capacity ∧ ¬ released.Sits p) := by
  intro p parked released
  have valid : Valid (({} : Registry φ).after earlier) := Valid.initial.after earlier
  obtain ⟨joined, seated⟩ := seated_newcomer valid absent joins
  obtain ⟨m, q, seated', sound, holds, same⟩ := seated.parks_after joined .newcomer rfl holding sits
  have receiving : q.receiving = true := by
    by_contra gone
    exact alive ⟨q, seated'.queue, Bool.eq_false_of_not_eq_true gone⟩
  obtain ⟨bound, empty⟩ := sound.parks m rfl _ holds
  obtain ⟨there, who, owns⟩ := seated'.member m rfl
  have outcome := seated'.released (joined.after es) sound holds receiving lead
  simp only [List.nil_append] at holds bound outcome
  obtain rfl : q.capacity = capacity := same
  refine ⟨⟨m, there, who, owns, holds⟩, seated'.waiting.trans empty, ?_, fun more => ?_⟩
  · rcases outcome with ⟨fits, all, flows⟩ | ⟨more, -, gone⟩
    · exact ⟨fun _ => fits, fun _ => ⟨all, flows⟩⟩
    · refine ⟨fun both => ?_, fun fits => absurd more (Nat.not_lt.mpr fits)⟩
      obtain ⟨n, stays, who, owns, -⟩ := both.2
      exact absurd ⟨n, stays, who, owns⟩ gone
  · rcases outcome with ⟨fits, -⟩ | ⟨-, some, gone⟩
    · exact absurd more (Nat.not_lt.mpr fits)
    · change parked.length ≤ q.capacity at bound
      rw [List.length_append] at more
      cases lead with
      | none =>
        rw [Option.toList_none, List.length_nil] at more
        omega
      | some frame =>
        rw [Option.toList_some, List.length_singleton] at more
        exact ⟨rfl, by omega, some, gone⟩

/-- A queue of two takes a lead and one frame that was parked. -/
theorem release_delivers_all_of_room :
    let room := ConversationId.dashboard
    let staff : Identity := ⟨⟨.ofNat 1⟩, .admin⟩
    let r : Registry Nat := (({} : Registry Nat).join room ⟨1⟩ staff 2 true).2
    let es : List (Event Nat) := [.command (.broadcast room 1)]
    let p : Place := ⟨room, ⟨1⟩, ⟨0⟩⟩
    ({} : Registry Nat).member? room ⟨1⟩ = none ∧ ({} : Registry Nat).join room ⟨1⟩ staff 2 true = (⟨0⟩, r) ∧
      (∀ e ∈ es, e.release? p = none) ∧ (r.after es).Sits p ∧ ¬ (r.after es).Gone ⟨0⟩ ∧ (r.after es).Parks p [1] ∧
      ((r.after es).release room ⟨1⟩ (some 10)).waiting ⟨0⟩ = [10, 1] ∧
      ((r.after es).release room ⟨1⟩ (some 10)).Flows p := by
  intro room staff r es p
  have absent : ({} : Registry Nat).member? room ⟨1⟩ = none := rfl
  have joins : ({} : Registry Nat).join room ⟨1⟩ staff 2 true = (⟨0⟩, r) := rfl
  have holding : ∀ e ∈ es, e.release? p = none := by simp [es, Event.release?]
  have sits : (r.after es).Sits p := ⟨⟨⟨1⟩, staff, ⟨0⟩, some [1]⟩, by decide +kernel, rfl, rfl⟩
  have alive : ¬ (r.after es).Gone ⟨0⟩ := by
    rintro ⟨q, known, gone⟩
    have receiving : ((r.after es).queue? ⟨0⟩).map (·.receiving) = some true := by decide +kernel
    rw [known] at receiving
    cases gone.symm.trans (Option.some.inj receiving)
  obtain ⟨parks, -, all, -⟩ :=
    release_delivers_all_iff [] es room ⟨1⟩ staff 2 ⟨0⟩ r absent joins holding sits alive (some 10)
  obtain ⟨waiting, flows⟩ := all.mpr (by decide)
  exact ⟨absent, joins, holding, sits, alive, parks, waiting, flows⟩

/-- A queue of one has parked a frame; the lead takes its place. -/
theorem release_loses_parked_frame :
    let room := ConversationId.dashboard
    let r : Registry Nat := (({} : Registry Nat).join room ⟨1⟩ ⟨⟨.ofNat 1⟩, .admin⟩ 1 true).2.broadcast room 1
    let p : Place := ⟨room, ⟨1⟩, ⟨0⟩⟩
    r.Parks p [1] ∧ r.queue? ⟨0⟩ = some ⟨1, [], true, true⟩ ∧
      (r.release room ⟨1⟩ (some 10)).queue? ⟨0⟩ = some ⟨1, [10], false, true⟩ ∧
      ¬ (r.release room ⟨1⟩ (some 10)).Sits p := by
  intro room r p
  have alone : (r.release room ⟨1⟩ (some 10)).members room = [] := by decide +kernel
  refine ⟨⟨⟨⟨1⟩, ⟨⟨.ofNat 1⟩, .admin⟩, ⟨0⟩, some [1]⟩, by decide +kernel, rfl, rfl, rfl⟩, by decide +kernel,
    by decide +kernel, ?_⟩
  rintro ⟨m, there, -⟩
  rw [alone] at there
  cases there

end HelpDesk.Registry
