import HelpDesk.Proofs.RegistryRequests

/-! What goes into a queue and what comes out of it. -/

namespace HelpDesk.Registry
variable {φ : Type} {r : Registry φ} {p : Place} {seat : Seat φ}

theorem Seated.waiting (seated : Seated r p seat) : r.waiting p.queue = seat.queue.waiting := by
  simp [Registry.waiting, seated.queue]

theorem Seated.added (valid : Valid r) (seated : Seated r p seat) (e : Event φ) :
    r.added p.queue e = (seat.next p e).queue.waiting.drop seat.queue.waiting.length := by
  rw [Registry.added, (seated.next valid e).waiting, seated.waiting]

theorem Seat.take_waiting (seat : Seat φ) (frame : φ) : seat.queue.waiting <+: (seat.take frame).queue.waiting := by
  obtain ⟨_ | m, queue⟩ := seat
  · exact List.prefix_refl _
  · simp only [take]
    split
    · split <;> exact List.prefix_refl _
    · cases pushed : queue.push? frame with
      | none => exact List.prefix_refl _
      | some longer =>
        simp only [Queue.push?, Option.ite_none_right_eq_some] at pushed
        obtain ⟨-, same⟩ := pushed
        cases same
        exact List.prefix_append _ _

theorem Seat.foldl_take_waiting (frames : List φ) (seat : Seat φ) :
    seat.queue.waiting <+: (frames.foldl take seat).queue.waiting := by
  induction frames generalizing seat with
  | nil => exact List.prefix_refl _
  | cons frame frames ih => exact (seat.take_waiting frame).trans (ih (seat.take frame))

theorem Command.effect_waiting (command : Command φ) (m : Member φ) (seat : Seat φ) :
    seat.queue.waiting <+: (command.effect m seat).queue.waiting := by
  cases command with
  | leave room session =>
    simp only [effect]
    split <;> exact List.prefix_refl _
  | broadcast room frame => exact seat.take_waiting frame
  | sendTo room session frame =>
    simp only [effect]
    split
    · exact seat.take_waiting frame
    · exact List.prefix_refl _
  | release room session lead =>
    simp only [effect]
    split
    · obtain ⟨_ | member, queue⟩ := seat
      · exact List.prefix_refl _
      · exact Seat.foldl_take_waiting (lead.toList ++ member.held.getD []) ⟨some { member with held := none }, queue⟩
    · exact List.prefix_refl _

theorem Seat.next_waiting (p : Place) (seat : Seat φ) (command : Command φ) :
    seat.queue.waiting <+: (seat.next p (.command command)).queue.waiting := by
  simp only [next]
  split
  · split
    · exact command.effect_waiting _ seat
    · exact List.prefix_refl _
  · exact List.prefix_refl _

theorem Queue.tail_of_receive (queue : Queue φ) : queue.receive.2.waiting = queue.waiting.tail := by
  obtain ⟨capacity, _ | ⟨frame, rest⟩, sending, receiving⟩ := queue <;> rfl

/-- What is in a queue or is put there is taken out or is still there, in order, unless the receiver goes away. -/
theorem Seated.conserved (valid : Valid r) (seated : Seated r p seat) (e : Event φ)
    (kept : e ≠ .endReceiving p.queue) :
    r.waiting p.queue ++ r.added p.queue e = r.taken p.queue e ++ (r.next e).waiting p.queue := by
  rw [seated.added valid e, (seated.next valid e).waiting, seated.waiting]
  have idle : seat.queue.waiting ++ seat.queue.waiting.drop seat.queue.waiting.length = [] ++ seat.queue.waiting := by
    rw [List.drop_length, List.append_nil, List.nil_append]
  cases e with
  | join room session identity capacity holding => exact idle
  | command command =>
    obtain ⟨more, longer⟩ := seat.next_waiting p command
    rw [← longer, List.drop_left]
    rfl
  | receive id =>
    by_cases own : id = p.queue
    · subst own
      simp only [Seat.next, taken, if_true, Queue.tail_of_receive, seated.waiting]
      rw [List.drop_eq_nil_of_le (by rw [List.length_tail]; omega), List.append_nil, ← List.drop_one,
        List.take_append_drop]
    · simp only [Seat.next, taken, own, if_false]
      exact idle
  | endReceiving id =>
    have own : id ≠ p.queue := fun same => kept (congrArg _ same)
    simp only [Seat.next, taken, own, if_false]
    exact idle

theorem Seated.put_eq (valid : Valid r) (seated : Seated r p seat) (es : List (Event φ))
    (kept : .endReceiving p.queue ∉ es) :
    r.waiting p.queue ++ Registry.put p.queue r es = received p.queue r es ++ (r.after es).waiting p.queue := by
  induction es generalizing r seat with
  | nil => simp [Registry.put, received]
  | cons e es ih =>
    have first : e ≠ .endReceiving p.queue := fun same => kept (same ▸ List.mem_cons_self)
    have later := ih (valid.next e) (seated.next valid e) fun there => kept (List.mem_cons_of_mem e there)
    calc r.waiting p.queue ++ Registry.put p.queue r (e :: es)
        = (r.waiting p.queue ++ r.added p.queue e) ++ Registry.put p.queue (r.next e) es :=
          (List.append_assoc _ _ _).symm
      _ = r.taken p.queue e ++ ((r.next e).waiting p.queue ++ Registry.put p.queue (r.next e) es) := by
          rw [seated.conserved valid e first, List.append_assoc]
      _ = received p.queue r (e :: es) ++ (r.after (e :: es)).waiting p.queue := by
          rw [later, received, after_cons, List.append_assoc]

/-- The receiver is gone, and what waited with it. -/
def Abandoned (queue : Queue φ) : Prop :=
  queue.receiving = false ∧ queue.waiting = []

theorem Seat.take_abandoned {seat : Seat φ} (gone : Abandoned seat.queue) (frame : φ) :
    Abandoned (seat.take frame).queue := by
  obtain ⟨_ | m, queue⟩ := seat
  · exact gone
  · have refused : queue.push? frame = none := by
      have receiving : queue.receiving = false := gone.1
      simp [Queue.push?, receiving]
    simp only [take, refused]
    split
    · split <;> exact gone
    · exact gone

theorem Seat.foldl_take_abandoned (frames : List φ) {seat : Seat φ} (gone : Abandoned seat.queue) :
    Abandoned (frames.foldl take seat).queue := by
  induction frames generalizing seat with
  | nil => exact gone
  | cons frame frames ih => exact ih (Seat.take_abandoned gone frame)

theorem Command.effect_abandoned (command : Command φ) (m : Member φ) {seat : Seat φ} (gone : Abandoned seat.queue) :
    Abandoned (command.effect m seat).queue := by
  cases command with
  | leave room session =>
    simp only [effect]
    split <;> exact gone
  | broadcast room frame => exact Seat.take_abandoned gone frame
  | sendTo room session frame =>
    simp only [effect]
    split
    · exact Seat.take_abandoned gone frame
    · exact gone
  | release room session lead =>
    simp only [effect]
    split
    · obtain ⟨_ | member, queue⟩ := seat
      · exact gone
      · exact @Seat.foldl_take_abandoned _ (lead.toList ++ member.held.getD []) ⟨some { member with held := none }, queue⟩
          gone
    · exact gone

theorem Seat.next_abandoned {seat : Seat φ} (gone : Abandoned seat.queue) (e : Event φ) :
    Abandoned (seat.next p e).queue := by
  cases e with
  | join room session identity capacity holding => exact gone
  | command command =>
    simp only [next]
    split
    · split
      · exact command.effect_abandoned _ gone
      · exact gone
    · exact gone
  | receive id =>
    simp only [next]
    split
    · simpa [Abandoned, Queue.receive, gone.2] using gone
    · exact gone
  | endReceiving id =>
    simp only [next]
    split
    · exact ⟨rfl, rfl⟩
    · exact gone

theorem Seated.received_of_abandoned (valid : Valid r) (seated : Seated r p seat) (gone : Abandoned seat.queue)
    (es : List (Event φ)) : received p.queue r es = [] := by
  induction es generalizing r seat with
  | nil => rfl
  | cons e es ih =>
    have nothing : r.taken p.queue e = [] := by
      cases e with
      | receive id => simp [taken, seated.waiting, gone.2]
      | join | command | endReceiving => rfl
    rw [received, nothing, ih (valid.next e) (seated.next valid e) (Seat.next_abandoned gone e)]
    rfl

/-- Whatever happens, what is received is what was in the queue or was put there, in that order, up to some frame. -/
theorem Seated.received_prefix (valid : Valid r) (seated : Seated r p seat) (es : List (Event φ)) :
    received p.queue r es <+: r.waiting p.queue ++ Registry.put p.queue r es := by
  induction es generalizing r seat with
  | nil => exact List.nil_prefix
  | cons e es ih =>
    have next := seated.next valid e
    rw [received, Registry.put]
    by_cases ends : e = .endReceiving p.queue
    · have gone : Abandoned (seat.next p e).queue := by
        rw [ends]
        simp [Seat.next, Queue.endReceiving, Abandoned]
      have nothing : r.taken p.queue e = [] := by
        rw [ends]
        rfl
      rw [nothing, next.received_of_abandoned (valid.next e) gone]
      exact List.nil_prefix
    · rw [← List.append_assoc, seated.conserved valid e ends, List.append_assoc]
      exact (List.prefix_append_right_inj _).mpr (ih (valid.next e) next)

/-- Receiving once for each frame that waits empties a queue. -/
theorem Seated.drained (valid : Valid r) (seated : Seated r p seat) (n : Nat) :
    Registry.put p.queue r (List.replicate n (.receive p.queue)) = [] ∧
      (r.after (List.replicate n (.receive p.queue))).waiting p.queue = (r.waiting p.queue).drop n := by
  induction n generalizing r seat with
  | zero => exact ⟨rfl, rfl⟩
  | succ n ih =>
    have next := seated.next valid (.receive p.queue)
    have added := seated.added valid (.receive p.queue)
    have waiting := next.waiting
    simp only [Seat.next, if_true, Queue.tail_of_receive] at added waiting
    rw [List.drop_eq_nil_of_le (by rw [List.length_tail]; omega)] at added
    obtain ⟨put, left⟩ := ih (valid.next _) next
    rw [List.replicate_succ]
    refine ⟨?_, ?_⟩
    · rw [Registry.put, added, put]
      rfl
    · rw [after_cons, left, waiting, seated.waiting, ← List.drop_one, List.drop_drop, Nat.add_comm]

theorem put_append (queue : QueueId) (r : Registry φ) (first last : List (Event φ)) :
    put queue r (first ++ last) = put queue r first ++ put queue (r.after first) last := by
  induction first generalizing r with
  | nil => rfl
  | cons e first ih =>
    rw [List.cons_append, put, put, ih, after_cons, List.append_assoc]

end HelpDesk.Registry
