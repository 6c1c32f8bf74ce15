import HelpDesk.Proofs.RegistrySeats
import Mathlib.Data.List.Nodup

/-! Every event does to each seat what the seat alone tells. -/

namespace HelpDesk.Registry
variable {φ : Type} {r r' : Registry φ}

theorem member?_eq_none_iff {room : ConversationId} {session : SessionId} :
    r.member? room session = none ↔ ∀ m ∈ r.members room, m.session ≠ session := by
  simp [member?, List.find?_eq_none]

theorem member?_some {room : ConversationId} {session : SessionId} {m : Member φ}
    (found : r.member? room session = some m) : m ∈ r.members room ∧ m.session = session := by
  refine ⟨List.mem_of_find?_eq_some found, ?_⟩
  simpa using List.find?_some found

theorem Valid.eq_of_session (valid : Valid r) {room : ConversationId} {m n : Member φ} (left : m ∈ r.members room)
    (right : n ∈ r.members room) (same : m.session = n.session) : m = n :=
  List.inj_on_of_nodup_map (valid.sessions room) left right same

theorem Valid.eq_of_queue (valid : Valid r) {room : ConversationId} {m n : Member φ} (left : m ∈ r.members room)
    (right : n ∈ r.members room) (same : m.queue = n.queue) : m = n :=
  List.inj_on_of_nodup_map (valid.queues room) left right same

/-- The session that a request is to, unless it is to a whole room. -/
def Command.session? : Command φ → Option SessionId
  | leave _ session | sendTo _ session _ | release _ session _ => some session
  | broadcast _ _ => none

theorem Command.effect_of_ne {command : Command φ} {session : SessionId} (addressed : command.session? = some session)
    {m : Member φ} (apart : m.session ≠ session) (seat : Seat φ) : command.effect m seat = seat := by
  cases command <;> cases addressed <;> simp [effect, apart]

theorem acts_of_absent {command : Command φ} {session : SessionId} (valid : Valid r)
    (addressed : command.session? = some session) (absent : r.member? command.room session = none) :
    Acts r r command := by
  have idle (m : Member φ) (there : m ∈ r.members command.room) (queue : Queue φ) :
      command.effect m ⟨some m, queue⟩ = ⟨some m, queue⟩ :=
    Command.effect_of_ne addressed (member?_eq_none_iff.mp absent m there) _
  refine ⟨?_, ?_, fun _ _ => rfl, fun _ _ => rfl⟩
  · symm
    refine Eq.trans (List.filterMap_congr ?_) List.filterMap_some
    intro m there
    obtain ⟨queue, known⟩ := valid.known _ m there
    simp [known, idle m there]
  · intro m there queue known
    rw [known, idle m there]

section Addressed
variable {command : Command φ} {m : Member φ} {queue : Queue φ}

/-- A request to one session changes that member and its queue, and nothing else. -/
theorem acts_of_one (valid : Valid r) (there : m ∈ r.members command.room) (known : r.queue? m.queue = some queue)
    (addressed : command.session? = some m.session)
    (here : r'.members command.room = (r.members command.room).filterMap fun n =>
      if n.session = m.session then (command.effect m ⟨some m, queue⟩).member else some n)
    (elsewhere : ∀ room, room ≠ command.room → r'.members room = r.members room)
    (own : r'.queue? m.queue = some (command.effect m ⟨some m, queue⟩).queue)
    (others : ∀ id, id ≠ m.queue → r'.queue? id = r.queue? id) : Acts r r' command := by
  refine ⟨?_, ?_, elsewhere, fun id apart => others id (apart m there).symm⟩
  · rw [here]
    apply List.filterMap_congr
    intro n member
    by_cases same : n.session = m.session
    · rw [valid.eq_of_session member there same, known]
      simp
    · obtain ⟨queue', known'⟩ := valid.known _ n member
      simp [same, known', Command.effect_of_ne addressed same]
  · intro n member queue' known'
    by_cases same : n.session = m.session
    · cases valid.eq_of_session member there same
      cases known.symm.trans known'
      exact own
    · have apart : n.queue ≠ m.queue := fun equal => same (valid.eq_of_queue member there equal ▸ rfl)
      rw [others _ apart, Command.effect_of_ne addressed same, known']

/-- A request that has changed at most the member and its queue, and then removes the member. -/
theorem acts_of_leave {changed : Queue φ} {n : Member φ} (valid : Valid r) (there : m ∈ r.members command.room)
    (known : r.queue? m.queue = some queue) (addressed : command.session? = some m.session)
    (gone : command.effect m ⟨some m, queue⟩ = Seat.vacate ⟨some m, changed⟩)
    (found : r'.member? command.room m.session = some n) (same : n.queue = m.queue)
    (here : (r'.members command.room).filter (·.session != m.session) =
      (r.members command.room).filter (·.session != m.session))
    (elsewhere : ∀ room, room ≠ command.room → r'.members room = r.members room)
    (own : r'.queue? m.queue = some changed) (others : ∀ id, id ≠ m.queue → r'.queue? id = r.queue? id) :
    Acts r (r'.leave command.room m.session) command := by
  simp only [leave, found, same, here]
  refine acts_of_one valid there known addressed ?_ ?_ ?_ ?_
  · rw [members_modifyQueue, members_setMembers_self, gone, ← List.filterMap_eq_filter]
    apply List.filterMap_congr
    intro n _
    by_cases equal : n.session = m.session <;> simp [equal, Option.guard, Seat.vacate]
  · intro room apart
    exact (members_setMembers_of_ne _ _ apart).trans (elsewhere room apart)
  · simp [queue?_modifyQueue, own, gone, Seat.vacate]
  · intro id apart
    simp [queue?_modifyQueue, apart, others id apart]

end Addressed

theorem leave_acts (valid : Valid r) (room : ConversationId) (session : SessionId) :
    Acts r (r.leave room session) (.leave room session) := by
  cases found : r.member? room session with
  | none =>
    simp only [leave, found]
    exact acts_of_absent valid rfl found
  | some m =>
    obtain ⟨there, rfl⟩ := member?_some found
    obtain ⟨queue, known⟩ := valid.known room m there
    have gone : Command.effect m ⟨some m, queue⟩ (.leave room m.session) = Seat.vacate ⟨some m, queue⟩ := by
      simp [Command.effect]
    exact acts_of_leave valid there known rfl gone found rfl rfl (fun _ _ => rfl) known fun _ _ => rfl

theorem set_of_known {queues : List (Queue φ)} {n : Nat} {queue : Queue φ} (known : queues[n]? = some queue) :
    queues.set n queue = queues := by
  obtain ⟨bound, value⟩ := List.getElem?_eq_some_iff.mp known
  rw [← value, List.set_getElem_self]

/-- What is said of an offer to a member, if one looks at the member's seat only. -/
theorem offer?_eq {queues : List (Queue φ)} {m : Member φ} {queue : Queue φ} (frame : φ)
    (known : queues[m.queue.number]? = some queue) :
    offer? queues m frame = ((Seat.mk (some m) queue).take frame).member.map fun taker =>
      (taker, queues.set m.queue.number ((Seat.mk (some m) queue).take frame).queue) := by
  simp only [offer?, known, Seat.take]
  cases m.held with
  | some held =>
    by_cases room : held.length < queue.capacity <;> simp [room, set_of_known known, Seat.vacate]
  | none => cases queue.push? frame <;> simp [Seat.vacate]

theorem Seat.take_vacant {m : Member φ} {queue : Queue φ} {frame : φ}
    (refused : ((Seat.mk (some m) queue).take frame).member = none) :
    (Seat.mk (some m) queue).take frame = Seat.vacate ⟨some m, queue⟩ := by
  cases parked : m.held with
  | some held =>
    by_cases room : held.length < queue.capacity
    · simp [take, parked, room] at refused
    · simp [take, parked, room]
  | none =>
    cases pushed : queue.push? frame with
    | some longer => simp [take, parked, pushed] at refused
    | none => simp [take, parked, pushed]

theorem queue?_set {queues : List (Queue φ)} {queue : Queue φ} {id : QueueId} (known : queues[id.number]? = some queue)
    (rooms : List (Room φ)) (changed : Queue φ) (other : QueueId) :
    (Registry.mk rooms (queues.set id.number changed)).queue? other =
      if other = id then some changed else queues[other.number]? := by
  obtain ⟨bound, -⟩ := List.getElem?_eq_some_iff.mp known
  simp only [queue?]
  by_cases same : other = id
  · subst same
    simp [bound]
  · have apart : id.number ≠ other.number := fun equal => same (congrArg QueueId.mk equal.symm)
    simp [same, apart]

theorem offerAll_cons {queues : List (Queue φ)} {m : Member φ} {queue : Queue φ} {frame : φ} {seat : Seat φ}
    (ms : List (Member φ)) (known : queues[m.queue.number]? = some queue)
    (taken : (Seat.mk (some m) queue).take frame = seat) :
    offerAll frame queues (m :: ms) =
      (seat.member.toList ++ (offerAll frame (queues.set m.queue.number seat.queue) ms).1,
        (offerAll frame (queues.set m.queue.number seat.queue) ms).2) := by
  simp only [offerAll, offer?_eq frame known, taken]
  obtain ⟨_ | taker, changed⟩ := seat
  · have ended := (Seat.take_vacant (congrArg Seat.member taken)).symm.trans taken
    cases ended
    simp [List.modify_eq_set_getElem?, known]
  · simp

/-- Every member is offered the frame, with its own queue as it was: no two of them share one. -/
theorem offerAll_spec (frame : φ) (ms : List (Member φ)) (queues : List (Queue φ))
    (distinct : (ms.map (·.queue)).Nodup) (known : ∀ m ∈ ms, ∃ queue, queues[m.queue.number]? = some queue) :
    (offerAll frame queues ms).1 = (ms.filterMap fun m =>
      queues[m.queue.number]?.bind fun queue => ((Seat.mk (some m) queue).take frame).member) ∧
    (∀ m ∈ ms, ∀ queue, queues[m.queue.number]? = some queue →
      (offerAll frame queues ms).2[m.queue.number]? = some ((Seat.mk (some m) queue).take frame).queue) ∧
    ∀ id : QueueId, (∀ m ∈ ms, m.queue ≠ id) → (offerAll frame queues ms).2[id.number]? = queues[id.number]? := by
  induction ms generalizing queues with
  | nil => exact ⟨rfl, fun m there => absurd there List.not_mem_nil, fun _ _ => rfl⟩
  | cons m ms ih =>
    obtain ⟨queue, here⟩ := known m List.mem_cons_self
    obtain ⟨fresh, distinct⟩ := List.nodup_cons.mp distinct
    have apart : ∀ n ∈ ms, n.queue ≠ m.queue := fun n there same => fresh (List.mem_map.mpr ⟨n, there, same⟩)
    obtain ⟨seat, taken⟩ : ∃ seat, (Seat.mk (some m) queue).take frame = seat := ⟨_, rfl⟩
    have unchanged (n : Member φ) (there : n ∈ ms) :
        (queues.set m.queue.number seat.queue)[n.queue.number]? = queues[n.queue.number]? :=
      (queue?_set here [] seat.queue n.queue).trans (if_neg (apart n there))
    obtain ⟨members, owned, others⟩ := ih (queues.set m.queue.number seat.queue) distinct fun n there => by
      rw [unchanged n there]
      exact known n (List.mem_cons_of_mem m there)
    rw [offerAll_cons ms here taken]
    refine ⟨?_, ?_, ?_⟩
    · simp only [members, List.filterMap_cons, here, Option.bind_some, taken]
      rw [List.filterMap_congr fun n there => congrArg (Option.bind · _) (unchanged n there)]
      cases seat.member <;> rfl
    · intro n there queue' known'
      rcases List.mem_cons.mp there with rfl | there
      · cases here.symm.trans known'
        rw [taken]
        exact (others n.queue apart).trans ((queue?_set here [] seat.queue n.queue).trans (if_pos rfl))
      · exact owned n there queue' ((unchanged n there).trans known')
    · intro id absent
      apply (others id fun n there => absent n (List.mem_cons_of_mem m there)).trans
      exact (queue?_set here [] seat.queue id).trans (if_neg (absent m List.mem_cons_self).symm)

theorem broadcast_acts (valid : Valid r) (room : ConversationId) (frame : φ) :
    Acts r (r.broadcast room frame) (.broadcast room frame) := by
  obtain ⟨members, owned, others⟩ := offerAll_spec frame (r.members room) r.queues (valid.queues room) (valid.known room)
  refine ⟨?_, owned, ?_, others⟩
  · simp only [Command.room, broadcast, members_setMembers_self, members]
    rfl
  · intro other apart
    exact members_setMembers_of_ne _ _ apart

theorem members_putMember (r : Registry φ) (room : ConversationId) (m : Member φ) :
    (r.putMember room m).members room =
      (r.members room).filterMap fun n => if n.session = m.session then some m else some n := by
  rw [putMember, members_setMembers_self, ← List.filterMap_eq_map]
  apply List.filterMap_congr
  intro n _
  by_cases same : n.session = m.session <;> simp [same]

theorem sendTo_acts (valid : Valid r) (room : ConversationId) (session : SessionId) (frame : φ) :
    Acts r (r.sendTo room session frame) (.sendTo room session frame) := by
  cases found : r.member? room session with
  | none =>
    simp only [sendTo, found]
    exact acts_of_absent valid rfl found
  | some m =>
    obtain ⟨there, rfl⟩ := member?_some found
    obtain ⟨queue, known⟩ := valid.known room m there
    have effect : Command.effect m ⟨some m, queue⟩ (.sendTo room m.session frame) =
        (Seat.mk (some m) queue).take frame := by simp [Command.effect]
    rcases taken : (Seat.mk (some m) queue).take frame with ⟨_ | taker, changed⟩
    · simp only [sendTo, found, offer?_eq frame known, taken, Option.map_none]
      have gone := effect.trans (Seat.take_vacant (congrArg Seat.member taken))
      exact acts_of_leave valid there known rfl gone found rfl rfl (fun _ _ => rfl) known fun _ _ => rfl
    · simp only [sendTo, found, offer?_eq frame known, taken, Option.map_some]
      have keys := Seat.take_member (congrArg Seat.member taken)
      refine acts_of_one valid there known rfl ?_ ?_ ?_ ?_
      · simp only [Command.room, effect, taken, members_putMember, keys.session]
        rfl
      · intro other apart
        exact members_setMembers_of_ne _ _ apart
      · rw [effect, taken]
        exact (queue?_set known _ changed m.queue).trans (if_pos rfl)
      · intro id apart
        exact (queue?_set known _ changed id).trans (if_neg apart)

/-- Frames offered to a member that holds nothing, one after the other until one is not taken. -/
theorem offerEach_spec {m : Member φ} (free : m.held = none) (frames : List φ) (queues : List (Queue φ))
    (queue : Queue φ) (known : queues[m.queue.number]? = some queue) :
    ∃ changed,
      (frames.foldl Seat.take ⟨some m, queue⟩ = ⟨some m, changed⟩ ∧
        offerEach m queues frames = (true, queues.set m.queue.number changed)) ∨
      (frames.foldl Seat.take ⟨some m, queue⟩ = Seat.vacate ⟨some m, changed⟩ ∧
        offerEach m queues frames = (false, queues.set m.queue.number changed)) := by
  induction frames generalizing queues queue with
  | nil =>
    refine ⟨queue, .inl ⟨rfl, ?_⟩⟩
    rw [set_of_known known]
    rfl
  | cons frame frames ih =>
    rw [List.foldl_cons, offerEach, offer?_eq frame known]
    obtain ⟨bound, -⟩ := List.getElem?_eq_some_iff.mp known
    cases pushed : queue.push? frame with
    | some longer =>
      have taken : (Seat.mk (some m) queue).take frame = ⟨some m, longer⟩ := by simp [Seat.take, free, pushed]
      simpa [taken] using ih (queues.set m.queue.number longer) longer (by simp [bound])
    | none =>
      have refused : (Seat.mk (some m) queue).take frame = Seat.vacate ⟨some m, queue⟩ := by
        simp [Seat.take, free, pushed]
      refine ⟨queue, .inr ⟨?_, ?_⟩⟩
      · rw [refused]
        exact Seat.foldl_take_vacant _ _
      · simp [refused, Seat.vacate, set_of_known known]

theorem member?_putMember {room : ConversationId} {m n : Member φ} (found : r.member? room m.session = some n) :
    (r.putMember room m).member? room m.session = some m := by
  have key : (fun n : Member φ => (if n.session == m.session then m else n).session == m.session) =
      fun n => n.session == m.session := by
    funext n
    by_cases same : n.session = m.session <;> simp [same]
  simp only [member?, putMember, members_setMembers_self, List.find?_map, Function.comp_def, key]
  rw [show (r.members room).find? (·.session == m.session) = some n from found]
  simp [(member?_some found).2]

theorem release_acts (valid : Valid r) (room : ConversationId) (session : SessionId) (lead : Option φ) :
    Acts r (r.release room session lead) (.release room session lead) := by
  cases found : r.member? room session with
  | none =>
    simp only [release, found]
    exact acts_of_absent valid rfl found
  | some m =>
    obtain ⟨there, rfl⟩ := member?_some found
    obtain ⟨queue, known⟩ := valid.known room m there
    have effect : Command.effect m ⟨some m, queue⟩ (.release room m.session lead) =
        (lead.toList ++ m.held.getD []).foldl Seat.take ⟨some { m with held := none }, queue⟩ := by
      simp [Command.effect, Seat.release]
    obtain ⟨changed, ⟨taken, each⟩ | ⟨taken, each⟩⟩ :=
      offerEach_spec (m := { m with held := none }) rfl (lead.toList ++ m.held.getD []) r.queues queue known
    · simp only [release, found, each, if_true]
      refine acts_of_one valid there known rfl ?_ ?_ ?_ ?_
      · simp only [Command.room, effect, taken, members_putMember]
        rfl
      · intro other apart
        exact members_setMembers_of_ne _ _ apart
      · rw [effect, taken]
        exact (queue?_set known _ changed m.queue).trans (if_pos rfl)
      · intro id apart
        exact (queue?_set known _ changed id).trans (if_neg apart)
    · simp only [release, found, each, Bool.false_eq_true, if_false]
      have still := member?_putMember (r := { r with queues := r.queues.set m.queue.number changed })
        (m := { m with held := none }) found
      refine acts_of_leave valid there known rfl (effect.trans taken) still rfl ?_ ?_ ?_ ?_
      · simp only [Command.room, members_putMember, List.filter_filterMap]
        rw [← List.filterMap_eq_filter]
        apply List.filterMap_congr
        intro n _
        by_cases same : n.session = m.session <;> simp [same, Option.filter, Option.guard]
      · intro other apart
        exact members_setMembers_of_ne _ _ apart
      · exact (queue?_set known _ changed m.queue).trans (if_pos rfl)
      · intro id apart
        exact (queue?_set known _ changed id).trans (if_neg apart)

theorem apply_acts (valid : Valid r) (command : Command φ) : Acts r (r.apply command) command := by
  cases command with
  | leave room session => exact leave_acts valid room session
  | broadcast room frame => exact broadcast_acts valid room frame
  | sendTo room session frame => exact sendTo_acts valid room session frame
  | release room session lead => exact release_acts valid room session lead

theorem queue?_newQueue (r : Registry φ) (capacity : Nat) (id : QueueId) :
    (r.newQueue capacity).2.queue? id =
      if id = (r.newQueue capacity).1 then some ⟨capacity, [], true, true⟩ else r.queue? id := by
  obtain ⟨number⟩ := id
  simp only [newQueue, queue?, QueueId.mk.injEq]
  by_cases same : number = r.queues.length
  · simp [same]
  · simp only [same, if_false]
    rcases Nat.lt_or_gt_of_ne same with below | beyond
    · exact List.getElem?_append_left below
    · rw [List.getElem?_eq_none (by simp; omega), List.getElem?_eq_none (by omega)]

theorem not_new {id : QueueId} {queue : Queue φ} (known : r.queue? id = some queue) (capacity : Nat) :
    id ≠ (r.newQueue capacity).1 := by
  rintro rfl
  simp [newQueue, queue?] at known

section Join
variable {room : ConversationId} {session : SessionId} {identity : Identity} {capacity : Nat} {holding : Bool}

def newcomer (r : Registry φ) (session : SessionId) (identity : Identity) (capacity : Nat) (holding : Bool) : Member φ :=
  ⟨session, identity, (r.newQueue capacity).1, if holding then some [] else none⟩

theorem join_absent (absent : r.member? room session = none) :
    r.join room session identity capacity holding =
      ((r.newQueue capacity).1, (r.newQueue capacity).2.setMembers room
        (r.members room ++ [r.newcomer session identity capacity holding])) := by
  have absent' : (r.newQueue capacity).2.member? room session = none := absent
  simp only [join, absent']
  rfl

theorem join_present {m : Member φ} (present : r.member? room session = some m) :
    r.join room session identity capacity holding =
      ((r.newQueue capacity).1, (r.newQueue capacity).2.modifyQueue (r.newQueue capacity).1 .endSending) := by
  have present' : (r.newQueue capacity).2.member? room session = some m := present
  simp only [join, present']

theorem queue?_join {id : QueueId} {queue : Queue φ} (known : r.queue? id = some queue) :
    (r.join room session identity capacity holding).2.queue? id = some queue := by
  have old := not_new known capacity
  cases found : r.member? room session with
  | none => rw [join_absent found, queue?_setMembers, queue?_newQueue, if_neg old, known]
  | some m => rw [join_present found, queue?_modifyQueue, if_neg old, queue?_newQueue, if_neg old, known]

theorem mem_join {other : ConversationId} {m : Member φ} :
    m ∈ (r.join room session identity capacity holding).2.members other ↔
      m ∈ r.members other ∨ other = room ∧ r.member? room session = none ∧
        m = r.newcomer session identity capacity holding := by
  cases found : r.member? room session with
  | none =>
    rw [join_absent found, members_setMembers]
    by_cases here : other = room
    · subst here
      simp
    · simp only [here, if_false, false_and, or_false]
      rfl
  | some n =>
    rw [join_present found, members_modifyQueue]
    simp only [reduceCtorEq, false_and, and_false, or_false]
    rfl

theorem Valid.join (valid : Valid r) : Valid (r.join room session identity capacity holding).2 := by
  have keys {κ : Type} (key : Member φ → κ) (other : ConversationId)
      (distinct : ((r.members other).map key).Nodup)
      (fresh : other = room → r.member? room session = none →
        ∀ m ∈ r.members other, key m ≠ key (r.newcomer session identity capacity holding)) :
      (((r.join room session identity capacity holding).2.members other).map key).Nodup := by
    cases found : r.member? room session with
    | none =>
      rw [join_absent found, members_setMembers]
      by_cases here : other = room
      · subst here
        rw [if_pos rfl, List.map_append, List.map_singleton]
        apply List.Nodup.append distinct (List.nodup_singleton _)
        intro k left right
        obtain ⟨m, there, rfl⟩ := List.mem_map.mp left
        exact fresh rfl found m there (List.mem_singleton.mp right)
      · rw [if_neg here]
        exact distinct
    | some n =>
      rw [join_present found, members_modifyQueue]
      exact distinct
  refine ⟨fun other => ?_, fun other => ?_, ?_⟩
  · apply keys _ other (valid.sessions other)
    rintro rfl absent m there
    exact member?_eq_none_iff.mp absent m there
  · apply keys _ other (valid.queues other)
    intro _ _ m there
    obtain ⟨queue, known⟩ := valid.known other m there
    exact not_new known capacity
  · intro other m there
    rcases mem_join.mp there with there | ⟨rfl, absent, rfl⟩
    · obtain ⟨queue, known⟩ := valid.known other m there
      exact ⟨queue, queue?_join known⟩
    · rw [join_absent absent, queue?_setMembers, queue?_newQueue]
      exact ⟨_, if_pos rfl⟩

theorem Seated.join {p : Place} {seat : Seat φ} (seated : Seated r p seat) :
    Seated (r.join room session identity capacity holding).2 p seat := by
  refine seated.of_same seat.queue (queue?_join seated.queue) ?_
  intro other m same
  rw [mem_join]
  constructor
  · rintro (there | ⟨-, -, rfl⟩)
    · exact there
    · exact absurd same.symm (not_new seated.queue capacity)
  · exact .inl

theorem seated_of_join (valid : Valid r) (absent : r.member? room session = none) :
    Seated (r.join room session identity capacity holding).2
      ⟨room, session, (r.join room session identity capacity holding).1⟩
      ⟨some (r.newcomer session identity capacity holding), ⟨capacity, [], true, true⟩⟩ := by
  refine ⟨?_, ?_, ?_⟩
  · rw [join_absent absent, queue?_setMembers, queue?_newQueue]
    exact if_pos rfl
  · intro m same
    cases same
    refine ⟨mem_join.mpr (.inr ⟨rfl, absent, rfl⟩), rfl, ?_⟩
    rw [join_absent absent]
    rfl
  · intro other m there same
    rw [join_absent absent] at same
    rcases mem_join.mp there with there | ⟨rfl, -, rfl⟩
    · obtain ⟨queue, known⟩ := valid.known other m there
      exact absurd same (not_new known capacity)
    · exact ⟨rfl, rfl⟩

end Join

theorem queue?_receive (r : Registry φ) (id other : QueueId) :
    (r.receive id).2.queue? other = if other = id then (r.queue? id).map (·.receive.2) else r.queue? other := by
  cases found : r.queue? id with
  | none =>
    simp only [receive, found]
    by_cases same : other = id
    · simp [same, found]
    · simp [same]
  | some queue =>
    simp only [receive, found]
    exact queue?_set found r.rooms queue.receive.2 other

theorem members_receive (r : Registry φ) (id : QueueId) (room : ConversationId) :
    (r.receive id).2.members room = r.members room := by
  simp only [receive]
  cases r.queue? id <;> rfl

theorem Valid.of_same (valid : Valid r) (members : ∀ room, r'.members room = r.members room)
    (queues : ∀ id queue, r.queue? id = some queue → ∃ changed, r'.queue? id = some changed) : Valid r' := by
  refine ⟨fun room => ?_, fun room => ?_, fun room m there => ?_⟩
  · rw [members]
    exact valid.sessions room
  · rw [members]
    exact valid.queues room
  · rw [members] at there
    obtain ⟨queue, known⟩ := valid.known room m there
    exact queues _ queue known

theorem Valid.next (valid : Valid r) (e : Event φ) : Valid (r.next e) := by
  cases e with
  | join room session identity capacity holding => exact valid.join
  | command command => exact (apply_acts valid command).valid valid
  | receive id =>
    refine valid.of_same (members_receive r id) fun other queue known => ?_
    rw [Registry.next, queue?_receive, known]
    by_cases same : other = id
    · rw [← same, known]
      exact ⟨_, if_pos rfl⟩
    · exact ⟨queue, if_neg same⟩
  | endReceiving id =>
    refine valid.of_same (fun _ => rfl) fun other queue known => ?_
    rw [Registry.next, endReceiving, queue?_modifyQueue, known]
    by_cases same : other = id
    · exact ⟨_, if_pos same⟩
    · exact ⟨queue, if_neg same⟩

theorem Valid.initial : Valid ({} : Registry φ) := by
  refine ⟨fun _ => List.nodup_nil, fun _ => List.nodup_nil, fun room m there => ?_⟩
  cases there

theorem Valid.after (valid : Valid r) (es : List (Event φ)) : Valid (r.after es) := by
  induction es generalizing r with
  | nil => exact valid
  | cons e es ih => exact ih (valid.next e)

/-- What an event does to a seat depends on nothing but the seat. -/
theorem Seated.next (valid : Valid r) {p : Place} {seat : Seat φ} (seated : Seated r p seat) (e : Event φ) :
    Seated (r.next e) p (seat.next p e) := by
  cases e with
  | join room session identity capacity holding => exact seated.join
  | command command => exact (apply_acts valid command).seated seated
  | receive id =>
    have found := queue?_receive r id p.queue
    have kept (room : ConversationId) (m : Member φ) (_ : m.queue = p.queue) :
        m ∈ (r.receive id).2.members room ↔ m ∈ r.members room := by
      rw [members_receive]
    by_cases same : id = p.queue
    · subst same
      rw [seated.queue] at found
      simp only [Seat.next, if_true]
      exact seated.of_same _ (found.trans (if_pos rfl)) kept
    · simp only [Seat.next, same, if_false]
      exact seated.of_same seat.queue (found.trans ((if_neg (Ne.symm same)).trans seated.queue)) kept
  | endReceiving id =>
    have found := queue?_modifyQueue r id p.queue .endReceiving
    rw [seated.queue] at found
    by_cases same : id = p.queue
    · subst same
      simp only [Seat.next, if_true]
      exact seated.of_same _ (found.trans (if_pos rfl)) fun _ _ _ => Iff.rfl
    · simp only [Seat.next, same, if_false]
      exact seated.of_same seat.queue (found.trans (if_neg (Ne.symm same))) fun _ _ _ => Iff.rfl

theorem Seated.after (valid : Valid r) {p : Place} {seat : Seat φ} (seated : Seated r p seat) (es : List (Event φ)) :
    Seated (r.after es) p (es.foldl (Seat.next p) seat) := by
  induction es generalizing r seat with
  | nil => exact seated
  | cons e es ih => exact ih (valid.next e) (seated.next valid e)

/-- Whoever is in a room after an event was in it before, whatever it held then, or has just joined. -/
theorem mem_next (valid : Valid r) {e : Event φ} {room : ConversationId} {left : Member φ}
    (there : left ∈ (r.next e).members room) : (∃ m ∈ r.members room, Keeps m left) ∨
      ∃ capacity holding, e = .join room left.session left.identity capacity holding ∧
        left = r.newcomer left.session left.identity capacity holding := by
  cases e with
  | join other session identity capacity holding =>
    rcases mem_join.mp there with old | ⟨rfl, -, rfl⟩
    · exact .inl ⟨left, old, .refl left⟩
    · exact .inr ⟨capacity, holding, rfl, rfl⟩
  | command command =>
    have acts := apply_acts valid command
    by_cases here : room = command.room
    · subst here
      obtain ⟨m, old, queue, -, stays⟩ := acts.mem there
      exact .inl ⟨m, old, Command.effect_member stays⟩
    · exact .inl ⟨left, acts.elsewhere room here ▸ there, .refl left⟩
  | receive id => exact .inl ⟨left, members_receive r id room ▸ there, .refl left⟩
  | endReceiving id => exact .inl ⟨left, there, .refl left⟩

/-- Only by joining does a session get into a room. -/
theorem absent_next (valid : Valid r) {room : ConversationId} {session : SessionId} {e : Event φ}
    (absent : r.member? room session = none)
    (outside : ∀ identity capacity holding, e ≠ .join room session identity capacity holding) :
    (r.next e).member? room session = none := by
  rw [member?_eq_none_iff] at absent ⊢
  intro left there
  rcases mem_next valid there with ⟨m, old, keeps⟩ | ⟨capacity, holding, joins, -⟩
  · rw [keeps.session]
    exact absent m old
  · rintro rfl
    exact outside _ capacity holding joins

theorem absent_after (valid : Valid r) {room : ConversationId} {session : SessionId} {es : List (Event φ)}
    (absent : r.member? room session = none)
    (outside : ∀ identity capacity holding, .join room session identity capacity holding ∉ es) :
    (r.after es).member? room session = none := by
  induction es generalizing r with
  | nil => exact absent
  | cons e es ih =>
    refine ih (valid.next e) (absent_next valid absent ?_) ?_
    · rintro identity capacity holding rfl
      exact outside identity capacity holding List.mem_cons_self
    · intro identity capacity holding there
      exact outside identity capacity holding (List.mem_cons_of_mem e there)

end HelpDesk.Registry
