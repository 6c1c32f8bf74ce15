import HelpDesk.Proofs.RegistryDelivery
import Mathlib.Data.Set.Card

/-! What a registry is like, whatever has happened to it. It keeps no room that nobody is in; no queue and no parked frames
go beyond the capacity; and it holds the sending end of a queue exactly as long as the member is in its room. -/

namespace HelpDesk.Registry
variable {φ : Type} {r : Registry φ} {p : Place}

/-- A queue, with its member, as they can be. -/
structure Seat.Sound (seat : Seat φ) : Prop where
  fits : seat.queue.waiting.length ≤ seat.queue.capacity
  sending : seat.queue.sending = seat.member.isSome
  parks : ∀ m, seat.member = some m → ∀ held, m.held = some held →
    held.length ≤ seat.queue.capacity ∧ seat.queue.waiting = []

namespace Seat
variable {seat : Seat φ}

theorem Sound.vacate (sound : seat.Sound) : seat.vacate.Sound :=
  ⟨sound.fits, rfl, fun m absent => by cases absent⟩

theorem Sound.take (sound : seat.Sound) (frame : φ) : (seat.take frame).Sound := by
  obtain ⟨_ | m, queue⟩ := seat
  · exact sound
  · cases holds : m.held with
    | some held =>
      by_cases room : held.length < queue.capacity
      · have taken : (Seat.mk (some m) queue).take frame = ⟨some { m with held := some (held ++ [frame]) }, queue⟩ := by
          simp [Seat.take, holds, room]
        rw [taken]
        refine ⟨sound.fits, sound.sending, ?_⟩
        rintro _ ⟨⟩ _ ⟨⟩
        rw [List.length_append]
        exact ⟨room, (sound.parks m rfl held holds).2⟩
      · have taken : (Seat.mk (some m) queue).take frame = Seat.vacate ⟨some m, queue⟩ := by
          simp [Seat.take, holds, room]
        rw [taken]
        exact sound.vacate
    | none =>
      by_cases room : queue.receiving = true ∧ queue.waiting.length < queue.capacity
      · rw [take_of_room holds sound.sending room.1 room.2]
        refine ⟨?_, sound.sending, ?_⟩
        · rw [length_extend]
          exact room.2
        · rintro _ ⟨⟩ held parked
          cases holds.symm.trans parked
      · have refused : (Seat.mk (some m) queue).take frame = Seat.vacate ⟨some m, queue⟩ := by
          cases receiving : queue.receiving with
          | false => exact take_of_gone holds receiving frame
          | true => exact take_of_full holds (Nat.le_of_not_lt fun below => room ⟨receiving, below⟩) frame
        rw [refused]
        exact sound.vacate

theorem Sound.foldl_take (frames : List φ) {seat : Seat φ} (sound : seat.Sound) : (frames.foldl Seat.take seat).Sound := by
  induction frames generalizing seat with
  | nil => exact sound
  | cons frame frames ih => exact ih (sound.take frame)

theorem Sound.release (sound : seat.Sound) (lead : Option φ) : (seat.release lead).Sound := by
  obtain ⟨_ | m, queue⟩ := seat
  · exact sound
  · apply Sound.foldl_take
    refine ⟨sound.fits, sound.sending, ?_⟩
    rintro _ ⟨⟩ _ ⟨⟩

theorem Sound.effect (sound : seat.Sound) (m : Member φ) (command : Command φ) : (command.effect m seat).Sound := by
  cases command with
  | leave room session =>
    simp only [Command.effect]
    split
    · exact sound.vacate
    · exact sound
  | broadcast room frame => exact sound.take frame
  | sendTo room session frame =>
    simp only [Command.effect]
    split
    · exact sound.take frame
    · exact sound
  | release room session lead =>
    simp only [Command.effect]
    split
    · exact sound.release lead
    · exact sound

theorem Sound.next (sound : seat.Sound) (p : Place) (e : Event φ) : (seat.next p e).Sound := by
  cases e with
  | join => exact sound
  | command command =>
    simp only [Seat.next]
    split
    · split
      · exact sound.effect _ command
      · exact sound
    · exact sound
  | receive id =>
    simp only [Seat.next]
    split
    · obtain ⟨m, capacity, _ | ⟨frame, rest⟩, sending, receiving⟩ := seat
      · exact sound
      · refine ⟨Nat.le_of_succ_le sound.fits, sound.sending, fun m present held holds => ?_⟩
        cases (sound.parks m present held holds).2
    · exact sound
  | endReceiving id =>
    simp only [Seat.next]
    split
    · exact ⟨Nat.zero_le _, sound.sending, fun m present held holds => ⟨(sound.parks m present held holds).1, rfl⟩⟩
    · exact sound

theorem Sound.after (sound : seat.Sound) (p : Place) (es : List (Event φ)) : (es.foldl (Seat.next p) seat).Sound := by
  induction es generalizing seat with
  | nil => exact sound
  | cons e es ih => exact ih (sound.next p e)

/-- Somebody who has just joined. -/
theorem Sound.newcomer {session : SessionId} {identity : Identity} {capacity : Nat} {holding : Bool} :
    Sound ⟨some (r.newcomer session identity capacity holding), ⟨capacity, [], true, true⟩⟩ := by
  refine ⟨Nat.zero_le _, rfl, ?_⟩
  rintro _ ⟨⟩ held holds
  cases holding <;> cases holds
  exact ⟨Nat.zero_le _, rfl⟩

/-- Somebody who was refused. -/
theorem Sound.refused {capacity : Nat} : Sound (φ := φ) ⟨none, ⟨capacity, [], false, true⟩⟩ :=
  ⟨Nat.zero_le _, rfl, fun m absent => by cases absent⟩

end Seat

/-- Every queue has a seat of its own. -/
def Manned (r : Registry φ) : Prop :=
  ∀ id queue, r.queue? id = some queue → ∃ p seat, p.queue = id ∧ Seated r p seat ∧ seat.Sound

section Join
variable {room : ConversationId} {session : SessionId} {identity : Identity} {capacity : Nat} {holding : Bool}

theorem join_number : (r.join room session identity capacity holding).1 = (r.newQueue capacity).1 := by
  cases found : r.member? room session with
  | none => rw [join_absent found]
  | some m => rw [join_present found]

/-- The queue of somebody who is refused belongs to nobody, and is closed at once. -/
theorem seated_of_refused (valid : Valid r) {m : Member φ} (present : r.member? room session = some m) :
    Seated (r.join room session identity capacity holding).2
      ⟨room, session, (r.join room session identity capacity holding).1⟩ ⟨none, ⟨capacity, [], false, true⟩⟩ := by
  refine ⟨?_, ?_, ?_⟩
  · rw [join_present present, queue?_modifyQueue, if_pos rfl, queue?_newQueue, if_pos rfl]
    rfl
  · rintro n ⟨⟩
  · intro other n there same
    rw [join_number] at same
    rw [join_present present, members_modifyQueue] at there
    obtain ⟨queue, known⟩ := valid.known other n there
    exact absurd same (not_new known capacity)

end Join

/-- A queue that was not there before is that of somebody who joins, and nothing waits in it. -/
theorem joins_of_new (valid : Valid r) {e : Event φ} {id : QueueId} {queue : Queue φ} (new : r.queue? id = none)
    (known : (r.next e).queue? id = some queue) : queue.waiting = [] ∧
      ∃ room session identity capacity holding, e = .join room session identity capacity holding ∧
        id = (r.join room session identity capacity holding).1 := by
  cases e with
  | join room session identity capacity holding =>
    have own : id = (r.newQueue capacity).1 := by
      by_contra other
      cases found : r.member? room session with
      | none => simp [Registry.next, join_absent found, queue?_newQueue, other, new] at known
      | some m => simp [Registry.next, join_present found, queue?_modifyQueue, queue?_newQueue, other, new] at known
    refine ⟨?_, room, session, identity, capacity, holding, rfl, own.trans join_number.symm⟩
    cases found : r.member? room session with
    | none =>
      rw [Registry.next, join_absent found, queue?_setMembers, queue?_newQueue, if_pos own] at known
      rw [← Option.some.inj known]
    | some m =>
      rw [Registry.next, join_present found, queue?_modifyQueue, if_pos own, queue?_newQueue, if_pos own] at known
      rw [← Option.some.inj known]
      rfl
  | command command =>
    have unowned : ∀ m ∈ r.members command.room, m.queue ≠ id := by
      rintro m there rfl
      obtain ⟨queue, known⟩ := valid.known _ m there
      cases new.symm.trans known
    have same := (apply_acts valid command).others id unowned
    rw [new] at same
    cases same.symm.trans known
  | receive other =>
    rw [Registry.next, queue?_receive] at known
    split at known
    · next same =>
      rw [← same, new] at known
      cases known
    · cases new.symm.trans known
  | endReceiving other =>
    rw [Registry.next, endReceiving, queue?_modifyQueue, new] at known
    split at known <;> cases known

theorem Manned.next (valid : Valid r) (manned : Manned r) (e : Event φ) : Manned (r.next e) := by
  intro id queue known
  cases old : r.queue? id with
  | some before =>
    obtain ⟨p, seat, same, seated, sound⟩ := manned id before old
    exact ⟨p, seat.next p e, same, seated.next valid e, sound.next p e⟩
  | none =>
    obtain ⟨-, room, session, identity, capacity, holding, rfl, own⟩ := joins_of_new valid old known
    cases found : r.member? room session with
    | none => exact ⟨_, _, own.symm, seated_of_join valid found, .newcomer⟩
    | some m => exact ⟨_, _, own.symm, seated_of_refused valid found, .refused⟩

theorem Manned.after (valid : Valid r) (manned : Manned r) (es : List (Event φ)) : Manned (r.after es) := by
  induction es generalizing r with
  | nil => exact manned
  | cons e es ih => exact ih (valid.next e) (manned.next valid e)

theorem Manned.initial : Manned ({} : Registry φ) := by
  intro id queue known
  cases known

/-- A member's seat is the one of its queue. -/
theorem Manned.seated (manned : Manned r) (valid : Valid r) {room : ConversationId} {m : Member φ}
    (there : m ∈ r.members room) :
    ∃ queue, Seated r ⟨room, m.session, m.queue⟩ ⟨some m, queue⟩ ∧ Seat.Sound ⟨some m, queue⟩ := by
  obtain ⟨queue, known⟩ := valid.known room m there
  obtain ⟨p, ⟨member, queue⟩, same, seated, sound⟩ := manned m.queue queue known
  obtain ⟨rfl, rfl⟩ := seated.only room m there same.symm
  obtain ⟨-, session, -⟩ := seated.member m rfl
  refine ⟨queue, ?_, sound⟩
  rw [session, ← same]
  exact seated

/-- No two rooms are the same one, and somebody is in each. -/
structure Tidy (rooms : List (Room φ)) : Prop where
  ids : (rooms.map (·.id)).Nodup
  occupied : ∀ room ∈ rooms, room.members ≠ []

theorem Tidy.setMembers (tidy : Tidy r.rooms) (room : ConversationId) (members : List (Member φ)) :
    Tidy (r.setMembers room members).rooms := by
  have others : ((r.rooms.filter (·.id != room)).map (·.id)).Nodup := tidy.ids.sublist (List.filter_sublist.map _)
  have occupied : ∀ x ∈ r.rooms.filter (·.id != room), x.members ≠ [] :=
    fun x there => tidy.occupied x (List.mem_filter.mp there).1
  by_cases vacant : members.isEmpty
  · simp only [Registry.setMembers, vacant, if_true]
    exact ⟨others, occupied⟩
  · simp only [Registry.setMembers, vacant, Bool.false_eq_true, if_false]
    refine ⟨?_, ?_⟩
    · rw [List.map_append, List.map_singleton]
      refine others.append (List.nodup_singleton _) ?_
      intro id left right
      obtain ⟨x, there, rfl⟩ := List.mem_map.mp left
      have apart := (List.mem_filter.mp there).2
      simp [List.mem_singleton.mp right] at apart
    · intro x there
      rcases List.mem_append.mp there with there | there
      · exact occupied x there
      · rw [List.mem_singleton.mp there]
        simpa using vacant

theorem Tidy.leave (tidy : Tidy r.rooms) (room : ConversationId) (session : SessionId) :
    Tidy (r.leave room session).rooms := by
  simp only [Registry.leave]
  split
  · exact tidy
  · exact tidy.setMembers room _

/-- All that happens to the rooms is that one of them gets other members. -/
theorem Tidy.next (tidy : Tidy r.rooms) (e : Event φ) : Tidy (r.next e).rooms := by
  cases e with
  | join room session identity capacity holding =>
    cases found : r.member? room session with
    | none =>
      rw [Registry.next, join_absent found]
      exact Tidy.setMembers (r := (r.newQueue capacity).2) tidy room _
    | some m =>
      rw [Registry.next, join_present found]
      exact tidy
  | receive id =>
    simp only [Registry.next, Registry.receive]
    split <;> exact tidy
  | endReceiving id => exact tidy
  | command command =>
    cases command with
    | leave room session => exact tidy.leave room session
    | broadcast room frame => exact Tidy.setMembers (r := ⟨r.rooms, _⟩) tidy room _
    | sendTo room session frame =>
      simp only [Registry.next, apply, Registry.sendTo]
      split
      · exact tidy
      · split
        · exact Tidy.setMembers (r := ⟨r.rooms, _⟩) tidy room _
        · exact tidy.leave room session
    | release room session lead =>
      simp only [Registry.next, apply, Registry.release]
      split
      · exact tidy
      · have put (queues : List (Queue φ)) (m : Member φ) : Tidy ((Registry.mk r.rooms queues).putMember room m).rooms :=
          Tidy.setMembers (r := ⟨r.rooms, queues⟩) tidy room _
        split
        · exact put _ _
        · exact (put _ _).leave room session

theorem Tidy.after (tidy : Tidy r.rooms) (es : List (Event φ)) : Tidy (r.after es).rooms := by
  induction es generalizing r with
  | nil => exact tidy
  | cons e es ih => exact ih (tidy.next e)

theorem Tidy.members (tidy : Tidy r.rooms) {room : Room φ} (there : room ∈ r.rooms) : r.members room.id = room.members := by
  simp only [Registry.members]
  cases found : r.rooms.find? (·.id == room.id) with
  | none =>
    have none := List.find?_eq_none.mp found room there
    simp at none
  | some other =>
    have same : other.id = room.id := by simpa using List.find?_some found
    rw [List.inj_on_of_nodup_map tidy.ids (List.mem_of_find?_eq_some found) there same]

theorem roomSize_pos_iff (tidy : Tidy r.rooms) {id : ConversationId} :
    0 < r.roomSize id ↔ ∃ room ∈ r.rooms, room.id = id := by
  rw [roomSize, List.length_pos_iff]
  constructor
  · intro occupied
    by_contra none
    apply occupied
    have absent : r.rooms.find? (·.id == id) = Option.none := by
      simpa [List.find?_eq_none] using none
    simp [members, absent]
  · rintro ⟨room, there, rfl⟩
    rw [tidy.members there]
    exact tidy.occupied room there

/-- The rooms that are counted are those that somebody is in. -/
theorem roomCount_eq_ncard (tidy : Tidy r.rooms) : r.roomCount = {room | 0 < r.roomSize room}.ncard := by
  have same : {room | 0 < r.roomSize room} = ((r.rooms.map (·.id)).toFinset : Set ConversationId) := by
    ext id
    simp [roomSize_pos_iff tidy]
  rw [same, Set.ncard_coe_finset, List.toFinset_card_of_nodup tidy.ids, List.length_map, roomCount]

structure WellKept (r : Registry φ) : Prop where
  /-- somebody is in every room, and no room is there twice -/
  rooms : Tidy r.rooms
  counted : r.roomCount = {room | 0 < r.roomSize room}.ncard
  /-- a session is in a room at most once, and is found there -/
  sessions : ∀ room, ((r.members room).map (·.session)).Nodup ∧
    ∀ m ∈ r.members room, r.member? room m.session = some m
  fits : ∀ id queue, r.queue? id = some queue → queue.waiting.length ≤ queue.capacity
  /-- whoever holds has nothing in its queue, and no more is parked than the queue can take -/
  parks : ∀ room, ∀ m ∈ r.members room, ∀ held, m.held = some held →
    ∃ queue, r.queue? m.queue = some queue ∧ held.length ≤ queue.capacity ∧ queue.waiting = []
  /-- members have queues of their own -/
  queues : ∀ room other, ∀ m ∈ r.members room, ∀ n ∈ r.members other, m.queue = n.queue → room = other ∧ m = n
  /-- the sending end of a queue is held for a member, and for as long as it is one -/
  sending : ∀ id queue, r.queue? id = some queue → (queue.sending = true ↔ ∃ room, ∃ m ∈ r.members room, m.queue = id)

theorem wellKept_after (es : List (Event φ)) : WellKept (({} : Registry φ).after es) := by
  have valid : Valid (({} : Registry φ).after es) := Valid.initial.after es
  have manned : Manned (({} : Registry φ).after es) := Manned.initial.after Valid.initial es
  have tidy : Tidy (({} : Registry φ).after es).rooms :=
    Tidy.after (r := {}) ⟨List.nodup_nil, fun _ there => absurd there List.not_mem_nil⟩ es
  generalize ({} : Registry φ).after es = r at *
  refine ⟨tidy, roomCount_eq_ncard tidy, fun room => ⟨valid.sessions room, ?_⟩, ?_, ?_, ?_, ?_⟩
  · intro m there
    cases found : r.member? room m.session with
    | none => exact absurd rfl (member?_eq_none_iff.mp found m there)
    | some n =>
      obtain ⟨member, same⟩ := member?_some found
      rw [valid.eq_of_session member there same]
  · intro id queue known
    obtain ⟨p, seat, rfl, seated, sound⟩ := manned id queue known
    cases seated.queue.symm.trans known
    exact sound.fits
  · intro room m there held holds
    obtain ⟨queue, seated, sound⟩ := manned.seated valid there
    exact ⟨queue, seated.queue, sound.parks m rfl held holds⟩
  · intro room other m left n right same
    obtain ⟨queue, seated, -⟩ := manned.seated valid left
    obtain ⟨elsewhere, equal⟩ := seated.only other n right same.symm
    exact ⟨elsewhere.symm, Option.some.inj equal⟩
  · intro id queue known
    obtain ⟨p, seat, rfl, seated, sound⟩ := manned id queue known
    cases seated.queue.symm.trans known
    rw [sound.sending, Option.isSome_iff_exists]
    constructor
    · rintro ⟨m, present⟩
      obtain ⟨there, -, same⟩ := seated.member m present
      exact ⟨p.room, m, there, same⟩
    · rintro ⟨room, m, there, same⟩
      exact ⟨m, (seated.only room m there same).2⟩

/-- Whoever joined there is removed by one of the events: it leaves, or a frame finds no room for it or no receiver. -/
def Removed (joined : Registry φ) (p : Place) (capacity : Nat) (parked : Option (List φ)) (es : List (Event φ)) : Prop :=
  ∃ stay e later fits, es = stay ++ e :: later ∧ (joined.after stay).Sits p ∧ ¬ (joined.after (stay ++ [e])).Sits p ∧
    Ending joined p capacity parked stay e fits

theorem Seated.never_again (valid : Valid r) {seat : Seat φ} (seated : Seated r p seat) (gone : ¬ r.Sits p)
    (es : List (Event φ)) : ¬ (r.after es).Sits p := by
  obtain ⟨_ | m, queue⟩ := seat
  · exact (seated.vacant valid es).2 es (List.prefix_refl es)
  · exact absurd (seated.sits_iff.mpr ⟨m, rfl⟩) gone

section Joins
variable {joined : Registry φ} {room : ConversationId} {session : SessionId} {identity : Identity} {capacity : Nat}
  {holding : Bool} {queue : QueueId} (valid : Valid r)
  (joins : r.join room session identity capacity holding = (queue, joined))
include valid joins

theorem not_sits_iff_removed (absent : r.member? room session = none) (es : List (Event φ)) :
    ¬ (joined.after es).Sits ⟨room, session, queue⟩ ↔
      Removed joined ⟨room, session, queue⟩ capacity (if holding then some [] else none) es := by
  obtain ⟨valid', seated⟩ := seated_newcomer valid absent joins
  constructor
  · intro gone
    obtain ⟨stay, rest, fits, member⟩ := membership_of_join valid absent joins es
    rcases member.ending with ⟨rfl, rfl⟩ | ⟨e, later, rfl, ending, never⟩
    · have split := member.split
      rw [List.append_nil] at split
      subst split
      exact absurd (member.sits es (List.prefix_refl es)) gone
    · exact ⟨stay, e, later, fits, member.split, member.sits stay (List.prefix_refl stay),
        never [] List.nil_prefix, ending⟩
  · rintro ⟨stay, e, later, fits, rfl, -, gone, -⟩
    rw [List.append_cons, after_append]
    exact (seated.after valid' (stay ++ [e])).never_again (valid'.after _) gone later

/-- Let in or refused, whoever joins has a queue of its own. -/
theorem seat_of_join : Valid joined ∧ ∃ seat : Seat φ, Seated joined ⟨room, session, queue⟩ seat ∧ seat.Sound ∧
    (seat.member = none ↔ r.member? room session ≠ none) := by
  have valid' := @Valid.join _ _ room session identity capacity holding valid
  rw [joins] at valid'
  refine ⟨valid', ?_⟩
  cases found : r.member? room session with
  | none => exact ⟨_, (seated_newcomer valid found joins).2, .newcomer, by simp⟩
  | some m =>
    have seated := @seated_of_refused _ _ room session identity capacity holding valid m found
    rw [joins] at seated
    exact ⟨_, seated, .refused, by simp⟩

/-- Whoever is not a member was refused, or was removed since. -/
theorem not_sits_of_join_iff (es : List (Event φ)) :
    ¬ (joined.after es).Sits ⟨room, session, queue⟩ ↔ r.member? room session ≠ none ∨
      Removed joined ⟨room, session, queue⟩ capacity (if holding then some [] else none) es := by
  cases found : r.member? room session with
  | none => simpa using not_sits_iff_removed valid joins found es
  | some m =>
    obtain ⟨valid', ⟨member, queue⟩, seated, -, refused⟩ := seat_of_join valid joins
    obtain rfl : member = none := refused.mpr (by simp [found])
    simpa using (seated.vacant valid' es).2 es (List.prefix_refl es)

/-- The receiver finds its queue closed when it has taken all that waited, unless it is a member still. -/
theorem receive_eq_closed_iff (es : List (Event φ)) :
    (∃ q, (joined.after es).queue? queue = some q ∧
      (q.sending = true ↔ (joined.after es).Sits ⟨room, session, queue⟩)) ∧
    (((joined.after es).receive queue).1 = .closed ↔
      (joined.after es).waiting queue = [] ∧ ¬ (joined.after es).Sits ⟨room, session, queue⟩) := by
  obtain ⟨valid', seat, seated, sound, -⟩ := seat_of_join valid joins
  have seated' := seated.after valid' es
  have sends : (es.foldl (Seat.next ⟨room, session, queue⟩) seat).queue.sending = true ↔
      (joined.after es).Sits ⟨room, session, queue⟩ := by
    rw [(sound.after _ es).sending, Option.isSome_iff_exists, seated'.sits_iff]
  refine ⟨⟨_, seated'.queue, sends⟩, ?_⟩
  rw [← sends, seated'.waiting]
  have found : (joined.after es).queue? queue = some _ := seated'.queue
  simp only [receive, found]
  obtain ⟨member, capacity, _ | ⟨frame, rest⟩, _ | _, receiving⟩ := es.foldl (Seat.next ⟨room, session, queue⟩) seat <;>
    simp [Queue.receive]

end Joins

/-- Whatever has happened to a registry, it is well kept. The sending end of a queue with which somebody joins is held
exactly as long as this member is in the room: its receiver finds it closed, after what waited, if and only if the member
was refused, has left or was evicted. Who is refused, because the session is in the room already, changes neither a member
nor a queue. -/
theorem representation_invariant (earlier later : List (Event φ)) (room : ConversationId) (session : SessionId)
    (identity : Identity) (capacity : Nat) (holding : Bool) (queue : QueueId) (joined : Registry φ)
    (joins : (({} : Registry φ).after earlier).join room session identity capacity holding = (queue, joined)) :
    WellKept (({} : Registry φ).after earlier) ∧ WellKept (joined.after later) ∧
    (∃ q, (joined.after later).queue? queue = some q ∧
      (q.sending = true ↔ (joined.after later).Sits ⟨room, session, queue⟩)) ∧
    (((joined.after later).receive queue).1 = .closed ↔ (joined.after later).waiting queue = [] ∧
      ((({} : Registry φ).after earlier).member? room session ≠ none ∨
        Removed joined ⟨room, session, queue⟩ capacity (if holding then some [] else none) later)) ∧
    ((({} : Registry φ).after earlier).member? room session ≠ none →
      joined.rooms = (({} : Registry φ).after earlier).rooms ∧
      ∀ id q, (({} : Registry φ).after earlier).queue? id = some q → joined.queue? id = some q) := by
  have valid : Valid (({} : Registry φ).after earlier) := Valid.initial.after earlier
  obtain ⟨sends, closes⟩ := receive_eq_closed_iff valid joins later
  refine ⟨wellKept_after earlier, ?_, sends, ?_, ?_⟩
  · have run := wellKept_after (φ := φ) (earlier ++ .join room session identity capacity holding :: later)
    rw [after_append, after_cons, next, joins] at run
    exact run
  · rw [closes, not_sits_of_join_iff valid joins later]
  · intro refused
    obtain ⟨m, present⟩ := Option.ne_none_iff_exists'.mp refused
    refine ⟨?_, ?_⟩
    · rw [join_present present] at joins
      obtain ⟨-, rfl⟩ := Prod.mk.inj joins
      rfl
    · intro id q known
      have kept := @queue?_join _ _ room session identity capacity holding id q known
      rw [joins] at kept
      exact kept

/-- A member that holds is refused a second queue, and then evicted: more is parked than its own queue can take. -/
theorem representation_invariant_of_overflow :
    let room := ConversationId.dashboard
    let staff : Identity := ⟨⟨.ofNat 1⟩, .admin⟩
    let later : List (Event Nat) :=
      [.join room ⟨1⟩ staff 9 false, .command (.broadcast room 1), .command (.broadcast room 2)]
    let joined : Registry Nat := (({} : Registry Nat).join room ⟨1⟩ staff 1 true).2
    ({} : Registry Nat).join room ⟨1⟩ staff 1 true = (⟨0⟩, joined) ∧ WellKept (joined.after later) ∧
      Removed joined ⟨room, ⟨1⟩, ⟨0⟩⟩ 1 (some []) later := by
  intro room staff later joined
  have joins : ({} : Registry Nat).join room ⟨1⟩ staff 1 true = (⟨0⟩, joined) := rfl
  obtain ⟨-, kept, -, closes, -⟩ := representation_invariant [] later room ⟨1⟩ staff 1 true ⟨0⟩ joined joins
  refine ⟨joins, kept, ?_⟩
  rcases (closes.mp rfl).2 with refused | removed
  · exact absurd rfl refused
  · exact removed

end HelpDesk.Registry
