import HelpDesk.Proofs.ConnectionTexts
import HelpDesk.Proofs.Operations
import HelpDesk.Proofs.RegistryInvariant

/-! What the members of a conversation see of it. Messages are stored in one order and said to the room in another, but
each is said once, those of one connection in the order in which it sent them; and all members are told the same. -/

namespace HelpDesk

namespace Registry
variable {φ : Type} {r : Registry φ} {p : Place} {room : ConversationId}

/-- Nobody in the room holds. -/
def Unheld (r : Registry φ) (room : ConversationId) : Prop :=
  ∀ m ∈ r.members room, m.held = none

section Effect
variable {m left : Member φ} {queue : Queue φ}

theorem Command.effect_unheld {command : Command φ} (free : m.held = none)
    (there : (command.effect m ⟨some m, queue⟩).member = some left) : left.held = none := by
  have unchanged (same : (Seat.mk (some m) queue).member = some left) : left.held = none := by
    cases same
    exact free
  have taken (frame : φ) (there : ([frame].foldl Seat.take ⟨some m, queue⟩).member = some left) : left.held = none :=
    Seat.foldl_take_unheld free there
  cases command with
  | leave room session =>
    simp only [effect] at there
    split at there
    · cases there
    · exact unchanged there
  | broadcast room frame => exact taken frame there
  | sendTo room session frame =>
    simp only [effect] at there
    split at there
    · exact taken frame there
    · exact unchanged there
  | release room session lead =>
    simp only [effect] at there
    split at there
    · exact Seat.release_unheld there
    · exact unchanged there

end Effect

theorem Unheld.next (valid : Valid r) (unheld : Unheld r room) {e : Event φ}
    (plain : ∀ session identity capacity, e ≠ .join room session identity capacity true) : Unheld (r.next e) room := by
  intro left there
  cases e with
  | join other session identity capacity holding =>
    rcases mem_join.mp there with old | ⟨rfl, -, rfl⟩
    · exact unheld left old
    · cases holding with
      | false => rfl
      | true => exact absurd rfl (plain session identity capacity)
  | command command =>
    have acts := apply_acts valid command
    by_cases here : room = command.room
    · subst here
      obtain ⟨m, old, queue, -, stays⟩ := acts.mem there
      exact Command.effect_unheld (unheld m old) stays
    · exact unheld left (acts.elsewhere room here ▸ there)
  | receive id => exact unheld left (members_receive r id room ▸ there)
  | endReceiving id => exact unheld left there

theorem Unheld.after (valid : Valid r) (unheld : Unheld r room) {es : List (Event φ)}
    (plain : ∀ session identity capacity, .join room session identity capacity true ∉ es) : Unheld (r.after es) room := by
  induction es generalizing r with
  | nil => exact unheld
  | cons e es ih =>
    refine ih (valid.next e) (unheld.next valid ?_) ?_
    · rintro session identity capacity rfl
      exact plain session identity capacity List.mem_cons_self
    · exact fun session identity capacity there => plain session identity capacity (List.mem_cons_of_mem e there)

/-- A member that does not hold and stays is sent all that it is offered. -/
theorem Seated.put_of_stays (valid : Valid r) {m : Member φ} {queue : Queue φ} (seated : Seated r p ⟨some m, queue⟩)
    (present : Present p m queue) (free : m.held = none) {es : List (Event φ)} (sits : (r.after es).Sits p) :
    Registry.put p.queue r es = es.flatMap (·.offered p) := by
  obtain ⟨stay, rest, fits, member⟩ := seated.membership valid present es
  rcases member.ending with ⟨rfl, rfl⟩ | ⟨e, later, rfl, -, never⟩
  · have split := member.split
    rw [List.append_nil] at split
    rw [member.put, free, ← split, List.append_nil, due]
  · rw [member.split] at sits
    exact absurd sits (never later (List.prefix_refl later))

/-- Who is a member after some events, and still after others, and was never made to hold. -/
theorem feed_of_member {earlier es : List (Event φ)}
    (plain : ∀ session identity capacity, .join p.room session identity capacity true ∉ earlier)
    (sits : (({} : Registry φ).after earlier).Sits p) (stays : ((({} : Registry φ).after earlier).after es).Sits p) :
    put p.queue (({} : Registry φ).after earlier) es = es.flatMap (·.offered p) ∧
    received p.queue (({} : Registry φ).after earlier) es <+:
      (({} : Registry φ).after earlier).waiting p.queue ++ put p.queue (({} : Registry φ).after earlier) es ∧
    (.endReceiving p.queue ∉ es →
      (({} : Registry φ).after earlier).waiting p.queue ++ put p.queue (({} : Registry φ).after earlier) es =
        received p.queue (({} : Registry φ).after earlier) es ++
          ((({} : Registry φ).after earlier).after es).waiting p.queue) := by
  have valid : Valid (({} : Registry φ).after earlier) := Valid.initial.after earlier
  have manned : Manned (({} : Registry φ).after earlier) := Manned.initial.after Valid.initial earlier
  have unheld : Unheld (({} : Registry φ).after earlier) p.room :=
    Unheld.after Valid.initial (fun _ there => absurd there List.not_mem_nil) plain
  generalize ({} : Registry φ).after earlier = r at *
  obtain ⟨m, there, session, same⟩ := sits
  obtain ⟨queue, seated, sound⟩ := manned.seated valid there
  rw [session, same] at seated
  have present : Present p m queue :=
    ⟨session, sound.sending, sound.fits, fun held holds => (sound.parks m rfl held holds).1⟩
  exact ⟨seated.put_of_stays valid present (unheld m there) stays, seated.received_prefix valid es,
    seated.put_eq valid es⟩

end Registry

/-- The chat frames among those that a member is sent. -/
def chats (frames : List Parcel) : List ChatFrame :=
  frames.filterMap (·.frame.chat?)

section Plain
variable (p : Registry.Place)

/-- A member is told what is said to its room. -/
theorem chats_offered {o : Occurrence} (plain : o.Plain) :
    chats (o.event?.elim [] (Registry.Event.offered p)) = (o.said? p.room).toList := by
  cases o with
  | received queue => rfl
  | gone queue => rfl
  | asked task hub request =>
    rcases request with call | (⟨room, session⟩ | ⟨room, parcel⟩ | ⟨room, session, parcel⟩ | _) | _ | _
    · rfl
    · rfl
    · by_cases here : room = p.room
      · simp only [Occurrence.event?, Request.event?, Option.elim_some, Registry.Event.offered, here, if_true, chats,
          Occurrence.said?, Request.said?, List.filterMap_cons, List.filterMap_nil]
        cases parcel.frame.chat? <;> rfl
      · simp [Occurrence.event?, Request.event?, Registry.Event.offered, here, chats, Occurrence.said?, Request.said?]
    · have silent : parcel.frame.chat? = none := plain
      by_cases here : room = p.room ∧ session = p.session <;>
        simp [Occurrence.event?, Request.event?, Registry.Event.offered, here, chats, silent, Occurrence.said?,
          Request.said?]
    · exact plain.elim
    · exact plain.elim
    · rfl

theorem chats_of_plain {os : List Occurrence} (plain : ∀ o ∈ os, o.Plain) :
    chats ((os.filterMap (·.event?)).flatMap (·.offered p)) = os.filterMap (·.said? p.room) := by
  induction os with
  | nil => rfl
  | cons o os ih =>
    have first := chats_offered p (plain o List.mem_cons_self)
    have rest := ih fun x there => plain x (List.mem_cons_of_mem o there)
    have split : ((o :: os).filterMap (·.event?)).flatMap (·.offered p) =
        o.event?.elim [] (Registry.Event.offered p) ++ (os.filterMap (·.event?)).flatMap (·.offered p) := by
      rw [List.filterMap_cons]
      cases o.event? <;> rfl
    have said : (o :: os).filterMap (·.said? p.room) = (o.said? p.room).toList ++ os.filterMap (·.said? p.room) := by
      rw [List.filterMap_cons]
      cases o.said? p.room <;> rfl
    rw [split, chats, List.filterMap_append, said, ← first, ← rest]
    rfl

end Plain

/-- Connections whose texts are taken in at the same time. -/
def readers (hub : Hub) (feeds : List (Connection × List String)) : Execution (List Outcome) :=
  ⟨hub, feeds.map fun (c, texts) => c.readTexts hub.settings texts⟩

/-- The messages that were stored in a conversation, in that order, each with the number of the connection that wrote it. -/
def messagesOf (id : ConversationId) (log : List Occurrence) : List (Nat × Message) :=
  log.filterMap (·.signed? (·.written? id))

/-- The chat frames that were said to a room, in that order, each with the number of the connection that said it. -/
def framesOf (room : ConversationId) (log : List Occurrence) : List (Nat × ChatFrame) :=
  log.filterMap (·.signed? (·.said? room))

section Readers
variable {hub : Hub} {feeds : List (Connection × List String)} {turns : List Turn} {log : List Occurrence}
  {y : Execution (List Outcome)} (runs : (readers hub feeds).run turns = (log, y))
  (finished : ∀ program ∈ y.tasks, program.value?.isSome)
  (dated : ∀ task now, .task task now ∈ turns → now.toChars?.isSome)
include runs finished dated

/-- What each connection has come to. -/
theorem spoke_of_readers {task : Nat} {c : Connection} {texts : List String} (feed : feeds[task]? = some (c, texts)) :
    ∃ outcomes, y.value? task = some outcomes ∧ c.Spoke texts (log.filter (·.isOf task)) outcomes := by
  have there : (readers hub feeds).tasks[task]? = some (c.readTexts hub.settings texts) := by simp [readers, feed]
  obtain ⟨last, ends, path⟩ := Execution.run_path runs there
  obtain ⟨outcomes, value⟩ := Option.isSome_iff_exists.mp (finished last (List.mem_of_getElem? ends))
  rw [Program.eq_done_of_value? value] at path
  refine ⟨outcomes, by simp [Execution.value?, ends, value], Connection.spoke_of_readTexts ?_ path⟩
  intro o there
  cases o with
  | received queue => trivial
  | gone queue => trivial
  | asked number found request =>
    exact dated number found.clock (Execution.clock_of_asked runs (List.mem_filter.mp there).1)

theorem plain_of_readers : ∀ o ∈ log, o.Plain := by
  intro o there
  cases o with
  | received queue => trivial
  | gone queue => trivial
  | asked task found request =>
    have own : Occurrence.asked task found request ∈ log.filter (·.isOf task) := by simpa [Occurrence.isOf] using there
    cases feed : feeds[task]? with
    | none =>
      rw [Execution.turns_of_none runs (by simp [readers, feed])] at own
      cases own
    | some entry =>
      obtain ⟨outcomes, -, spoke⟩ := spoke_of_readers runs finished dated feed
      exact spoke.plain _ own

/-- What one connection has said to a room is what it has stored there, in that order. -/
theorem said_of_readers {room : ConversationId} (elsewhere : room ≠ .dashboard) (task : Nat) :
    (log.filter (·.isOf task)).filterMap (·.said? room) =
      ((log.filter (·.isOf task)).filterMap (·.written? room)).map .ofMessage := by
  cases feed : feeds[task]? with
  | none => rw [Execution.turns_of_none runs (by simp [readers, feed])]; rfl
  | some entry =>
    obtain ⟨outcomes, -, spoke⟩ := spoke_of_readers runs finished dated feed
    rw [spoke.said room elsewhere, spoke.written room]
    split <;> rfl

end Readers

/-- Only the dashboards are made to hold. -/
theorem plain_of_operations {hub : Hub} {operations : List Operation} {turns : List Turn} {log : List Occurrence}
    {y : Execution Unit} (runs : (Execution.of hub operations).run turns = (log, y)) {room : ConversationId}
    (elsewhere : room ≠ .dashboard) :
    ∀ session identity capacity, .join room session identity capacity true ∉ log.filterMap (·.event?) := by
  intro session identity capacity there
  obtain ⟨o, member, event⟩ := List.mem_filterMap.mp there
  rcases o with ⟨task, found, _ | _ | _ | _⟩ | _ | _ <;> cases event
  obtain ⟨before, later, split⟩ := List.append_of_mem member
  obtain ⟨program, last, own, -⟩ := Execution.run_program runs split
  have own' : (operations.map (·.program hub.settings))[task]? = some program := own
  rw [List.getElem?_map, Option.map_eq_some_iff] at own'
  obtain ⟨operation, -, rfl⟩ := own'
  have command (asked : Registry.Command Parcel) : Request.rooms asked ≠ .join room session identity capacity true := by
    intro same
    cases same
  have serves : Program.Serves fun request => request ≠ .join room session identity capacity true := by
    refine ⟨fun call same => ?_, fun parcel => command _⟩
    cases same
  have permitted : operation.Permitted fun request => request ≠ .join room session identity capacity true := by
    cases operation with
    | start _ _ _ | close _ _ | memberJoined _ _ | messageStored _ _ => trivial
    | enter c =>
      refine ⟨fun capacity same => ?_, fun _ _ => command _⟩
      obtain ⟨here, -, -, -, holds⟩ := Request.join.inj same
      have dashboard : c.room = .dashboard := by simpa [Connection.isDashboard, ConversationId.isDashboard] using holds
      exact elsewhere (here.symm.trans dashboard)
    | text c words => exact fun _ _ => ⟨command _, command _⟩
    | leave c => exact command _
  exact Execution.run_allowed runs own (Operation.announces serves permitted hub.settings) member rfl

theorem Store.listMessages_of_stored {s : Store} {id : ConversationId} {c : Conversation} (stored : s.get? id = some c)
    (limit offset : Int) : s.listMessages id limit offset = .ok (((s.history id).drop offset.toNat).take limit.toNat) := by
  rw [listMessages, stored]

/-- A desk has been at work for a while. Then any number of connections have their texts taken in, each one text after the
other and all of them at the same time, at times that have a text. Whoever is a member of a conversation from the start to
the end is sent one chat frame for each message that is stored in it meanwhile, and no other; those of one connection in
the order of its texts, which is also their order in the history of the conversation; and all members are sent the same. -/
theorem live_feed_equals_history {start : Hub} (vacant : start.registry = {}) {operations : List Operation}
    {earlier : List Turn} {past : List Occurrence} {x : Execution Unit}
    (began : (Execution.of start operations).run earlier = (past, x)) {feeds : List (Connection × List String)}
    {turns : List Turn} {log : List Occurrence} {y : Execution (List Outcome)}
    (runs : (readers x.hub feeds).run turns = (log, y)) (finished : ∀ program ∈ y.tasks, program.value?.isSome)
    (dated : ∀ task now, .task task now ∈ turns → now.toChars?.isSome) {room : ConversationId}
    (elsewhere : room ≠ .dashboard) :
    y.hub.store.history room = x.hub.store.history room ++ (messagesOf room log).map (·.2) ∧
    (∀ c, y.hub.store.get? room = some c → ∀ limit offset, y.hub.store.listMessages room limit offset =
      .ok (((x.hub.store.history room ++ (messagesOf room log).map (·.2)).drop offset.toNat).take limit.toNat)) ∧
    (framesOf room log).Perm ((messagesOf room log).map fun (task, m) => (task, .ofMessage m)) ∧
    (∀ task, (framesOf room log).filter (·.1 == task) =
      ((messagesOf room log).filter (·.1 == task)).map fun (task, m) => (task, .ofMessage m)) ∧
    (∀ (task : Nat) c texts, feeds[task]? = some (c, texts) → ∃ outcomes, y.value? task = some outcomes ∧
      List.Forall₂ (fun text outcome => ∀ m, outcome.message? = some m → c.Writes text m) texts outcomes ∧
      ((messagesOf room log).filter (·.1 == task)).map (·.2) =
        if c.room = room then outcomes.filterMap (·.message?) else []) ∧
    ∀ p : Registry.Place, p.room = room → x.hub.registry.Sits p → y.hub.registry.Sits p →
      chats (Registry.put p.queue x.hub.registry (log.filterMap (·.event?))) = (framesOf room log).map (·.2) ∧
      Registry.received p.queue x.hub.registry (log.filterMap (·.event?)) <+:
        x.hub.registry.waiting p.queue ++ Registry.put p.queue x.hub.registry (log.filterMap (·.event?)) ∧
      (.gone p.queue ∉ log →
        x.hub.registry.waiting p.queue ++ Registry.put p.queue x.hub.registry (log.filterMap (·.event?)) =
          Registry.received p.queue x.hub.registry (log.filterMap (·.event?)) ++ y.hub.registry.waiting p.queue) := by
  have each (task : Nat) : (framesOf room log).filter (·.1 == task) =
      ((messagesOf room log).filter (·.1 == task)).map fun (task, m) => (task, .ofMessage m) := by
    rw [framesOf, messagesOf, Occurrence.filter_signed, Occurrence.filter_signed,
      said_of_readers runs finished dated elsewhere, List.map_map, List.map_map]
    rfl
  have history : y.hub.store.history room = x.hub.store.history room ++ (messagesOf room log).map (·.2) := by
    rw [messagesOf, Occurrence.map_snd_signed (fun _ => ⟨rfl, rfl⟩)]
    exact Execution.run_history runs room
  refine ⟨history, ?_, ?_, each, ?_, ?_⟩
  · intro c stored limit offset
    rw [Store.listMessages_of_stored stored, history]
  · apply perm_of_signed
    intro task
    rw [each, List.filter_map]
    rfl
  · intro task c texts feed
    obtain ⟨outcomes, value, spoke⟩ := spoke_of_readers runs finished dated feed
    refine ⟨outcomes, value, spoke.writes, ?_⟩
    rw [messagesOf, Occurrence.filter_signed, List.map_map, ← spoke.written room]
    exact List.map_id _
  · rintro p rfl sits stays
    have now : x.hub.registry = ({} : Registry Parcel).after (past.filterMap (·.event?)) := by
      rw [(Execution.run_hub began).1]
      exact congrArg (Registry.after · _) vacant
    have final : y.hub.registry = x.hub.registry.after (log.filterMap (·.event?)) := (Execution.run_hub runs).1
    rw [final] at stays ⊢
    rw [now] at sits stays ⊢
    obtain ⟨put, obtains, all⟩ := Registry.feed_of_member (plain_of_operations began elsewhere) sits stays
    refine ⟨?_, obtains, fun kept => all fun there => kept ?_⟩
    · rw [put, chats_of_plain p (plain_of_readers runs finished dated), framesOf,
        Occurrence.map_snd_signed (fun _ => ⟨rfl, rfl⟩)]
    · obtain ⟨o, member, event⟩ := List.mem_filterMap.mp there
      rcases o with ⟨task, found, _ | _ | _ | _⟩ | id | id <;> cases event
      exact member

/-- A customer and a member of staff write at the same time. The customer's message is stored first and said last. -/
theorem live_feed_equals_history_out_of_order :
    let start : Hub := { settings := .default, clock := ⟨0, 0⟩, mint := fun n => .ofNat (n + 1) }
    let customer : Connection := ⟨⟨1⟩, ⟨⟨.ofNat 1001⟩, .user⟩, ⟨.ofNat 1⟩⟩
    let staff : Connection := ⟨⟨2⟩, ⟨⟨.ofNat 1000⟩, .admin⟩, ⟨.ofNat 1⟩⟩
    let operations : List Operation := [.start customer.identity "a" none, .enter customer, .enter staff]
    let earlier : List Turn := [.task 0 ⟨1, 0⟩, .task 0 ⟨2, 0⟩, .task 1 ⟨3, 0⟩, .task 2 ⟨4, 0⟩]
    let feeds : List (Connection × List String) :=
      [(customer, ["\x7b\"content\":\"b\"\x7d", "c"]), (staff, ["\x7b\"content\":\"d\"\x7d"])]
    let turns : List Turn := [.task 0 ⟨5, 0⟩, .task 1 ⟨6, 0⟩, .task 0 ⟨7, 0⟩, .task 1 ⟨8, 0⟩, .task 1 ⟨9, 0⟩,
      .task 1 ⟨10, 0⟩, .task 1 ⟨11, 0⟩, .task 0 ⟨12, 0⟩]
    let (_, x) := (Execution.of start operations).run earlier
    let (log, y) := (readers x.hub feeds).run turns
    (y.hub.store.history ⟨.ofNat 1⟩).map (·.content) = ["a", "b", "d"] ∧
      (framesOf ⟨.ofNat 1⟩ log).map (fun (task, frame) => (task, frame.content)) = [(1, "d"), (0, "b")] ∧
      (∀ p ∈ [(⟨⟨.ofNat 1⟩, ⟨1⟩, ⟨0⟩⟩ : Registry.Place), ⟨⟨.ofNat 1⟩, ⟨2⟩, ⟨1⟩⟩],
        chats (Registry.put p.queue x.hub.registry (log.filterMap (·.event?))) = (framesOf ⟨.ofNat 1⟩ log).map (·.2)) := by
  intro start customer staff operations earlier feeds turns
  have members : ((Execution.of start operations).run earlier).2.hub.registry.members ⟨.ofNat 1⟩ =
      [⟨⟨1⟩, customer.identity, ⟨0⟩, none⟩, ⟨⟨2⟩, staff.identity, ⟨1⟩, none⟩] := by decide +kernel
  have finished : ∀ program ∈ ((readers ((Execution.of start operations).run earlier).2.hub feeds).run turns).2.tasks,
      program.value?.isSome := by decide +kernel
  have remain : ((readers ((Execution.of start operations).run earlier).2.hub feeds).run turns).2.hub.registry.members
      ⟨.ofNat 1⟩ = [⟨⟨1⟩, customer.identity, ⟨0⟩, none⟩, ⟨⟨2⟩, staff.identity, ⟨1⟩, none⟩] := by decide +kernel
  have history : (((readers ((Execution.of start operations).run earlier).2.hub feeds).run turns).2.hub.store.history
      ⟨.ofNat 1⟩).map (·.content) = ["a", "b", "d"] := by decide +kernel
  have frames : (framesOf ⟨.ofNat 1⟩ ((readers ((Execution.of start operations).run earlier).2.hub feeds).run turns).1).map
      (fun (task, frame) => (task, frame.content)) = [(1, "d"), (0, "b")] := by decide +kernel
  have dated : ∀ task now, .task task now ∈ turns → now.toChars?.isSome := Turn.dated (by decide +kernel)
  have elsewhere : (⟨.ofNat 1⟩ : ConversationId) ≠ .dashboard := by decide +kernel
  rcases began : (Execution.of start operations).run earlier with ⟨past, x⟩
  simp only [began] at members finished remain history frames ⊢
  rcases runs : (readers x.hub feeds).run turns with ⟨log, y⟩
  simp only [runs] at finished remain history frames
  obtain ⟨-, -, -, -, -, told⟩ := live_feed_equals_history rfl began runs finished dated elsewhere
  refine ⟨history, frames, ?_⟩
  intro p there
  have place : p.room = ⟨.ofNat 1⟩ ∧ x.hub.registry.Sits p ∧ y.hub.registry.Sits p := by
    simp only [List.mem_cons, List.not_mem_nil, or_false] at there
    rcases there with rfl | rfl <;> simp [Registry.Sits, members, remain]
  exact (told p place.1 place.2.1 place.2.2).1

end HelpDesk
