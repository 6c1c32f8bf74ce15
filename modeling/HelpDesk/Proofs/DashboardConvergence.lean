import HelpDesk.Proofs.ConversationRows
import HelpDesk.Proofs.DashboardUpdates

/-! What a dashboard shows in the end. A change is committed in one turn and announced in another, and nothing keeps the
announcements in the order of the changes. So the last frame about a conversation shows the row that was announced last,
which is the stored one only if it was also committed last. -/

namespace HelpDesk

def Frame.listed : Frame → List Summary
  | summaries list => list
  | chat _ | error _ | plain _ => []

/-- What frames tell of a conversation, one after the other. -/
def mentions (id : ConversationId) (frames : List Parcel) : List Summary :=
  (frames.flatMap (·.frame.listed)).filter (·.conversation = id)

/-- The row of a conversation that is announced in a turn: what the task made of it in the turn that it had before. -/
def Occurrence.told? (id : ConversationId) (before : List Occurrence) : Occurrence → Option Conversation
  | asked task _ request => request.announced?.bind fun _ => (before.filter (·.isOf task)).getLast?.bind (·.moved? id)
  | received _ | gone _ => none

/-- The rows of a conversation that are announced in some turns, with those that came before. -/
def told (id : ConversationId) (before : List Occurrence) : List Occurrence → List Conversation
  | [] => []
  | o :: os => (o.told? id before).toList ++ told id (before ++ [o]) os

theorem told_append (id : ConversationId) (before os ps : List Occurrence) :
    told id before (os ++ ps) = told id before os ++ told id (before ++ os) ps := by
  induction os generalizing before with
  | nil => simp [told]
  | cons o os ih => simp [told, ih]

theorem mentions_append (id : ConversationId) (frames more : List Parcel) :
    mentions id (frames ++ more) = mentions id frames ++ mentions id more := by
  simp [mentions]

theorem mentions_announcement {c : Conversation} {parcel : Parcel} (frame : announcement c = some parcel)
    (id : ConversationId) : mentions id [parcel] = ((some c).filter (·.id = id)).toList.map .ofConversation := by
  have listed : parcel.frame = .summaries [.ofConversation c] := Frame.frame_of_pack? frame
  by_cases here : c.id = id <;> simp [mentions, listed, Frame.listed, Summary.ofConversation, Option.filter, here]

section Told
variable {before os : List Occurrence} (id : ConversationId)

/-- In an orderly log, what the announcements tell are rows that their tasks have given to the conversation. -/
theorem told?_of_announced (order : Orderly (before ++ os)) {o : Occurrence} {later : List Occurrence}
    (split : os = o :: later) :
    mentions id o.announced?.toList = (o.told? id before).toList.map .ofConversation ∧
      ∀ c, o.told? id before = some c → ∃ p ∈ before, p.moved? id = some c := by
  subst split
  have unsaid (silent : o.announced? = none) : o.told? id before = none := by
    cases o with
    | received queue => rfl
    | gone queue => rfl
    | asked task hub request =>
      have silent : request.announced? = none := silent
      rw [Occurrence.told?, silent, Option.bind_none]
  cases announced : o.announced? with
  | none =>
    rw [unsaid announced]
    refine ⟨rfl, fun c told => by cases told⟩
  | some parcel =>
    obtain ⟨task, hub, request, c, rfl, frame, commit⟩ := order.after before o later parcel rfl announced
    have announced : request.announced? = some parcel := announced
    obtain ⟨p, last, committed⟩ := Option.bind_eq_some_iff.mp commit
    have tells : (Occurrence.asked task hub request).told? id before = (some c).filter (·.id = id) := by
      rw [Occurrence.told?, announced, Option.bind_some, last, Option.bind_some, Occurrence.moved?, committed]
    rw [tells]
    refine ⟨mentions_announcement frame id, ?_⟩
    intro d told
    refine ⟨p, (List.mem_filter.mp (List.mem_of_getLast? last)).1, ?_⟩
    rw [Occurrence.moved?, committed, told]

theorem mentions_told (order : Orderly (before ++ os)) :
    mentions id (os.filterMap (·.announced?)) = (told id before os).map .ofConversation := by
  induction os generalizing before with
  | nil => rfl
  | cons o os ih =>
    have first := (told?_of_announced id order rfl).1
    have rest := @ih (before ++ [o]) (by simpa using order)
    have split : (o :: os).filterMap (·.announced?) = o.announced?.toList ++ os.filterMap (·.announced?) := by
      rw [List.filterMap_cons]
      cases o.announced? <;> rfl
    rw [split, mentions_append, first, rest, told, List.map_append]

theorem moved_of_told (order : Orderly (before ++ os)) {c : Conversation} (there : c ∈ told id before os) :
    c ∈ (before ++ os).filterMap (·.moved? id) := by
  induction os generalizing before with
  | nil => cases there
  | cons o os ih =>
    rcases List.mem_append.mp there with here | later
    · obtain ⟨p, member, moved⟩ := (told?_of_announced id order rfl).2 c (Option.mem_toList.mp here)
      exact List.mem_filterMap.mpr ⟨p, List.mem_append_left _ member, moved⟩
    · have found := @ih (before ++ [o]) (by simpa using order) later
      simpa using found

end Told

theorem row_of_snapshot {s : Store} (ids : (s.conversations.map (·.id)).Nodup) {lead : Parcel}
    (frame : lead.frame = .summaries (s.listActive.map .ofConversation)) {id : ConversationId} {summary : Summary}
    (there : summary ∈ mentions id [lead]) : ∃ c, s.get? id = some c ∧ summary = .ofConversation c := by
  have listed : summary ∈ s.listActive.map .ofConversation ∧ summary.conversation = id := by
    simpa [mentions, frame, Frame.listed] using there
  obtain ⟨there, same⟩ := listed
  obtain ⟨c, active, rfl⟩ := List.mem_map.mp there
  have stored : c ∈ s.conversations := by
    have both : c ∈ s.conversations ∧ c.isActive = true := by simpa [Store.listActive] using active
    exact both.1
  have found : s.get? c.id = some c := Store.get?_of_mem ids stored
  rw [show c.id = id from same] at found
  exact ⟨c, found, rfl⟩

section Turns
variable {hub : Hub} {d : Connection} {operations : List Operation} {turns : List Turn} {log : List Occurrence}
  {y : Execution Unit}

/-- A row that a conversation is given is announced later, once all have finished. -/
theorem told_of_moved (runs : (Execution.of hub operations).run turns = (log, y))
    (finished : ∀ program ∈ y.tasks, program.value?.isSome)
    (dated : ∀ task now, .task task now ∈ turns → now.toChars?.isSome) {before later : List Occurrence} {e : Occurrence}
    (split : log = before ++ e :: later) {id : ConversationId} {c : Conversation} (moved : e.moved? id = some c) :
    c ∈ told id (before ++ [e]) later := by
  obtain ⟨committed, here⟩ := Option.filter_eq_some_iff.mp moved
  cases e with
  | received queue => cases committed
  | gone queue => cases committed
  | asked task found request =>
    have timed : c.updatedAt = found.clock := Hub.updatedAt_of_committed committed
    have framed : (announcement c).isSome := by
      rw [isSome_announcement, timed]
      have asked : .asked task found request ∈ log := split ▸ List.mem_append_right _ List.mem_cons_self
      exact dated task found.clock (Execution.clock_of_asked runs asked)
    obtain ⟨middle, o, rest, rfl, others, mine, announced⟩ :=
      Execution.announced_of_committed runs (announces_of hub operations) finished split committed framed
    rw [told_append]
    apply List.mem_append_right
    apply List.mem_append_left
    cases o with
    | received queue => cases mine
    | gone queue => cases mine
    | asked number k asked =>
      obtain rfl : number = task := by simpa [Occurrence.isOf] using mine
      obtain ⟨parcel, frame⟩ := Option.isSome_iff_exists.mp framed
      have said : asked.announced? = some parcel := announced.trans frame
      have turn : (Occurrence.asked number found request).isOf number = true := beq_self_eq_true number
      have none : middle.filter (·.isOf number) = [] := by
        rw [List.filter_eq_nil_iff]
        intro p there
        simp [others p there]
      rw [Option.mem_toList, Occurrence.told?, said, Option.bind_some, List.filter_append, List.filter_append, none,
        List.filter_cons_of_pos turn, List.filter_nil, List.append_nil, List.getLast?_concat, Option.bind_some]
      exact moved

/-- A conversation of which nothing is told from some point on has the same row from there on. -/
theorem unmoved_of_untold (runs : (Execution.of hub operations).run turns = (log, y))
    (finished : ∀ program ∈ y.tasks, program.value?.isSome)
    (dated : ∀ task now, .task task now ∈ turns → now.toChars?.isSome) {before later : List Occurrence}
    (split : log = before ++ later) {id : ConversationId} (untold : told id before later = []) :
    later.filterMap (·.moved? id) = [] := by
  rw [List.filterMap_eq_nil_iff]
  intro e there
  cases moved : e.moved? id with
  | none => rfl
  | some c =>
    obtain ⟨first, last, rfl⟩ := List.append_of_mem there
    have tells := told_of_moved runs finished dated (split.trans (List.append_assoc before first _).symm) moved
    rw [told_append, told] at untold
    have nothing := List.append_eq_nil_iff.mp (List.append_eq_nil_iff.mp untold).2
    rw [nothing.2] at tells
    cases tells

/-- The row that a conversation was given before the end is not its last, and then it has another status, or it is. -/
theorem last_of_moved (undisturbed : hub.Undisturbed) (runs : (Execution.of hub operations).run turns = (log, y))
    (distinct : hub.Distinct y.hub) {id : ConversationId} {c : Conversation} (moved : c ∈ log.filterMap (·.moved? id)) :
    ∃ row, y.hub.store.get? id = some row ∧ (log.filterMap (·.moved? id)).getLast? = some row ∧
      (c.status = row.status ↔ c = row) := by
  have trail := Execution.run_trail undisturbed runs (Execution.run_new runs distinct) id
  have last := trail.eq_getLast (List.ne_nil_of_mem moved)
  obtain ⟨first, rest, split⟩ := List.append_of_mem moved
  have split' : log.filterMap (·.moved? id) = (first ++ [c]) ++ rest := by
    rw [split]
    simp
  rw [split'] at trail
  obtain ⟨middle, earlier, later⟩ := trail.split
  rw [earlier.eq_getLast (by simp), List.getLast?_concat] at later
  obtain ⟨row, stored, -, ending⟩ := later.follows
  refine ⟨row, stored, last ▸ stored, ?_⟩
  constructor
  · intro same
    rcases ending with ⟨-, rfl⟩ | ⟨-, moves⟩
    · rfl
    · exact absurd same moves.ne
  · rintro rfl
    rfl

theorem row_of_last_mention (undisturbed : hub.Undisturbed) (runs : (Execution.of hub operations).run turns = (log, y))
    (distinct : hub.Distinct y.hub) (finished : ∀ program ∈ y.tasks, program.value?.isSome)
    (dated : ∀ task now, .task task now ∈ turns → now.toChars?.isSome) {before between after rest : List Occurrence}
    {reader : Nat} {reading : Hub} (rests : rest = between ++ .asked reader reading (.store .listActive) :: after)
    (split : log = before ++ rest) {lead : Parcel} (read : reading.snapshot? = some lead) {id : ConversationId}
    {summary : Summary} (last : (mentions id (lead :: rest.filterMap (·.announced?))).getLast? = some summary) :
    ∃ row, y.hub.store.get? id = some row ∧ (summary.status = row.status ↔
      told id before rest = [] ∨ (told id before rest).getLast? = (log.filterMap (·.moved? id)).getLast?) := by
  have order : Orderly (before ++ rest) := split ▸ orderly runs
  have frames : mentions id (lead :: rest.filterMap (·.announced?)) =
      mentions id [lead] ++ (told id before rest).map .ofConversation := by
    rw [← mentions_told id order, ← mentions_append]
    rfl
  rw [frames] at last
  rcases none : told id before rest with _ | ⟨e, others⟩
  · rw [none, List.map_nil, List.append_nil] at last
    have split' : log = (before ++ between) ++ .asked reader reading (.store .listActive) :: after := by
      rw [split, rests, List.append_assoc]
    obtain ⟨-, ⟨_, start⟩, v, _, entered, onward⟩ := Execution.run_asked (split' ▸ runs)
    obtain ⟨_, listed⟩ := reading.answer_reaches (.store .listActive)
    obtain ⟨-, _, onward⟩ := Execution.run_hub onward
    rw [entered] at onward
    have left := listed.trans onward
    obtain ⟨c, found, rfl⟩ := row_of_snapshot (left.fresh (start.distinct_right left distinct)).ids
      (Hub.snapshot?_frame read) (List.mem_of_getLast? last)
    have untold : told id (before ++ between) (.asked reader reading (.store .listActive) :: after) = [] := by
      rw [rests, told_append] at none
      exact (List.append_eq_nil_iff.mp none).2
    have trail := (Execution.trail_of_asked undisturbed (split' ▸ runs) (split' ▸ Execution.run_new runs distinct) id).2
    rw [unmoved_of_untold runs finished dated split' untold, found] at trail
    generalize stored : y.hub.store.get? id = final at trail
    cases trail
    exact ⟨c, rfl, fun _ => .inl rfl, fun _ => rfl⟩
  · obtain ⟨c, final⟩ := Option.isSome_iff_exists.mp (List.getLast?_isSome.mpr (List.cons_ne_nil e others))
    rw [none, List.getLast?_append, List.getLast?_map, final] at last
    obtain rfl : Summary.ofConversation c = summary := Option.some.inj last
    have there : c ∈ told id before rest := none ▸ List.mem_of_getLast? final
    have moved : c ∈ log.filterMap (·.moved? id) := split ▸ moved_of_told id order there
    obtain ⟨row, stored, latest, same⟩ := last_of_moved undisturbed runs distinct moved
    refine ⟨row, stored, ?_⟩
    rw [final, latest, Option.some.injEq]
    exact same.trans ⟨.inr, fun either => either.resolve_left (List.cons_ne_nil e others)⟩

/-- A dashboard that was sent its snapshot, and then all that was announced since it joined. -/
theorem feed_of_dashboard (dashboard : d.room = .dashboard) (valid : hub.registry.Valid)
    (absent : hub.registry.member? .dashboard d.session = none)
    (others : ∀ c, .enter c ∈ operations → c.room = .dashboard → c.session ≠ d.session)
    (runs : (Execution.of hub (.enter d :: operations)).run turns = (log, y)) (finished : y.tasks[0]? = some (.done ())) :
    ∃ earlier joining between reading after queue joined,
      log = earlier ++ .asked 0 joining (.join .dashboard d.session d.identity hub.settings.queueCapacity true) ::
        (between ++ .asked 0 reading (.store .listActive) :: after) ∧
      joining.registry.join .dashboard d.session d.identity hub.settings.queueCapacity true = (queue, joined) ∧
      ∀ lead, reading.snapshot? = some lead → y.hub.registry.Sits ⟨.dashboard, d.session, queue⟩ →
        ∀ rest, rest = between ++ .asked 0 reading (.store .listActive) :: after →
          Registry.put queue joined (rest.filterMap (·.event?)) = lead :: rest.filterMap (·.announced?) ∧
          (.gone queue ∉ rest → Registry.put queue joined (rest.filterMap (·.event?)) =
            Registry.received queue joined (rest.filterMap (·.event?)) ++ y.hub.registry.waiting queue) := by
  obtain ⟨earlier, joining, between, reading, meanwhile, releasing, later, split, mine⟩ :=
    dashboard_turns dashboard runs finished
  rcases joins : joining.registry.join .dashboard d.session d.identity hub.settings.queueCapacity true with ⟨queue, joined⟩
  refine ⟨earlier, joining, between, reading, _, queue, joined, split, joins, ?_⟩
  intro lead read sits rest same
  have rests : rest = (between ++ .asked 0 reading (.store .listActive) :: meanwhile) ++
      .asked 0 releasing (.rooms (.release .dashboard d.session (some lead))) :: later := by
    rw [same, read, List.append_assoc, List.cons_append]
  have apart (o : Occurrence) (there : o ∈ earlier ∨ o ∈ between ++ .asked 0 reading (.store .listActive) :: meanwhile ∨
      o ∈ later) : o.Apart d.session := by
    have listed (other : o ∈ earlier ∨ o ∈ between ∨ o ∈ meanwhile ∨ o ∈ later) : o.Apart d.session := by
      refine apart_of_others others runs ?_ (mine o other)
      rw [split]
      rcases other with other | other | other | other <;> simp [other]
    rw [List.mem_append, List.mem_cons] at there
    rcases there with there | (there | rfl | there) | there
    · exact listed (.inl there)
    · exact listed (.inr (.inl there))
    · exact apart_of_store _ _ _ _
    · exact listed (.inr (.inr (.inl there)))
    · exact listed (.inr (.inr (.inr there)))
  obtain ⟨put, -, all⟩ := frames_of_dashboard valid absent apart rests (same ▸ split ▸ runs) joins sits
  exact ⟨put, all⟩

/-- All operations have finished, and every time that the clock showed has a text. What a dashboard is told last about a
conversation, if it has its snapshot and was never removed, is the stored status if nothing was announced about the
conversation since the dashboard joined, or if the row that was announced last is also the one that was stored last; and
otherwise it is not. -/
theorem last_mention_is_current_iff (dashboard : d.room = .dashboard) (valid : hub.registry.Valid)
    (absent : hub.registry.member? .dashboard d.session = none)
    (others : ∀ c, .enter c ∈ operations → c.room = .dashboard → c.session ≠ d.session)
    (undisturbed : hub.Undisturbed) (runs : (Execution.of hub (.enter d :: operations)).run turns = (log, y))
    (distinct : hub.Distinct y.hub) (finished : ∀ program ∈ y.tasks, program.value?.isSome)
    (dated : ∀ task now, .task task now ∈ turns → now.toChars?.isSome) :
    ∃ earlier entering joining rest reading queue joined,
      log = earlier ++ entering :: rest ∧
      entering = .asked 0 joining (.join .dashboard d.session d.identity hub.settings.queueCapacity true) ∧
      joining.registry.join .dashboard d.session d.identity hub.settings.queueCapacity true = (queue, joined) ∧
      .asked 0 reading (.store .listActive) ∈ rest ∧
      ∀ lead, reading.snapshot? = some lead → y.hub.registry.Sits ⟨.dashboard, d.session, queue⟩ →
        (.gone queue ∉ log → Registry.received queue joined (rest.filterMap (·.event?)) ++ y.hub.registry.waiting queue =
          Registry.put queue joined (rest.filterMap (·.event?))) ∧
        ∀ id summary, (mentions id (Registry.put queue joined (rest.filterMap (·.event?)))).getLast? = some summary →
          ∃ row, y.hub.store.get? id = some row ∧
            (summary.status = row.status ↔ told id (earlier ++ [entering]) rest = [] ∨
              (told id (earlier ++ [entering]) rest).getLast? = (log.filterMap (·.moved? id)).getLast?) := by
  have ended : y.tasks[0]? = some (.done ()) := by
    have bound : 0 < y.tasks.length := by
      rw [Execution.run_length runs]
      exact Nat.succ_pos _
    obtain ⟨value, result⟩ := Option.isSome_iff_exists.mp (finished _ (List.getElem_mem bound))
    rw [List.getElem?_eq_getElem bound, Program.eq_done_of_value? result]
  obtain ⟨earlier, joining, between, reading, after, queue, joined, split, joins, feed⟩ :=
    feed_of_dashboard dashboard valid absent others runs ended
  refine ⟨earlier, _, joining, _, reading, queue, joined, split, rfl, joins,
    List.mem_append_right between List.mem_cons_self, ?_⟩
  intro lead read sits
  obtain ⟨put, all⟩ := feed lead read sits _ rfl
  generalize entered : Occurrence.asked 0 joining
    (.join .dashboard d.session d.identity hub.settings.queueCapacity true) = entering at split ⊢
  have rest : log = (earlier ++ [entering]) ++ (between ++ .asked 0 reading (.store .listActive) :: after) := by
    rw [split]
    simp
  refine ⟨fun kept => (all fun there => kept ?_).symm, ?_⟩
  · rw [split]
    exact List.mem_append_right _ (List.mem_cons_of_mem _ there)
  · intro id summary last
    rw [put] at last
    exact row_of_last_mention undisturbed runs distinct finished dated rfl rest read last

end Turns

/-- Staff open a conversation and the owner closes it, and both of that is announced as it was done. -/
theorem last_mention_is_current_of_order :
    let hub : Hub := { settings := .default, clock := ⟨0, 0⟩, mint := fun n => .ofNat (n + 1) }
    let d : Connection := ⟨⟨1⟩, ⟨⟨.ofNat 1000⟩, .admin⟩, .dashboard⟩
    let customer : Identity := ⟨⟨.ofNat 1001⟩, .user⟩
    let operations : List Operation :=
      [.start customer "a" none, .memberJoined ⟨.ofNat 1⟩ d.identity, .close ⟨.ofNat 1⟩ customer]
    let turns : List Turn := [.task 1 ⟨1, 0⟩, .task 1 ⟨2, 0⟩, .task 0 ⟨3, 0⟩, .task 0 ⟨4, 0⟩, .task 0 ⟨5, 0⟩,
      .task 2 ⟨6, 0⟩, .task 2 ⟨7, 0⟩, .task 3 ⟨8, 0⟩, .task 3 ⟨9, 0⟩, .task 2 ⟨10, 0⟩, .task 3 ⟨11, 0⟩]
    let (log, y) := (Execution.of hub (.enter d :: operations)).run turns
    (∃ reading, .asked 0 reading (.store .listActive) ∈ log) ∧
      (mentions ⟨.ofNat 1⟩ (y.hub.registry.waiting ⟨0⟩)).map (·.status) = [.pending, .opened, .closed] ∧
      (y.hub.store.get? ⟨.ofNat 1⟩).map (·.status) = some .closed := by
  intro hub d customer operations turns
  have others : ∀ c, .enter c ∈ operations → c.room = .dashboard → c.session ≠ d.session := by
    simp [operations]
  have distinct : hub.Distinct ((Execution.of hub (.enter d :: operations)).run turns).2.hub := by
    unfold Hub.Distinct
    decide +kernel
  have finished : ∀ program ∈ ((Execution.of hub (.enter d :: operations)).run turns).2.tasks, program.value?.isSome := by
    decide +kernel
  have dated : ∀ task now, .task task now ∈ turns → now.toChars?.isSome := Turn.dated (by decide +kernel)
  have undisturbed : hub.Undisturbed := fun _ _ there => by cases there
  have shown : (mentions ⟨.ofNat 1⟩ (((Execution.of hub (.enter d :: operations)).run turns).2.hub.registry.waiting
      ⟨0⟩)).map (·.status) = [.pending, .opened, .closed] := by decide +kernel
  have stored : (((Execution.of hub (.enter d :: operations)).run turns).2.hub.store.get? ⟨.ofNat 1⟩).map (·.status) =
      some .closed := by decide +kernel
  rcases runs : (Execution.of hub (.enter d :: operations)).run turns with ⟨log, y⟩
  rw [runs] at distinct finished shown stored
  obtain ⟨earlier, entering, joining, rest, reading, queue, joined, split, -, -, asked, -⟩ :=
    last_mention_is_current_iff rfl Registry.Valid.initial rfl others undisturbed runs distinct finished dated
  have there : .asked 0 reading (.store .listActive) ∈ log := by
    rw [split]
    exact List.mem_append_right _ (List.mem_cons_of_mem _ asked)
  exact ⟨⟨reading, there⟩, shown, stored⟩

/-- Staff open a conversation, and the owner closes it before that is announced: the dashboard is told last that it is
open, and it stays so. -/
theorem last_mention_is_overtaken :
    let hub : Hub := { settings := .default, clock := ⟨0, 0⟩, mint := fun n => .ofNat (n + 1) }
    let d : Connection := ⟨⟨1⟩, ⟨⟨.ofNat 1000⟩, .admin⟩, .dashboard⟩
    let customer : Identity := ⟨⟨.ofNat 1001⟩, .user⟩
    let operations : List Operation :=
      [.start customer "a" none, .memberJoined ⟨.ofNat 1⟩ d.identity, .close ⟨.ofNat 1⟩ customer]
    let turns : List Turn := [.task 1 ⟨1, 0⟩, .task 1 ⟨2, 0⟩, .task 0 ⟨3, 0⟩, .task 0 ⟨4, 0⟩, .task 0 ⟨5, 0⟩,
      .task 2 ⟨6, 0⟩, .task 2 ⟨7, 0⟩, .task 3 ⟨8, 0⟩, .task 3 ⟨9, 0⟩, .task 3 ⟨10, 0⟩, .task 2 ⟨11, 0⟩]
    let y := ((Execution.of hub (.enter d :: operations)).run turns).2
    (∀ program ∈ y.tasks, program.value?.isSome) ∧
      y.hub.registry.members .dashboard = [⟨d.session, d.identity, ⟨0⟩, none⟩] ∧
      (mentions ⟨.ofNat 1⟩ (y.hub.registry.waiting ⟨0⟩)).map (·.status) = [.pending, .closed, .opened] ∧
      (y.hub.store.get? ⟨.ofNat 1⟩).map (·.status) = some .closed := by
  decide +kernel

end HelpDesk
