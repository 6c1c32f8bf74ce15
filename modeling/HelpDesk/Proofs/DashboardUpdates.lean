import HelpDesk.Proofs.Operations
import HelpDesk.Proofs.RegistryDelivery

/-! A dashboard misses nothing. It joins before it reads its snapshot, and a change is committed before it is announced:
so a change that is announced too early for the dashboard is in the snapshot, and every other comes after it. -/

namespace HelpDesk

/-- The frame with the snapshot that is read, if it is read and has a text. -/
def snapshot? : Except StoreError (List Conversation) → Option Parcel
  | .ok cs => (Frame.summaries (cs.map .ofConversation)).pack?
  | .error _ => none

/-- The frame that a dashboard begins with if it reads its snapshot now. -/
def Hub.snapshot? (h : Hub) : Option Parcel :=
  HelpDesk.snapshot? (h.callStore .listActive).1

/-- A list of summaries shows what has become of a conversation by now: its row as it is, or nothing, if it is closed. -/
def Shown (list : List Summary) (s : Store) (c : Conversation) : Prop :=
  ∃ row, s.get? c.id = some row ∧ Store.Follows c row ∧
    (row.isActive = true → .ofConversation row ∈ list) ∧
    (row.isActive = false → ∀ summary ∈ list, summary.conversation ≠ c.id)

/-- The list that is read is that of the store as it is found. -/
theorem Hub.list_of_read {h : Hub} {list : List Conversation}
    (read : (h.callStore .listActive).1 = .ok list) : list = h.store.listActive := by
  have called := h.callStore_called .listActive
  generalize h.callStore .listActive = outcome at called read
  cases called with
  | failed error l same registry => cases read
  | carried answer k l performed reaches others overtaken registry =>
    obtain ⟨rfl, -⟩ := Prod.mk.inj (Except.ok.inj performed)
    exact (Except.ok.inj read).symm

theorem Hub.snapshot?_frame {h : Hub} {lead : Parcel} (read : h.snapshot? = some lead) :
    lead.frame = .summaries (h.store.listActive.map .ofConversation) := by
  unfold Hub.snapshot? at read
  cases found : (h.callStore .listActive).1 with
  | error error =>
    rw [found] at read
    cases read
  | ok list =>
    rw [found] at read
    obtain rfl := list_of_read found
    exact Frame.frame_of_pack? read

theorem Store.shown_of_get? {s : Store} (ids : (s.conversations.map (·.id)).Nodup) {c row : Conversation}
    (stored : s.get? c.id = some row) (follows : Follows c row) :
    Shown (s.listActive.map .ofConversation) s c := by
  have listed (d : Conversation) : d ∈ s.listActive ↔ d ∈ s.conversations ∧ d.isActive = true := by
    simp [listActive, List.mem_mergeSort]
  refine ⟨row, stored, follows, ?_, ?_⟩
  · intro active
    exact List.mem_map.mpr ⟨row, (listed row).mpr ⟨mem_of_get? stored, active⟩, rfl⟩
  · intro closed summary there same
    obtain ⟨d, member, rfl⟩ := List.mem_map.mp there
    obtain ⟨present, active⟩ := (listed d).mp member
    have found := get?_of_mem ids present
    rw [show d.id = c.id from same, stored] at found
    cases found
    cases closed.symm.trans active

theorem program_of_dashboard (session : SessionId) (identity : Identity) (settings : Settings) :
    (Operation.enter ⟨session, identity, .dashboard⟩).program settings =
      .ask (.join .dashboard session identity settings.queueCapacity true) fun _ => .ask (.store .listActive) fun reply =>
        .ask (.rooms (.release .dashboard session (snapshot? reply))) fun _ => .done () := by
  have dashboard : (Connection.mk session identity .dashboard).isDashboard = true := by
    simp [Connection.isDashboard, ConversationId.isDashboard]
  simp only [Operation.program, Connection.enter, Connection.afterJoin, dashboard, if_true]
  show Program.ask _ _ = _
  congr 1
  funext queue
  show Program.ask _ _ = _
  congr 1
  funext reply
  cases reply with
  | error error => rfl
  | ok cs => rfl

theorem path_of_dashboard {session : SessionId} {identity : Identity} {settings : Settings} {os : List Occurrence}
    (path : ((Operation.enter ⟨session, identity, .dashboard⟩).program settings).Path os (.done ())) :
    ∃ first joining second reading third releasing, os =
      [.asked first joining (.join .dashboard session identity settings.queueCapacity true),
        .asked second reading (.store .listActive),
        .asked third releasing (.rooms (.release .dashboard session reading.snapshot?))] := by
  rw [program_of_dashboard] at path
  cases path with
  | cons first joining path =>
    cases path with
    | cons second reading path =>
      cases path with
      | cons third releasing path =>
        cases path
        exact ⟨first, joining, second, reading, third, releasing, rfl⟩

section Turns
variable {hub : Hub} {d : Connection} {operations : List Operation} {turns : List Turn} {log : List Occurrence}
  {y : Execution Unit}

/-- The dashboard's three turns, and what happens before, between and after them. -/
theorem dashboard_turns (dashboard : d.room = .dashboard)
    (runs : (Execution.of hub (.enter d :: operations)).run turns = (log, y)) (finished : y.tasks[0]? = some (.done ())) :
    ∃ earlier joining between reading meanwhile releasing later,
      log = earlier ++ .asked 0 joining (.join .dashboard d.session d.identity hub.settings.queueCapacity true) ::
        (between ++ .asked 0 reading (.store .listActive) ::
        (meanwhile ++ .asked 0 releasing (.rooms (.release .dashboard d.session reading.snapshot?)) :: later)) ∧
      ∀ o, o ∈ earlier ∨ o ∈ between ∨ o ∈ meanwhile ∨ o ∈ later → o.isOf 0 = false := by
  obtain ⟨session, identity, room⟩ := d
  cases dashboard
  have there : (Execution.of hub (.enter ⟨session, identity, .dashboard⟩ :: operations)).tasks[0]? =
      some ((Operation.enter ⟨session, identity, .dashboard⟩).program hub.settings) := rfl
  obtain ⟨last, done, path⟩ := Execution.run_path runs there
  cases finished.symm.trans done
  obtain ⟨first, joining, second, reading, third, releasing, own⟩ := path_of_dashboard path
  obtain ⟨earlier, afterJoin, rfl, before, mine, own⟩ := List.filter_eq_cons_iff.mp own
  obtain ⟨between, afterRead, rfl, middle, also, two⟩ := List.filter_eq_cons_iff.mp own
  obtain ⟨meanwhile, later, rfl, waits, too, none⟩ := List.filter_eq_cons_iff.mp two
  simp only [Occurrence.isOf, beq_iff_eq] at mine also too
  subst mine also too
  refine ⟨earlier, joining, between, reading, meanwhile, releasing, later, rfl, ?_⟩
  rintro o (there | there | there | there)
  · simpa using before o there
  · simpa using middle o there
  · simpa using waits o there
  · simpa using List.filter_eq_nil_iff.mp none o there

/-- What happens is not to a session among the dashboards. -/
def Occurrence.Apart (session : SessionId) (o : Occurrence) : Prop :=
  ∀ task hub request, o = .asked task hub request → ¬ request.isTo .dashboard session

theorem apart_of_store (session : SessionId) (task : Nat) (found : Hub) (call : Store.Call) :
    (Occurrence.asked task found (.store call)).Apart session := by
  rintro _ _ _ ⟨⟩
  exact id

theorem apart_of_others (others : ∀ c, .enter c ∈ operations → c.room = .dashboard → c.session ≠ d.session)
    (runs : (Execution.of hub (.enter d :: operations)).run turns = (log, y)) {o : Occurrence} (there : o ∈ log)
    (other : o.isOf 0 = false) : o.Apart d.session := by
  rintro task found request rfl
  obtain ⟨before, after, split⟩ := List.append_of_mem there
  obtain ⟨program, last, own, path⟩ := Execution.run_program runs split
  cases task with
  | zero => cases other
  | succ n =>
    have own' : (operations.map (·.program hub.settings))[n]? = some program := own
    rw [List.getElem?_map, Option.map_eq_some_iff] at own'
    obtain ⟨operation, held, rfl⟩ := own'
    have serves : Program.Serves fun request => ¬ request.isTo .dashboard d.session := ⟨fun _ => id, fun _ => id⟩
    have permitted : operation.Permitted fun request => ¬ request.isTo .dashboard d.session := by
      apply Operation.permitted_apart
      intro c same
      exact others c (same ▸ List.mem_of_getElem? held)
    exact Execution.run_allowed runs own (Operation.announces serves permitted hub.settings) there

theorem announces_of (hub : Hub) (operations : List Operation) (task : Nat) (program : Program Unit)
    (there : (Execution.of hub operations).tasks[task]? = some program) : program.Announces (fun _ => True) none := by
  have there' : (operations.map (·.program hub.settings))[task]? = some program := there
  rw [List.getElem?_map, Option.map_eq_some_iff] at there'
  obtain ⟨operation, -, rfl⟩ := there'
  exact Operation.announces ⟨fun _ => trivial, fun _ => trivial⟩ operation.permitted_true hub.settings

theorem orderly (runs : (Execution.of hub operations).run turns = (log, y)) : Orderly log :=
  Execution.run_orderly (fun _ => True) runs (announces_of hub operations)

section Apart
variable {session : SessionId} (queue : QueueId) {os : List Occurrence}

/-- What is not to a dashboard is offered to it only if it is announced to all. -/
theorem offered_of_apart {o : Occurrence} (apart : o.Apart session) :
    o.event?.elim [] (Registry.Event.offered ⟨.dashboard, session, queue⟩) = o.announced?.toList := by
  cases o with
  | received id => rfl
  | gone id => rfl
  | asked task hub request =>
    have apart := apart task hub request rfl
    cases request with
    | store call => rfl
    | roomCount => rfl
    | join room who identity capacity holding => rfl
    | rooms command =>
      cases command with
      | leave room who => rfl
      | broadcast room parcel =>
        by_cases here : room = .dashboard <;>
          simp [Occurrence.event?, Request.event?, Registry.Event.offered, Occurrence.announced?, Request.announced?, here]
      | sendTo room who parcel => exact if_neg apart
      | release room who lead => exact if_neg apart

theorem offered_all (apart : ∀ o ∈ os, o.Apart session) :
    (os.filterMap (·.event?)).flatMap (·.offered ⟨.dashboard, session, queue⟩) = os.filterMap (·.announced?) := by
  induction os with
  | nil => rfl
  | cons o os ih =>
    have first := offered_of_apart queue (apart o List.mem_cons_self)
    have rest := ih fun x there => apart x (List.mem_cons_of_mem o there)
    rw [List.filterMap_cons, List.filterMap_cons]
    cases event : o.event? with
    | none =>
      rw [event] at first
      cases announced : o.announced? with
      | none => exact rest
      | some parcel => simp [announced] at first
    | some e =>
      rw [event] at first
      rw [List.flatMap_cons, rest, show e.offered _ = _ from first]
      cases o.announced? <;> rfl

theorem release?_of_apart (apart : ∀ o ∈ os, o.Apart session) :
    ∀ e ∈ os.filterMap (·.event?), e.release? ⟨.dashboard, session, queue⟩ = none := by
  intro e there
  obtain ⟨o, member, event⟩ := List.mem_filterMap.mp there
  cases o with
  | received id =>
    cases event
    rfl
  | gone id =>
    cases event
    rfl
  | asked task hub request =>
    have apart := apart _ member task hub request rfl
    rcases request with _ | command | _ | _
    · cases event
    · cases event
      cases command with
      | release room who lead => exact if_neg apart
      | _ => rfl
    · cases event
      rfl
    · cases event

/-- A dashboard that joined, was released with a lead and is still there was sent the lead, and then all that was
announced since it joined. -/
theorem put_of_dashboard {r joined : Registry Parcel} {identity : Identity} {capacity : Nat} {queue : QueueId}
    (valid : r.Valid) (absent : r.member? .dashboard session = none)
    (joins : r.join .dashboard session identity capacity true = (queue, joined)) (lead : Option Parcel)
    {first last : List Occurrence} (before : ∀ o ∈ first, o.Apart session) (after : ∀ o ∈ last, o.Apart session)
    {es : List (Registry.Event Parcel)}
    (events : es = first.filterMap (·.event?) ++ .command (.release .dashboard session lead) :: last.filterMap (·.event?))
    (sits : (joined.after es).Sits ⟨.dashboard, session, queue⟩) :
    Registry.put queue joined es = lead.toList ++ (first ++ last).filterMap (·.announced?) := by
  obtain ⟨stay, rest, fits, member⟩ := Registry.membership_of_join valid absent joins es
  rcases member.ending with ⟨rfl, rfl⟩ | ⟨e, later, rfl, -, never⟩
  · have split := member.split
    rw [List.append_nil] at split
    have due := Registry.due_of_release ⟨.dashboard, session, queue⟩ [] lead (release?_of_apart queue before)
      (last.filterMap (·.event?))
    rw [member.put, ← split, if_pos rfl, List.append_nil, events]
    apply due.trans
    rw [List.append_nil, ← List.filterMap_append, offered_all queue]
    intro o there
    rcases List.mem_append.mp there with there | there
    · exact before o there
    · exact after o there
  · rw [member.split] at sits
    exact absurd sits (never later (List.prefix_refl later))

end Apart

theorem shown_of_committed {x : Execution Unit} (runs : x.run turns = (log, y)) (distinct : x.hub.Distinct y.hub)
    {first middle last : List Occurrence} {task reader : Nat} {found reading : Hub} {request : Request} {c : Conversation}
    (split : log = first ++ .asked task found request :: (middle ++ .asked reader reading (.store .listActive) :: last))
    (committed : (Occurrence.asked task found request).committed? = some c) :
    Shown (reading.store.listActive.map .ofConversation) reading.store c := by
  obtain ⟨-, ⟨_, start⟩, v, _, after, later⟩ := Execution.run_asked (split ▸ runs)
  obtain ⟨-, ⟨_, between⟩, w, _, after', remaining⟩ := Execution.run_asked later
  obtain ⟨_, answered⟩ := found.answer_reaches request
  obtain ⟨_, listed⟩ := reading.answer_reaches (.store .listActive)
  obtain ⟨-, _, rest⟩ := Execution.run_hub remaining
  rw [after] at between
  rw [after'] at rest
  have left := listed.trans rest
  have distinct' := start.distinct_right (answered.trans (between.trans left)) distinct
  obtain ⟨_, k, _, commit, stored, others⟩ := Hub.committed_stored committed
    (answered.distinct_left (between.trans left) distinct')
  have onward := others.trans between
  have later := commit.distinct_right (onward.trans left) distinct'
  obtain ⟨row, present, follows⟩ := (onward.grows (onward.distinct_left left later)).rows c.id c stored
  exact Store.shown_of_get? (left.fresh (onward.distinct_right left later)).ids present follows

theorem gone_of_endReceiving {os : List Occurrence} {queue : QueueId}
    (there : .endReceiving queue ∈ os.filterMap (·.event?)) : .gone queue ∈ os := by
  obtain ⟨o, member, event⟩ := List.mem_filterMap.mp there
  rcases o with ⟨task, found, _ | _ | _ | _⟩ | id | id <;> cases event
  exact member

theorem join_of_event {os : List Occurrence} {session : SessionId} (apart : ∀ o ∈ os, o.Apart session)
    (identity : Identity) (capacity : Nat) (holding : Bool) :
    .join .dashboard session identity capacity holding ∉ os.filterMap (·.event?) := by
  intro there
  obtain ⟨o, member, event⟩ := List.mem_filterMap.mp there
  rcases o with ⟨task, found, _ | _ | _ | _⟩ | id | id <;> cases event
  exact apart _ member task found _ rfl ⟨rfl, rfl⟩

theorem commit_of_announced {before : List Occurrence} {task : Nat} {c : Conversation}
    (last : (before.filter (·.isOf task)).getLast?.bind (·.committed?) = some c) :
    ∃ first middle found request, before = first ++ .asked task found request :: middle ∧
      (Occurrence.asked task found request).committed? = some c := by
  obtain ⟨o, found, committed⟩ := Option.bind_eq_some_iff.mp last
  obtain ⟨there, own⟩ := List.mem_filter.mp (List.mem_of_getLast? found)
  obtain ⟨first, middle, rfl⟩ := List.append_of_mem there
  cases o with
  | received id => cases own
  | gone id => cases own
  | asked number hub request =>
    simp only [Occurrence.isOf, beq_iff_eq] at own
    subst own
    exact ⟨first, middle, hub, request, rfl, committed⟩

/-- What a dashboard is sent and receives from its join on, if it is released and still there. -/
theorem frames_of_dashboard {x : Execution Unit} {session : SessionId} {identity : Identity} {capacity : Nat}
    {lead : Option Parcel} {earlier first last : List Occurrence} {joining releasing : Hub} {queue : QueueId}
    {joined : Registry Parcel} (valid : x.hub.registry.Valid) (absent : x.hub.registry.member? .dashboard session = none)
    (apart : ∀ o, o ∈ earlier ∨ o ∈ first ∨ o ∈ last → o.Apart session) {rest : List Occurrence}
    (rests : rest = first ++ .asked 0 releasing (.rooms (.release .dashboard session lead)) :: last)
    (runs : x.run turns = (earlier ++ .asked 0 joining (.join .dashboard session identity capacity true) :: rest, y))
    (joins : joining.registry.join .dashboard session identity capacity true = (queue, joined))
    (sits : y.hub.registry.Sits ⟨.dashboard, session, queue⟩) :
    Registry.put queue joined (rest.filterMap (·.event?)) = lead.toList ++ rest.filterMap (·.announced?) ∧
    Registry.received queue joined (rest.filterMap (·.event?)) <+: Registry.put queue joined (rest.filterMap (·.event?)) ∧
    (.gone queue ∉ rest → Registry.put queue joined (rest.filterMap (·.event?)) =
      Registry.received queue joined (rest.filterMap (·.event?)) ++ y.hub.registry.waiting queue) := by
  obtain ⟨found, -, v, turns', after, onward⟩ := Execution.run_asked runs
  have valid' : joining.registry.Valid := found ▸ valid.after _
  have absent' : joining.registry.member? .dashboard session = none := by
    rw [found]
    exact Registry.absent_after valid absent (join_of_event fun o there => apart o (.inl there))
  have entered : v.hub.registry = joined := by
    rw [after, Hub.answer_registry]
    exact congrArg Prod.snd joins
  have final := (Execution.run_hub onward).1
  rw [entered] at final
  obtain ⟨obtains, all⟩ := Registry.received_of_join valid' absent' joins (rest.filterMap (·.event?))
  refine ⟨?_, obtains, ?_⟩
  · rw [final] at sits
    have put := put_of_dashboard valid' absent' joins lead (fun o there => apart o (.inr (.inl there)))
      (fun o there => apart o (.inr (.inr there))) (by rw [rests, List.filterMap_append]; rfl) sits
    rw [put, rests, List.filterMap_append, List.filterMap_append]
    rfl
  · intro kept
    rw [final]
    exact (all fun there => kept (gone_of_endReceiving there)).1

/-- What is announced before a dashboard joins is shown in its snapshot, which it reads afterwards. -/
theorem shown_of_announced {x : Execution Unit} (runs : x.run turns = (log, y)) (distinct : x.hub.Distinct y.hub)
    (order : Orderly log) {before after last : List Occurrence} {o : Occurrence} {reader : Nat} {reading : Hub}
    {parcel : Parcel}
    (split : log = before ++ o :: (after ++ .asked reader reading (.store .listActive) :: last))
    (announced : o.announced? = some parcel) :
    ∃ task found request c, o = .asked task found request ∧ announcement c = some parcel ∧
      (before.filter (·.isOf task)).getLast?.bind (·.committed?) = some c ∧
      Shown (reading.store.listActive.map .ofConversation) reading.store c := by
  obtain ⟨task, found, request, c, same, frame, commit⟩ := order.after before o _ parcel split announced
  refine ⟨task, found, request, c, same, frame, commit, ?_⟩
  obtain ⟨first, middle, hub, asked, rfl, committed⟩ := commit_of_announced commit
  have split' : log = first ++ .asked task hub asked ::
      ((middle ++ o :: after) ++ .asked reader reading (.store .listActive) :: last) := by
    rw [split]
    simp
  exact shown_of_committed runs distinct split' committed

/-- A dashboard joins, reads its snapshot and is released, each in a turn of its own, while any number of operations take
theirs. All that they announce is what they have just committed. If the snapshot is read and has a text and the dashboard
is never removed, then it is sent the snapshot first, and after it each frame that was announced since it joined, once and
in that order; and whatever was announced before it joined was committed before it read, and is shown in the snapshot. -/
theorem no_lost_update (dashboard : d.room = .dashboard) (valid : hub.registry.Valid)
    (absent : hub.registry.member? .dashboard d.session = none)
    (others : ∀ c, .enter c ∈ operations → c.room = .dashboard → c.session ≠ d.session)
    (runs : (Execution.of hub (.enter d :: operations)).run turns = (log, y)) (distinct : hub.Distinct y.hub)
    (finished : y.tasks[0]? = some (.done ())) :
    Orderly log ∧ ∃ earlier joining rest between reading meanwhile releasing later queue joined,
      log = earlier ++ .asked 0 joining (.join .dashboard d.session d.identity hub.settings.queueCapacity true) :: rest ∧
      rest = between ++ .asked 0 reading (.store .listActive) ::
        (meanwhile ++ .asked 0 releasing (.rooms (.release .dashboard d.session reading.snapshot?)) :: later) ∧
      joining.registry.join .dashboard d.session d.identity hub.settings.queueCapacity true = (queue, joined) ∧
      ∀ lead, reading.snapshot? = some lead → y.hub.registry.Sits ⟨.dashboard, d.session, queue⟩ →
        Registry.put queue joined (rest.filterMap (·.event?)) = lead :: rest.filterMap (·.announced?) ∧
        Registry.received queue joined (rest.filterMap (·.event?)) <+: lead :: rest.filterMap (·.announced?) ∧
        (.gone queue ∉ log → Registry.received queue joined (rest.filterMap (·.event?)) ++ y.hub.registry.waiting queue =
          lead :: rest.filterMap (·.announced?)) ∧
        ∃ list, lead.frame = .summaries list ∧
          ∀ before o after parcel, earlier = before ++ o :: after → o.announced? = some parcel →
            ∃ task found request c, o = .asked task found request ∧ announcement c = some parcel ∧
              (before.filter (·.isOf task)).getLast?.bind (·.committed?) = some c ∧ Shown list reading.store c := by
  obtain ⟨earlier, joining, between, reading, meanwhile, releasing, later, split, mine⟩ :=
    dashboard_turns dashboard runs finished
  have order := orderly runs
  refine ⟨order, ?_⟩
  rcases joins : joining.registry.join .dashboard d.session d.identity hub.settings.queueCapacity true with ⟨queue, joined⟩
  refine ⟨earlier, joining, _, between, reading, meanwhile, releasing, later, queue, joined, split, rfl, joins, ?_⟩
  intro lead read sits
  have rests : between ++ .asked 0 reading (.store .listActive) ::
      (meanwhile ++ .asked 0 releasing (.rooms (.release .dashboard d.session reading.snapshot?)) :: later) =
      (between ++ .asked 0 reading (.store .listActive) :: meanwhile) ++
        .asked 0 releasing (.rooms (.release .dashboard d.session reading.snapshot?)) :: later := by simp
  generalize between ++ .asked 0 reading (.store .listActive) ::
    (meanwhile ++ .asked 0 releasing (.rooms (.release .dashboard d.session reading.snapshot?)) :: later) = rest at *
  -- of all that happens, only the dashboard's own join and release are to it
  have apart : ∀ o, o ∈ earlier ∨ o ∈ between ++ .asked 0 reading (.store .listActive) :: meanwhile ∨ o ∈ later →
      o.Apart d.session := by
    have listed (o : Occurrence) (there : o ∈ earlier ∨ o ∈ between ∨ o ∈ meanwhile ∨ o ∈ later) : o.Apart d.session := by
      refine apart_of_others others runs ?_ (mine o there)
      rw [split, rests]
      rcases there with there | there | there | there <;> simp [there]
    rintro o (there | there | there)
    · exact listed o (.inl there)
    · rcases List.mem_append.mp there with there | there
      · exact listed o (.inr (.inl there))
      · rcases List.mem_cons.mp there with rfl | there
        · exact apart_of_store _ _ _ _
        · exact listed o (.inr (.inr (.inl there)))
    · exact listed o (.inr (.inr (.inr there)))
  obtain ⟨put, obtains, all⟩ := frames_of_dashboard valid absent apart rests (split ▸ runs) joins sits
  rw [read, Option.toList_some, List.singleton_append] at put
  rw [put] at obtains all
  refine ⟨put, obtains, ?_, _, Hub.snapshot?_frame read, ?_⟩
  · intro kept
    refine (all fun there => kept ?_).symm
    rw [split]
    exact List.mem_append_right _ (List.mem_cons_of_mem _ there)
  · rintro before o after parcel rfl announced
    -- the join and whatever came between it and the read are no more than part of what followed the announcement
    have split' : log = before ++ o ::
        ((after ++ .asked 0 joining (.join .dashboard d.session d.identity hub.settings.queueCapacity true) :: between) ++
          .asked 0 reading (.store .listActive) ::
          (meanwhile ++ .asked 0 releasing (.rooms (.release .dashboard d.session reading.snapshot?)) :: later)) := by
      rw [split, rests]
      simp
    exact shown_of_announced runs distinct order split' announced

end Turns

/-- A conversation is announced before the dashboard joins. It is closed when the dashboard has read it, but the dashboard
is not yet released when that is announced. -/
theorem no_lost_update_while_parked :
    let hub : Hub := { settings := .default, clock := ⟨0, 0⟩, mint := fun n => .ofNat (n + 1) }
    let d : Connection := ⟨⟨1⟩, ⟨⟨.ofNat 1000⟩, .admin⟩, .dashboard⟩
    let customer : Identity := ⟨⟨.ofNat 1001⟩, .user⟩
    let operations : List Operation := [.start customer "a" none, .close ⟨.ofNat 1⟩ customer]
    let turns : List Turn := [.task 1 ⟨1, 0⟩, .task 1 ⟨2, 0⟩, .task 0 ⟨3, 0⟩, .task 2 ⟨4, 0⟩, .task 0 ⟨5, 0⟩,
      .task 2 ⟨6, 0⟩, .task 2 ⟨7, 0⟩, .task 0 ⟨8, 0⟩]
    let (log, y) := (Execution.of hub (.enter d :: operations)).run turns
    hub.Distinct y.hub ∧ Orderly log ∧ y.hub.registry.Sits ⟨.dashboard, d.session, ⟨0⟩⟩ ∧
      (y.hub.registry.waiting ⟨0⟩).map (·.frame) = [.summaries [⟨⟨.ofNat 1⟩, customer.user, .pending, ⟨1, 0⟩⟩],
        .summaries [⟨⟨.ofNat 1⟩, customer.user, .closed, ⟨6, 0⟩⟩]] := by
  intro hub d customer operations turns
  have others : ∀ c, .enter c ∈ operations → c.room = .dashboard → c.session ≠ d.session := by
    simp [operations]
  have distinct : hub.Distinct ((Execution.of hub (.enter d :: operations)).run turns).2.hub := by
    unfold Hub.Distinct
    decide +kernel
  have ended : ((Execution.of hub (.enter d :: operations)).run turns).2.tasks[0]?.bind (·.value?) = some () := by
    decide +kernel
  have members : ((Execution.of hub (.enter d :: operations)).run turns).2.hub.registry.members .dashboard =
      [⟨d.session, d.identity, ⟨0⟩, none⟩] := by decide +kernel
  have waiting : (((Execution.of hub (.enter d :: operations)).run turns).2.hub.registry.waiting ⟨0⟩).map (·.frame) =
      [.summaries [⟨⟨.ofNat 1⟩, customer.user, .pending, ⟨1, 0⟩⟩],
        .summaries [⟨⟨.ofNat 1⟩, customer.user, .closed, ⟨6, 0⟩⟩]] := by decide +kernel
  rcases runs : (Execution.of hub (.enter d :: operations)).run turns with ⟨log, y⟩
  rw [runs] at distinct ended members waiting
  have finished : y.tasks[0]? = some (.done ()) := by
    obtain ⟨program, there, value⟩ := Option.bind_eq_some_iff.mp ended
    rw [there, Program.eq_done_of_value? value]
  have complete := no_lost_update rfl Registry.Valid.initial rfl others runs distinct finished
  have sits : y.hub.registry.Sits ⟨.dashboard, d.session, ⟨0⟩⟩ := by
    simp [Registry.Sits, members]
  exact ⟨distinct, complete.1, sits, waiting⟩

end HelpDesk
