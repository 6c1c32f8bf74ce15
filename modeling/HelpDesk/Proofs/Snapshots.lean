import HelpDesk.Proofs.DashboardUpdates
import HelpDesk.Proofs.RegistryRelease
import HelpDesk.Proofs.StartOutcomes

/-! What a dashboard begins with: a summary of each conversation that is not closed, in one frame ahead of all that was
parked for the dashboard. However the snapshot comes out, the dashboard is released. -/

namespace HelpDesk

namespace Store
variable {s : Store} {c : Conversation}

/-- Each conversation that is not closed stands in the list once, and no other, the one that was changed last first. -/
structure Lists (s : Store) (list : List Conversation) : Prop where
  mem : ∀ c, c ∈ list ↔ s.get? c.id = some c ∧ c.status ≠ .closed
  once : (list.map (·.id)).Nodup
  order : list.Pairwise fun c d => d.updatedAt.nanos ≤ c.updatedAt.nanos

/-- The summaries are those of the conversations that are not closed, as they are now, and no two are of one owner. -/
structure Pictured (s : Store) (list : List Summary) : Prop where
  rows : list = s.listActive.map fun c => ⟨c.id, c.owner, c.status, c.updatedAt⟩
  conversations : (list.map (·.conversation)).Nodup
  owners : (list.map (·.owner)).Nodup

theorem listActive_perm (s : Store) : s.listActive.Perm (s.conversations.filter (·.isActive)) :=
  List.mergeSort_perm _ _

theorem listActive_ordered (s : Store) : s.listActive.Pairwise fun c d => d.updatedAt.nanos ≤ c.updatedAt.nanos := by
  have sorted : s.listActive.Pairwise fun c d => decide (d.updatedAt.nanos ≤ c.updatedAt.nanos) = true := by
    refine List.pairwise_mergeSort ?_ ?_ _
    · intro a b c first second
      simp only [decide_eq_true_eq] at first second ⊢
      exact second.trans first
    · intro a b
      simp only [Bool.or_eq_true, decide_eq_true_eq]
      exact le_total _ _
  exact sorted.imp of_decide_eq_true

theorem Valid.nodup_active (valid : Valid s) : (s.listActive.map (·.id)).Nodup :=
  ((listActive_perm s).map _).nodup_iff.mpr (valid.ids.sublist (List.filter_sublist.map _))

theorem Valid.lists (valid : Valid s) : s.Lists s.listActive where
  mem c := by
    have stored : c ∈ s.conversations ↔ s.get? c.id = some c := ⟨get?_of_mem valid.ids, mem_of_get?⟩
    rw [(listActive_perm s).mem_iff, List.mem_filter, stored, Conversation.isActive_iff]
  once := valid.nodup_active
  order := listActive_ordered s

/-- Nobody owns two of the conversations that are not closed. -/
theorem Valid.nodup_owners (valid : Valid s) : (s.listActive.map (·.owner)).Nodup := by
  refine ((listActive_perm s).map _).nodup_iff.mpr (List.pairwise_map.mpr ?_)
  refine (valid.owners.sublist List.filter_sublist).imp_of_mem fun first second apart => ?_
  exact apart (List.mem_filter.mp first).2 (List.mem_filter.mp second).2

theorem Valid.pictured (valid : Valid s) : s.Pictured (s.listActive.map .ofConversation) where
  rows := rfl
  conversations := by
    rw [List.map_map]
    exact valid.nodup_active
  owners := by
    rw [List.map_map]
    exact valid.nodup_owners

end Store

namespace Registry
variable {φ : Type} {r : Registry φ} {room : ConversationId} {session : SessionId}

/-- What a release does: whoever has the session holds no longer, and if its queue has room for the lead and what was
parked, both are put there, the lead first. -/
structure Releases (before after : Registry φ) (room : ConversationId) (session : SessionId) (lead : Option φ) : Prop where
  free : ∀ m ∈ after.members room, m.session = session → m.held = none
  flows : ∀ m ∈ before.members room, m.session = session → ∀ queue, before.queue? m.queue = some queue →
    queue.receiving = true → queue.waiting.length + (lead.toList ++ m.held.getD []).length ≤ queue.capacity →
    { m with held := none } ∈ after.members room ∧
      after.waiting m.queue = queue.waiting ++ (lead.toList ++ m.held.getD [])

theorem Manned.releases (manned : Manned r) (valid : Valid r) (room : ConversationId) (session : SessionId)
    (lead : Option φ) : Releases r (r.release room session lead) room session lead where
  free left there same := by
    obtain ⟨m, -, queue, -, stays⟩ := (release_acts valid room session lead).mem there
    have own : m.session = session := (Command.effect_member stays).session.symm.trans same
    rw [Command.effect, if_pos own] at stays
    exact Seat.release_unheld stays
  flows m there same queue known alive fits := by
    subst same
    obtain ⟨found, seated, sound⟩ := manned.seated valid there
    obtain rfl : found = queue := Option.some.inj (seated.queue.symm.trans known)
    rcases seated.release valid sound alive lead with ⟨-, next⟩ | ⟨more, -⟩
    · exact ⟨(next.member _ rfl).1, next.waiting⟩
    · exact absurd more (Nat.not_lt.mpr fits)

end Registry

/-- The text is the array of the texts of the summaries. -/
def Summary.IsArray (list : List Summary) (text : String) : Prop :=
  ∃ items, list.mapM Summary.codec.write = some items ∧ text.toList = '[' :: Json.Codec.commas items ++ [']']

theorem Summary.isArray_of_encode {list : List Summary} {text : String} (encoded : (Frame.summaries list).encode? = some text) :
    Summary.IsArray list text := by
  obtain ⟨chars, written, rfl⟩ := Option.map_eq_some_iff.mp encoded
  obtain ⟨items, all, rfl⟩ := Option.map_eq_some_iff.mp written
  exact ⟨items, all, String.toList_ofList⟩

namespace Hub
variable {h : Hub}

/-- How a snapshot comes out that is read from a hub: the frame that goes ahead, if any, and the result. -/
inductive Leads (h : Hub) : Option Parcel → Except StoreError Unit → Prop
  | failed {error : StoreError} (read : (h.callStore .listActive).1 = .error error) : Leads h none (.error error)
  | textless {list : List Summary} (read : (h.callStore .listActive).1 = .ok h.store.listActive)
      (pictured : h.store.Pictured list) (silent : (Frame.summaries list).encode? = none) : Leads h none (.ok ())
  | written {list : List Summary} {lead : Parcel} (read : (h.callStore .listActive).1 = .ok h.store.listActive)
      (pictured : h.store.Pictured list) (frame : lead.frame = .summaries list) (text : Summary.IsArray list lead.text) :
      Leads h (some lead) (.ok ())

theorem leads_of_valid (valid : h.store.Valid) :
    h.Leads h.snapshot? ((h.callStore .listActive).1.map fun _ => ()) := by
  unfold snapshot?
  cases read : (h.callStore .listActive).1 with
  | error error => exact .failed read
  | ok list =>
    obtain rfl := list_of_read read
    have pictured := valid.pictured
    change h.Leads (Frame.summaries (h.store.listActive.map .ofConversation)).pack? (.ok ())
    cases packed : (Frame.summaries (h.store.listActive.map .ofConversation)).pack? with
    | none =>
      have silent := Frame.isSome_pack? (.summaries (h.store.listActive.map .ofConversation))
      rw [packed, Option.isSome_none] at silent
      exact .textless read pictured (Option.not_isSome_iff_eq_none.mp (Bool.eq_false_iff.mp silent.symm))
    | some lead =>
      have frame := Frame.frame_of_pack? packed
      exact .written read pictured frame (Summary.isArray_of_encode (frame ▸ lead.encoded))

theorem run_snapshot (h : Hub) :
    (h.run Dashboard.snapshot).1 = (h.callStore .listActive).1.map (List.map Summary.ofConversation) := by
  change (h.run ((Program.store .listActive).bind _)).1 = _
  rw [Program.run_store_bind]
  cases (h.callStore .listActive).1 with
  | error error => rfl
  | ok list => rfl

theorem pictured_of_run (valid : h.store.Valid) {list : List Summary} (read : (h.run Dashboard.snapshot).1 = .ok list) :
    h.store.Pictured list := by
  rw [run_snapshot] at read
  cases found : (h.callStore .listActive).1 with
  | error error =>
    rw [found] at read
    cases read
  | ok cs =>
    rw [found] at read
    cases read
    rw [list_of_read found]
    exact valid.pictured

theorem Reliable.run_snapshot_ok (reliable : h.Reliable) : ∃ list, (h.run Dashboard.snapshot).1 = .ok list := by
  obtain ⟨faults, performs⟩ := reliable.exists_perform .listActive
  rw [run_snapshot, performs]
  exact ⟨_, rfl⟩

end Hub

section Calls
variable {α : Type} {x y : Execution α} {turns : List Turn} {log : List Occurrence} {number : Nat} {session : SessionId}
  {next : Except StoreError Unit → Program α}

theorem sendSnapshot_bind (session : SessionId) (next : Except StoreError Unit → Program α) :
    (Dashboard.sendSnapshot session).bind next = .ask (.store .listActive) fun reply =>
      .ask (.rooms (.release .dashboard session (snapshot? reply))) fun _ => next (reply.map fun _ => ()) := by
  show Program.ask _ _ = _
  congr 1
  funext reply
  cases reply with
  | error error => rfl
  | ok cs => rfl

/-- The two turns of a call for a snapshot, and how its caller goes on. -/
theorem snapshot_turns (there : x.tasks[number]? = some ((Dashboard.sendSnapshot session).bind next))
    (runs : x.run turns = (log, y)) (twice : 2 ≤ (log.filter (·.isOf number)).length) :
    ∃ earlier reading meanwhile releasing later,
      log = earlier ++ .asked number reading (.store .listActive) ::
        (meanwhile ++ .asked number releasing (.rooms (.release .dashboard session reading.snapshot?)) :: later) ∧
      (∀ o, o ∈ earlier ∨ o ∈ meanwhile → o.isOf number = false) ∧
      ∃ last, y.tasks[number]? = some last ∧
        (next ((reading.callStore .listActive).1.map fun _ => ())).Path (later.filter (·.isOf number)) last := by
  obtain ⟨last, found, path⟩ := Execution.run_path runs there
  rw [sendSnapshot_bind] at path
  generalize own : log.filter (·.isOf number) = os at path twice
  cases path with
  | nil => simp at twice
  | cons first reading path =>
    cases path with
    | nil => simp at twice
    | cons second releasing path =>
      obtain ⟨earlier, afterRead, rfl, before, mine, own⟩ := List.filter_eq_cons_iff.mp own
      obtain ⟨meanwhile, later, rfl, waits, also, rfl⟩ := List.filter_eq_cons_iff.mp own
      simp only [Occurrence.isOf, beq_iff_eq] at mine also
      subst mine also
      refine ⟨earlier, reading, meanwhile, releasing, later, rfl, ?_, last, found, path⟩
      rintro o (there | there)
      · simpa using before o there
      · simpa using waits o there

/-- In any state that executions come to, the active conversations are listed as they are, and a snapshot has a summary of
each. When a snapshot is called for in such a state, however the turns of others come between its own two, it shows the
store as it is when it is read; and the frame with the array of these summaries, if it has a text, is the first that the
call puts on the queue of a dashboard that has room for it and for what is parked. The dashboard holds no longer, whatever
came of the reading. -/
theorem snapshot_content {u : Execution α} {first : List Turn} {past : List Occurrence} (empty : u.hub.store = {})
    (vacant : u.hub.registry = {}) (reached : u.run first = (past, x)) (distinct : u.hub.Distinct x.hub) :
    x.hub.store.Lists x.hub.store.listActive ∧
    (∀ list, (x.hub.run Dashboard.snapshot).1 = .ok list → x.hub.store.Pictured list) ∧
    (x.hub.Reliable → ∃ list, (x.hub.run Dashboard.snapshot).1 = .ok list) ∧
    ∀ (number : Nat) (session : SessionId) (next : Except StoreError Unit → Program α) (turns : List Turn)
      (log : List Occurrence) (y : Execution α),
      x.tasks[number]? = some ((Dashboard.sendSnapshot session).bind next) → x.run turns = (log, y) →
      u.hub.Distinct y.hub → 2 ≤ (log.filter (·.isOf number)).length →
      ∃ earlier reading meanwhile releasing later lead result,
        log = earlier ++ .asked number reading (.store .listActive) ::
          (meanwhile ++ .asked number releasing (.rooms (.release .dashboard session lead)) :: later) ∧
        (∀ o, o ∈ earlier ∨ o ∈ meanwhile → o.isOf number = false) ∧
        reading.store.Lists reading.store.listActive ∧ reading.Leads lead result ∧
        releasing.registry.Releases (releasing.answer (.rooms (.release .dashboard session lead))).2.registry
          .dashboard session lead ∧
        ∃ last, y.tasks[number]? = some last ∧ (next result).Path (later.filter (·.isOf number)) last := by
  obtain ⟨entered, _, start⟩ := Execution.run_hub reached
  have valid : x.hub.store.Valid := start.valid empty distinct
  refine ⟨valid.lists, fun list read => Hub.pictured_of_run valid read, Hub.Reliable.run_snapshot_ok, ?_⟩
  intro number session next turns log y there runs apart twice
  obtain ⟨earlier, reading, meanwhile, releasing, later, rfl, others, onward⟩ := snapshot_turns there runs twice
  obtain ⟨-, ⟨_, further⟩, v, rest, answered, remaining⟩ := Execution.run_asked runs
  obtain ⟨-, _, ends⟩ := Execution.run_hub remaining
  obtain ⟨_, reads⟩ := reading.answer_reaches (.store .listActive)
  rw [answered] at ends
  have valid' : reading.store.Valid :=
    (start.trans further).valid empty ((start.trans further).distinct_left (reads.trans ends) apart)
  -- the release finds a registry that has come from the empty one by what happened before it
  rw [← List.cons_append, ← List.append_assoc] at runs
  obtain ⟨registry, -⟩ := Execution.run_asked runs
  rw [entered, vacant, ← Registry.after_append] at registry
  have kept : releasing.registry.Valid := registry ▸ .after .initial _
  have manned : releasing.registry.Manned := registry ▸ .after .initial .initial _
  exact ⟨earlier, reading, meanwhile, releasing, later, _, _, rfl, others, valid'.lists, Hub.leads_of_valid valid',
    manned.releases kept .dashboard session reading.snapshot?, onward⟩

end Calls

/-- One of two conversations is closed before the snapshot is read, and a third one is started before the dashboard is
released, so that it is parked. -/
theorem snapshot_content_while_parked :
    let hub : Hub := { settings := .default, clock := ⟨0, 0⟩, mint := fun n => .ofNat (n + 1) }
    let customer (n : Nat) : Identity := ⟨⟨.ofNat n⟩, .user⟩
    let calls : Program Unit := (Dashboard.sendSnapshot ⟨1⟩).bind fun _ => .done ()
    let operations : List Operation := [.start (customer 1001) "a" none, .start (customer 1002) "b" none,
      .close ⟨.ofNat 1⟩ (customer 1001), .start (customer 1003) "c" none]
    let u : Execution Unit := ⟨hub, .ask (.join .dashboard ⟨1⟩ ⟨⟨.ofNat 1000⟩, .admin⟩ 2 true) (fun _ => calls) ::
      operations.map (·.program hub.settings)⟩
    let first : List Turn := [.task 1 ⟨1, 0⟩, .task 1 ⟨2, 0⟩, .task 2 ⟨3, 0⟩, .task 2 ⟨4, 0⟩, .task 3 ⟨5, 0⟩,
      .task 3 ⟨6, 0⟩, .task 3 ⟨7, 0⟩, .task 0 ⟨8, 0⟩]
    let turns : List Turn := [.task 0 ⟨9, 0⟩, .task 4 ⟨10, 0⟩, .task 4 ⟨11, 0⟩, .task 0 ⟨12, 0⟩]
    ∃ past x log y, u.run first = (past, x) ∧ x.run turns = (log, y) ∧
      x.hub.store.Lists x.hub.store.listActive ∧ x.tasks[0]? = some calls ∧ u.hub.Distinct y.hub ∧
      (∃ reading lead result, .asked 0 reading (.store .listActive) ∈ log ∧ reading.Leads lead result) ∧
      (y.hub.registry.waiting ⟨0⟩).map (·.frame) = [.summaries [⟨⟨.ofNat 3⟩, ⟨.ofNat 1002⟩, .pending, ⟨3, 0⟩⟩],
        .summaries [⟨⟨.ofNat 5⟩, ⟨.ofNat 1003⟩, .pending, ⟨10, 0⟩⟩]] := by
  intro hub customer calls operations u first turns
  have waiting : (((u.run first).2.run turns).2.hub.registry.waiting ⟨0⟩).map (·.frame) =
      [.summaries [⟨⟨.ofNat 3⟩, ⟨.ofNat 1002⟩, .pending, ⟨3, 0⟩⟩],
        .summaries [⟨⟨.ofNat 5⟩, ⟨.ofNat 1003⟩, .pending, ⟨10, 0⟩⟩]] := by decide +kernel
  have distinct : u.hub.Distinct (u.run first).2.hub := by
    unfold Hub.Distinct
    decide +kernel
  have distinct' : u.hub.Distinct ((u.run first).2.run turns).2.hub := by
    unfold Hub.Distinct
    decide +kernel
  have twice : 2 ≤ (((u.run first).2.run turns).1.filter (·.isOf 0)).length := by decide +kernel
  have once : ((u.run first).1.filter (·.isOf 0)).length = 1 := by decide +kernel
  rcases reached : u.run first with ⟨past, x⟩
  rw [reached] at waiting distinct distinct' twice once
  rcases runs : x.run turns with ⟨log, y⟩
  rw [runs] at waiting distinct' twice
  obtain ⟨_, there⟩ := Execution.task_of_turn reached rfl once
  obtain ⟨lists, -, -, calling⟩ := snapshot_content rfl rfl reached distinct
  obtain ⟨earlier, reading, meanwhile, releasing, later, lead, result, split, -, -, leads, -⟩ :=
    calling 0 ⟨1⟩ (fun _ => .done ()) turns log y there runs distinct' twice
  refine ⟨past, x, log, y, rfl, runs, lists, there, distinct', ⟨reading, lead, result, ?_, leads⟩, waiting⟩
  rw [split]
  exact List.mem_append_right _ List.mem_cons_self

end HelpDesk
