import HelpDesk.Proofs.ActivityPermissions
import HelpDesk.Proofs.AnnouncedResults
import HelpDesk.Proofs.ConversationRows

/-! The dashboards are told of every change of the store, and of nothing else. A change is what a turn makes of the stored
conversations; as long as one activity follows the other, the announcements come in the order of the changes. -/

namespace HelpDesk

/-- The conversations that are new in a store, or have another status than in the one before. -/
def Store.changed (before after : Store) : List Conversation :=
  after.conversations.filter fun c => decide ((before.get? c.id).map (·.status) ≠ some c.status)

namespace Occurrence

def changes : Occurrence → List Conversation
  | asked _ hub request => Store.changed hub.store (hub.answer request).2.store
  | received _ | gone _ => []

def task? : Occurrence → Option Nat
  | asked task _ _ => some task
  | received _ | gone _ => none

end Occurrence

/-- One task follows the other: none has a turn after a turn of a later one. -/
def InTurn (log : List Occurrence) : Prop :=
  (log.filterMap (·.task?)).Pairwise (· ≤ ·)

instance (log : List Occurrence) : Decidable (InTurn log) :=
  inferInstanceAs (Decidable (List.Pairwise _ _))

section Changes
variable {s : Store} (ids : (s.conversations.map (·.id)).Nodup)
include ids

theorem Store.filter_changed : (s.conversations.filter fun c => decide ((s.get? c.id).map (·.status) ≠ some c.status)) = [] := by
  rw [List.filter_eq_nil_iff]
  intro c there
  simp [get?_of_mem ids there]

theorem Store.filter_id {c : Conversation} (stored : s.get? c.id = some c) :
    s.conversations.filter (fun d => d.id == c.id) = [c] := by
  have same : s.conversations.filter (fun d => d.id == c.id) = s.conversations.filter (· == c) := by
    apply List.filter_congr
    intro d there
    by_cases key : d.id = c.id
    · rw [List.inj_on_of_nodup_map ids there (mem_of_get? stored) key]
      simp
    · have other : d ≠ c := fun equal => key (congrArg (·.id) equal)
      simp [key, other]
  rw [same, List.filter_beq, List.count_eq_one_of_mem (List.Nodup.of_map _ ids) (mem_of_get? stored), List.replicate_one]

theorem Store.changed_put {c d : Conversation} (stored : s.get? c.id = some c) (id : d.id = c.id)
    (other : c.status ≠ d.status) : s.changed (s.put d) = [d] := by
  have replaced : ∀ x ∈ s.conversations, decide ((s.get? (if x.id == d.id then d else x).id).map (·.status) ≠
      some (if x.id == d.id then d else x).status) = (x.id == c.id) := by
    intro x there
    by_cases key : x.id = d.id
    · simp [key, id, stored, other]
    · have apart : x.id ≠ c.id := fun same => key (same.trans id.symm)
      simp [key, apart, get?_of_mem ids there]
  rw [changed, put, List.filter_map]
  simp only [Function.comp_def]
  rw [List.filter_congr replaced, filter_id ids stored]
  simp [id]

theorem Store.changed_append {c : Conversation} (new : s.get? c.id = none) (messages : List Message) :
    s.changed ⟨s.conversations ++ [c], messages⟩ = [c] := by
  rw [changed, List.filter_append, filter_changed ids]
  simp [new]

end Changes

/-- What a request changes is what its reply tells. -/
theorem Occurrence.changes_eq {h : Hub} (undisturbed : h.Undisturbed) {request : Request}
    (distinct : h.Distinct (h.answer request).2) (task : Nat) :
    (asked task h request).changes = (asked task h request).committed?.toList := by
  obtain ⟨_, reaches⟩ := h.answer_reaches request
  have ids := (reaches.fresh distinct).ids
  have new := Hub.new_of_distinct distinct
  cases request with
  | rooms command => exact Store.filter_changed ids
  | join room session identity capacity holding => exact Store.filter_changed ids
  | roomCount => exact Store.filter_changed ids
  | store call =>
    show Store.changed h.store (h.callStore call).2.store = (Request.committed? (.store call) (h.callStore call).1).toList
    rcases undisturbed.callStore call with ⟨same, error, failed⟩ | ⟨answer, performed, carried⟩
    · have nothing : Request.committed? (.store call) (.error error) = none := by cases call <;> rfl
      rw [same, failed, nothing]
      exact Store.filter_changed ids
    · have started : (h.answer (.store call)).1 = .ok answer := carried
      rw [carried]
      generalize (h.callStore call).2.store = after at performed
      cases Store.performed_of_ok performed with
      | got | foundActive | listedActive | listedMessages | posted | alreadyOpen => exact Store.filter_changed ids
      | moved stored moves row =>
        obtain rfl := Store.get?_id stored
        exact Store.changed_put ids stored (by rw [row]) (by rw [row]; exact moves.ne)
      | created vacant row opening => exact Store.changed_append ids (new _ _ started) _

section Serving
variable {database : Http.DatabaseHealth} {hub : Hub} {activities : List Activity} {turns : List Turn}
  {log os : List Occurrence} {y : Execution Unit}
  (runs : (Execution.serving database hub activities).run turns = (log, y))
include runs

theorem announced_of_task (finished : ∀ program ∈ y.tasks, program.value?.isSome) (task : Nat) :
    (log.filter (·.isOf task)).filterMap (·.announced?) =
      (log.filter (·.isOf task)).filterMap fun o => o.committed?.bind announcement := by
  cases activity : activities[task]? with
  | none =>
    rw [Execution.turns_of_none runs (by simp [Execution.serving, activity])]
    rfl
  | some a =>
    have there : (Execution.serving database hub activities).tasks[task]? = some (a.program database hub.settings) := by
      simp [Execution.serving, activity]
    obtain ⟨last, ends, path⟩ := Execution.run_path runs there
    obtain ⟨value, result⟩ := Option.isSome_iff_exists.mp (finished last (List.mem_of_getElem? ends))
    rw [Program.eq_done_of_value? result] at path
    exact path.announced (a.tells database hub.settings)

/-- As long as one activity follows the other, the announcements come in the order of what they announce. -/
theorem announced_of_log (finished : ∀ program ∈ y.tasks, program.value?.isSome) (inTurn : InTurn log) :
    log.filterMap (·.announced?) = log.filterMap fun o => o.committed?.bind announcement := by
  have ordered {β : Type} (told? : Occurrence → Option β) :
      ((log.filterMap (·.signed? told?)).map (·.1)).Pairwise (· ≤ ·) := by
    rw [List.pairwise_map, List.pairwise_filterMap]
    refine (List.pairwise_filterMap.mp inTurn).imp fun {o p} order left first right last => ?_
    cases o with
    | received queue => cases first
    | gone queue => cases first
    | asked task h request =>
      cases p with
      | received queue => cases last
      | gone queue => cases last
      | asked other k asked =>
        obtain ⟨_, -, rfl⟩ := Option.map_eq_some_iff.mp first
        obtain ⟨_, -, rfl⟩ := Option.map_eq_some_iff.mp last
        exact order task rfl other rfl
  have signed := eq_of_signed (ordered (·.announced?)) (ordered fun o => o.committed?.bind announcement) fun task => by
    rw [Occurrence.filter_signed, Occurrence.filter_signed, announced_of_task runs finished task]
  have told := congrArg (List.map (·.2)) signed
  rwa [Occurrence.map_snd_signed fun _ => ⟨rfl, rfl⟩, Occurrence.map_snd_signed fun _ => ⟨rfl, rfl⟩] at told

theorem frames_of_committed (dated : ∀ task now, .task task now ∈ turns → now.toChars?.isSome) (part : os ⊆ log) :
    (os.filterMap fun o => o.committed?.bind announcement).map (·.frame) =
      (os.filterMap (·.committed?)).map fun c => .summaries [.ofConversation c] := by
  rw [List.map_filterMap, List.map_filterMap]
  apply List.filterMap_congr
  intro o there
  cases o with
  | received queue => rfl
  | gone queue => rfl
  | asked task found request =>
    cases committed : (Occurrence.asked task found request).committed? with
    | none => rfl
    | some c =>
      have timed : c.updatedAt = found.clock := Hub.updatedAt_of_committed committed
      have framed : (announcement c).isSome := by
        rw [isSome_announcement, timed]
        exact dated task found.clock (Execution.clock_of_asked runs (part there))
      obtain ⟨parcel, frame⟩ := Option.isSome_iff_exists.mp framed
      simp [frame, Frame.frame_of_pack? frame]

theorem changes_of_log (undisturbed : hub.Undisturbed) (distinct : hub.Distinct y.hub) (part : os ⊆ log) :
    os.flatMap (·.changes) = os.filterMap (·.committed?) := by
  rw [List.filterMap_eq_flatMap_toList]
  apply List.flatMap_congr
  intro o there
  cases o with
  | received queue => rfl
  | gone queue => rfl
  | asked task found request =>
    exact Occurrence.changes_eq ((Execution.inherits_of_asked runs (part there)).undisturbed undisturbed)
      (Execution.distinct_of_asked runs distinct (part there)) task

/-- Whoever is not in the room of the dashboards is offered no summary. -/
theorem unsummarized_elsewhere {o : Occurrence} (there : o ∈ log) {e : Registry.Event Parcel} (event : o.event? = some e)
    {p : Registry.Place} (elsewhere : p.room ≠ .dashboard) {parcel : Parcel} (offered : parcel ∈ e.offered p)
    (list : List Summary) : parcel.frame ≠ .summaries list := by
  cases o with
  | received queue =>
    cases event
    cases offered
  | gone queue =>
    cases event
    cases offered
  | asked task found request =>
    obtain ⟨before, later, split⟩ := List.append_of_mem there
    obtain ⟨a, -, may⟩ := Execution.may_ask runs split
    intro summarized
    have offers := Activity.offers_of_offered may event offered
    rw [summarized] at offers
    cases offers with
    | summaries _ here => exact elsewhere here

end Serving

/-- Activities of any parties have come to their end, at times that have a text, and the store may have failed them. If one
followed the other, the frames for the dashboards are one for each conversation that was new or had another status after a
turn, in that order, with its row as it was then; and in any case that is so for the frames of each activity. No other room is
sent a summary. Whoever finds a conversation open already, is refused or fails, or had nothing to do, announces nothing: a start
announces the conversation that it reports as created, a close and an opening the one that they report as moved; and a text
that is not delivered announces none. -/
theorem changes_announced_in_order {database : Http.DatabaseHealth} {hub : Hub} (undisturbed : hub.Undisturbed)
    {activities : List Activity} {turns : List Turn} {log : List Occurrence} {y : Execution Unit}
    (runs : (Execution.serving database hub activities).run turns = (log, y)) (distinct : hub.Distinct y.hub)
    (finished : ∀ program ∈ y.tasks, program.value?.isSome)
    (dated : ∀ task now, .task task now ∈ turns → now.toChars?.isSome) :
    (InTurn log → (log.filterMap (·.announced?)).map (·.frame) =
      (log.flatMap (·.changes)).map fun c => .summaries [.ofConversation c]) ∧
    (∀ task, ((log.filter (·.isOf task)).filterMap (·.announced?)).map (·.frame) =
      ((log.filter (·.isOf task)).flatMap (·.changes)).map fun c => .summaries [.ofConversation c]) ∧
    (∀ o ∈ log, ∀ e, o.event? = some e → ∀ p : Registry.Place, p.room ≠ .dashboard → ∀ parcel ∈ e.offered p,
      ∀ list, parcel.frame ≠ .summaries list) ∧
    (∀ party content label, (Intake.start party content label).AnnouncesResult Intake.created?) ∧
    (∀ id party, (Lifecycle.close id party).AnnouncesResult Except.toOption) ∧
    (∀ id party, (Lifecycle.memberJoined id party).AnnouncesResult fun result => result.toOption.join) ∧
    (∀ read party, (Lifecycle.messageStored read party).AnnouncesResult fun result => result.toOption.join) ∧
    ∀ (c : Connection) settings text os outcome, (c.handleText settings text).Path os (.done outcome) →
      outcome.message? = none → os.filterMap (·.announced?) = [] := by
  have permits := Program.serves_all.permits
  refine ⟨?_, ?_, ?_, ?_, ?_, ?_, ?_, ?_⟩
  · intro inTurn
    have all : log ⊆ log := fun _ there => there
    rw [announced_of_log runs finished inTurn, frames_of_committed runs dated all,
      changes_of_log runs undisturbed distinct all]
  · intro task
    have own : log.filter (·.isOf task) ⊆ log := List.filter_subset_self _
    rw [announced_of_task runs finished task, frames_of_committed runs dated own,
      changes_of_log runs undisturbed distinct own]
  · intro o there e event p elsewhere parcel offered list
    exact unsummarized_elsewhere runs there event elsewhere offered list
  · intro party content label
    exact (Intake.reports_start party content label).announced (Intake.announces_start Program.serves_all _ _ _)
  · intro id party
    exact (Lifecycle.reports_close id party).announced (Lifecycle.announces_close permits id party)
  · intro id party
    exact (Lifecycle.reports_memberJoined id party).announced (Lifecycle.announces_memberJoined permits id party)
  · intro read party
    exact (Lifecycle.reports_openIfPending read party).announced (Lifecycle.announces_messageStored permits read party)
  · intro c settings text os outcome path undelivered
    have tells := Connection.announces_handleText Program.serves_all (c := c) (fun _ _ => trivial) (fun _ _ => trivial) settings text
    rw [path.announced tells, ← List.filterMap_filterMap, Connection.committed_of_handleText path undelivered]
    rfl

/-- The first opening of a conversation fails at the store, the second one goes well; its owner starts another one in vain and
then closes it. The dashboards are told of three changes. -/
theorem changes_announced_in_order_of_failure :
    let fails : Store.Method → List (Option Fault) := fun method => if method = .setStatus then [some (.fail .notFound)] else []
    let hub : Hub := { settings := .default, clock := ⟨0, 0⟩, mint := fun n => .ofNat (n + 1), faults := fails }
    let customer : Identity := ⟨⟨.ofNat 1001⟩, .user⟩
    let admin : Identity := ⟨⟨.ofNat 1000⟩, .admin⟩
    let activities : List Activity := [.operation (.start customer "a" none), .operation (.memberJoined ⟨.ofNat 1⟩ admin),
      .operation (.memberJoined ⟨.ofNat 1⟩ admin), .operation (.start customer "b" none),
      .operation (.close ⟨.ofNat 1⟩ customer)]
    let turns : List Turn := [.task 0 ⟨1, 0⟩, .task 0 ⟨2, 0⟩, .task 1 ⟨3, 0⟩, .task 1 ⟨4, 0⟩, .task 2 ⟨5, 0⟩, .task 2 ⟨6, 0⟩,
      .task 2 ⟨7, 0⟩, .task 3 ⟨8, 0⟩, .task 4 ⟨9, 0⟩, .task 4 ⟨10, 0⟩, .task 4 ⟨11, 0⟩]
    let (log, _) := (Execution.serving .memory hub activities).run turns
    (log.filterMap (·.announced?)).map (·.frame) = (log.flatMap (·.changes)).map (fun c => .summaries [.ofConversation c]) ∧
      (log.flatMap (·.changes)).map (·.status) = [.pending, .opened, .closed] := by
  intro fails hub customer admin activities turns
  have undisturbed : hub.Undisturbed := by
    intro method fault there status same
    rw [same] at there
    cases method <;> simp [hub, fails] at there
  have facts :
      let (log, y) := (Execution.serving .memory hub activities).run turns
      hub.Distinct y.hub ∧ (∀ program ∈ y.tasks, program.value?.isSome) ∧ InTurn log ∧
        (log.flatMap (·.changes)).map (·.status) = [.pending, .opened, .closed] := by
    unfold Hub.Distinct
    decide +kernel
  have dated : ∀ task now, .task task now ∈ turns → now.toChars?.isSome := Turn.dated (by decide +kernel)
  rcases runs : (Execution.serving .memory hub activities).run turns with ⟨log, y⟩
  rw [runs] at facts
  obtain ⟨distinct, finished, inTurn, statuses⟩ := facts
  exact ⟨(changes_announced_in_order undisturbed runs distinct finished dated).1 inTurn, statuses⟩

end HelpDesk
