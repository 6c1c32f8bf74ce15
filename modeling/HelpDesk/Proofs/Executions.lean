import HelpDesk.Proofs.HubRuns

/-! Operations that are under way at the same time. Each is a program of its own, and in every turn one of them goes on
by one request; between the turns the other ends of the queues are read or given up. The log has what happened, so that
an operation can be followed in it. -/

namespace HelpDesk

structure Execution (α : Type) where
  hub : Hub
  tasks : List (Program α)

inductive Turn
  | task (number : Nat) (now : Moment)
  | receive (queue : QueueId)
  | endReceiving (queue : QueueId)

/-- When the task goes on, in a turn of a task. -/
def Turn.now? : Turn → Option Moment
  | task _ now => some now
  | receive _ | endReceiving _ => none

theorem Turn.dated {turns : List Turn} (all : ∀ now ∈ turns.filterMap (·.now?), now.toChars?.isSome) :
    ∀ task now, .task task now ∈ turns → now.toChars?.isSome :=
  fun _ now there => all now (List.mem_filterMap.mpr ⟨_, there, rfl⟩)

/-- What happened in a turn. A request comes with the hub as it found it. -/
inductive Occurrence
  | asked (task : Nat) (hub : Hub) (request : Request)
  | received (queue : QueueId)
  | gone (queue : QueueId)

namespace Occurrence

def isOf (task : Nat) : Occurrence → Bool
  | asked number _ _ => number == task
  | received _ | gone _ => false

def event? : Occurrence → Option (Registry.Event Parcel)
  | asked _ _ request => request.event?
  | received queue => some (.receive queue)
  | gone queue => some (.endReceiving queue)

/-- A task had the turn, and passes a test with what it asked. -/
def passes (test : Nat → Hub → Request → Bool) : Occurrence → Bool
  | asked task hub request => test task hub request
  | received _ | gone _ => false

theorem asked_of_passes {test : Nat → Hub → Request → Bool} {log : List Occurrence} (some : log.any (·.passes test) = true) :
    ∃ before task hub request later, log = before ++ .asked task hub request :: later ∧ test task hub request = true := by
  obtain ⟨o, there, passed⟩ := List.any_eq_true.mp some
  obtain ⟨before, later, rfl⟩ := List.append_of_mem there
  cases o with
  | asked task hub request => exact ⟨before, task, hub, request, later, rfl, passed⟩
  | received queue => cases passed
  | gone queue => cases passed

end Occurrence

/-- What is told of a turn, with the task that had it. -/
def Occurrence.signed? {β : Type} (told? : Occurrence → Option β) (o : Occurrence) : Option (Nat × β) :=
  match o with
  | asked task _ _ => (told? o).map (task, ·)
  | received _ | gone _ => none

theorem Occurrence.filter_signed {β : Type} (told? : Occurrence → Option β) (task : Nat) (log : List Occurrence) :
    (log.filterMap (·.signed? told?)).filter (·.1 == task) =
      ((log.filter (·.isOf task)).filterMap told?).map (task, ·) := by
  induction log with
  | nil => rfl
  | cons o log ih =>
    cases o with
    | received queue => exact ih
    | gone queue => exact ih
    | asked number hub request =>
      have head : (asked number hub request).signed? told? = (told? (asked number hub request)).map (number, ·) := rfl
      rw [List.filterMap_cons, head]
      by_cases same : number = task
      · subst same
        have own : (asked number hub request).isOf number = true := beq_self_eq_true number
        rw [List.filter_cons_of_pos own, List.filterMap_cons]
        cases told? (asked number hub request) <;> simp [ih]
      · rw [List.filter_cons_of_neg (by simpa [isOf] using same)]
        cases told? (asked number hub request) <;> simp [ih, same]

/-- Only turns of tasks have something to tell. -/
theorem Occurrence.map_snd_signed {β : Type} {told? : Occurrence → Option β}
    (silent : ∀ queue, told? (.received queue) = none ∧ told? (.gone queue) = none) (log : List Occurrence) :
    (log.filterMap (·.signed? told?)).map (·.2) = log.filterMap told? := by
  rw [List.map_filterMap]
  apply List.filterMap_congr
  intro o _
  cases o with
  | received queue => exact (silent queue).1.symm
  | gone queue => exact (silent queue).2.symm
  | asked task hub request =>
    have signed : (asked task hub request).signed? told? = (told? (asked task hub request)).map (task, ·) := rfl
    rw [signed]
    cases told? (asked task hub request) <;> rfl

theorem Occurrence.mem_signed {β : Type} {told? : Occurrence → Option β} {task : Nat} {b : β} {log : List Occurrence} :
    (task, b) ∈ log.filterMap (·.signed? told?) ↔ b ∈ (log.filter (·.isOf task)).filterMap told? := by
  have own := congrArg ((task, b) ∈ ·) (filter_signed told? task log)
  simpa using own

theorem filter_map_signed {β γ : Type} (shown? : β → Option γ) (task : Nat) (list : List (Nat × β)) :
    (list.filterMap fun (number, b) => (shown? b).map (number, ·)).filter (·.1 == task) =
      (list.filter (·.1 == task)).filterMap fun (number, b) => (shown? b).map (number, ·) := by
  rw [List.filter_filterMap, List.filterMap_filter]
  apply List.filterMap_congr
  rintro ⟨number, b⟩ -
  dsimp only
  by_cases same : number = task <;> cases shown? b <;> simp [Option.filter, same]

/-- Each task alone has the same to tell. -/
theorem perm_of_signed {β : Type} {l m : List (Nat × β)}
    (same : ∀ task, l.filter (·.1 == task) = m.filter (·.1 == task)) : l.Perm m := by
  classical
  rw [List.perm_iff_count]
  rintro ⟨task, b⟩
  have count := congrArg (List.count (task, b)) (same task)
  rwa [List.count_filter (by simp), List.count_filter (by simp)] at count

/-- If one task follows the other in both of two lists, they are the same. -/
theorem eq_of_signed {β : Type} {l m : List (Nat × β)} (left : (l.map (·.1)).Pairwise (· ≤ ·))
    (right : (m.map (·.1)).Pairwise (· ≤ ·)) (same : ∀ task, l.filter (·.1 == task) = m.filter (·.1 == task)) : l = m := by
  induction l generalizing m with
  | nil =>
    cases m with
    | nil => rfl
    | cons first rest => simpa using same first.1
  | cons first rest ih =>
    cases m with
    | nil => simpa using same first.1
    | cons other others =>
      rw [List.map_cons, List.pairwise_cons] at left right
      have members (task : Nat) (b : β) : (task, b) ∈ first :: rest ↔ (task, b) ∈ other :: others := by
        have own := congrArg ((task, b) ∈ ·) (same task)
        simpa only [List.mem_filter, beq_self_eq_true, and_true, eq_iff_iff] using own
      have key : first.1 = other.1 := by
        apply Nat.le_antisymm
        · rcases List.mem_cons.mp ((members other.1 other.2).mpr List.mem_cons_self) with equal | later
          · exact Nat.le_of_eq (congrArg Prod.fst equal).symm
          · exact left.1 _ (List.mem_map_of_mem later)
        · rcases List.mem_cons.mp ((members first.1 first.2).mp List.mem_cons_self) with equal | later
          · exact Nat.le_of_eq (congrArg Prod.fst equal).symm
          · exact right.1 _ (List.mem_map_of_mem later)
      have own := same first.1
      rw [List.filter_cons_of_pos (by simp), List.filter_cons_of_pos (by simp [key])] at own
      obtain ⟨equal, tails⟩ := List.cons.inj own
      rw [equal, ih left.2 right.2]
      intro task
      by_cases here : first.1 = task
      · rwa [here] at tails
      · have others := same task
        rwa [List.filter_cons_of_neg (by simpa using here), List.filter_cons_of_neg (by simpa [← key] using here)] at others

/-- A way through a program, by the requests that it makes and the replies that it gets. -/
inductive Program.Path {α : Type} : Program α → List Occurrence → Program α → Prop
  | nil (program : Program α) : Path program [] program
  | cons {request : Request} {rest : request.Reply → Program α} {os : List Occurrence} {last : Program α} (task : Nat)
      (hub : Hub) (path : Path (rest (hub.answer request).1) os last) :
      Path (.ask request rest) (.asked task hub request :: os) last

theorem Program.Path.append {α : Type} {first middle last : Program α} {os ps : List Occurrence}
    (path : first.Path os middle) (rest : middle.Path ps last) : first.Path (os ++ ps) last := by
  induction path with
  | nil => exact rest
  | cons task hub path ih => exact .cons task hub (ih rest)

theorem Program.Path.of_done {α : Type} {value last : α} {os : List Occurrence}
    (path : (Program.done value).Path os (.done last)) : os = [] ∧ value = last := by
  cases path
  exact ⟨rfl, rfl⟩

theorem Program.Path.of_idle {α : Type} {value : α} {last : Program α} {os : List Occurrence}
    (path : (Program.done value).Path os last) : os = [] ∧ last = .done value := by
  cases path
  exact ⟨rfl, rfl⟩

theorem Program.Path.of_ask {α : Type} {request : Request} {rest : request.Reply → Program α} {os : List Occurrence}
    {value : α} (path : (Program.ask request rest).Path os (.done value)) :
    ∃ task hub later, os = .asked task hub request :: later ∧ (rest (hub.answer request).1).Path later (.done value) := by
  cases path with
  | cons task hub path => exact ⟨task, hub, _, rfl, path⟩

/-- A way through one program and then another that ends is a way through each of them. -/
theorem Program.Path.of_bind {α β : Type} {program : Program α} {next : α → Program β} {os : List Occurrence} {value : β}
    (path : (program.bind next).Path os (.done value)) :
    ∃ first later between, os = first ++ later ∧ program.Path first (.done between) ∧
      (next between).Path later (.done value) := by
  induction program generalizing os with
  | done between => exact ⟨[], os, between, rfl, .nil _, path⟩
  | ask request rest ih =>
    obtain ⟨task, hub, os, rfl, onward⟩ := Path.of_ask path
    obtain ⟨first, later, between, rfl, begins, ends⟩ := ih _ onward
    exact ⟨.asked task hub request :: first, later, between, rfl, .cons task hub begins, ends⟩

def Program.value? {α : Type} : Program α → Option α
  | done value => some value
  | ask _ _ => none

theorem Program.eq_done_of_value? {α : Type} {program : Program α} {value : α} (finished : program.value? = some value) :
    program = .done value := by
  cases program with
  | done _ => rw [Option.some.inj finished]
  | ask request rest => cases finished

/-- What neither the clock nor the receivers of queues can change. -/
structure Hub.Lasting (invariant : Hub → Prop) : Prop where
  clock : ∀ {h : Hub} (now : Moment), invariant h → invariant { h with clock := now }
  receive : ∀ {h : Hub} (queue : QueueId), invariant h → invariant { h with registry := (h.registry.receive queue).2 }
  endReceiving : ∀ {h : Hub} (queue : QueueId), invariant h → invariant { h with registry := h.registry.endReceiving queue }

theorem Hub.Lasting.of_store (invariant : Store → Prop) : Hub.Lasting fun h => invariant h.store :=
  ⟨fun _ => id, fun _ => id, fun _ => id⟩

namespace Execution
variable {α : Type}

/-- The result of a task that has finished. -/
def value? (x : Execution α) (task : Nat) : Option α :=
  x.tasks[task]?.bind (·.value?)

/-- One turn. It is lost on a task that has finished. -/
def next (x : Execution α) : Turn → Option Occurrence × Execution α
  | .task number now =>
    match x.tasks[number]? with
    | some (.ask request rest) =>
      let hub := { x.hub with clock := now }
      (some (.asked number hub request),
        ⟨(hub.answer request).2, x.tasks.set number (rest (hub.answer request).1)⟩)
    | some (.done _) | none => (none, x)
  | .receive queue => (some (.received queue), { x with hub.registry := (x.hub.registry.receive queue).2 })
  | .endReceiving queue => (some (.gone queue), { x with hub.registry := x.hub.registry.endReceiving queue })

def run (x : Execution α) : List Turn → List Occurrence × Execution α
  | [] => ([], x)
  | turn :: turns => ((x.next turn).1.toList ++ ((x.next turn).2.run turns).1, ((x.next turn).2.run turns).2)

variable {x y u : Execution α} {turns : List Turn} {log : List Occurrence}

theorem run_of_lost {turn : Turn} (taken : x.next turn = (none, u)) (turns : List Turn) :
    x.run (turn :: turns) = u.run turns := by
  simp [run, taken]

theorem run_of_taken {turn : Turn} {o : Occurrence} (taken : x.next turn = (some o, u)) (turns : List Turn) :
    x.run (turn :: turns) = (o :: (u.run turns).1, (u.run turns).2) := by
  simp [run, taken]

/-- Each entry of the log was made in a turn of its own. -/
theorem run_split {before after : List Occurrence} {o : Occurrence}
    (runs : x.run turns = (before ++ o :: after, y)) :
    ∃ first turn last u v, turns = first ++ turn :: last ∧ x.run first = (before, u) ∧ u.next turn = (some o, v) ∧
      v.run last = (after, y) := by
  induction turns generalizing x before with
  | nil =>
    have empty := congrArg Prod.fst runs
    simp [run] at empty
  | cons turn turns ih =>
    rcases taken : x.next turn with ⟨_ | head, u⟩
    · rw [run_of_lost taken] at runs
      obtain ⟨first, turn', last, v, w, rfl, earlier, now, later⟩ := ih runs
      exact ⟨turn :: first, turn', last, v, w, rfl, (run_of_lost taken first).trans earlier, now, later⟩
    · rw [run_of_taken taken] at runs
      obtain ⟨entries, final⟩ := Prod.mk.inj runs
      cases before with
      | nil =>
        obtain ⟨rfl, rest⟩ := List.cons.inj entries
        exact ⟨[], turn, turns, x, u, rfl, rfl, taken, Prod.ext rest final⟩
      | cons _ before =>
        obtain ⟨rfl, rest⟩ := List.cons.inj entries
        obtain ⟨first, turn', last, v, w, rfl, earlier, now, later⟩ := ih (Prod.ext rest final)
        refine ⟨turn :: first, turn', last, v, w, rfl, ?_, now, later⟩
        rw [run_of_taken taken, earlier]

theorem next_asked {turn : Turn} {number : Nat} {hub : Hub} {request : Request}
    (now : x.next turn = (some (.asked number hub request), y)) :
    ∃ moment rest, x.tasks[number]? = some (.ask request rest) ∧ hub = { x.hub with clock := moment } ∧
      y = ⟨(hub.answer request).2, x.tasks.set number (rest (hub.answer request).1)⟩ := by
  cases turn with
  | receive queue => cases now
  | endReceiving queue => cases now
  | task number' moment =>
    simp only [next] at now
    split at now
    · next request' rest found =>
      obtain ⟨same, rfl⟩ := Prod.mk.inj now
      cases same
      exact ⟨moment, rest, found, rfl, rfl⟩
    · cases now
    · cases now

theorem clock_of_asked {number : Nat} {hub : Hub} {request : Request} (runs : x.run turns = (log, y))
    (there : .asked number hub request ∈ log) : .task number hub.clock ∈ turns := by
  obtain ⟨before, later, rfl⟩ := List.append_of_mem there
  obtain ⟨first, turn, last, u, v, rfl, -, now, -⟩ := run_split runs
  refine List.mem_append_right _ (List.mem_cons.mpr (.inl ?_))
  cases turn with
  | receive queue => cases now
  | endReceiving queue => cases now
  | task other moment =>
    simp only [next] at now
    split at now
    · obtain ⟨same, -⟩ := Prod.mk.inj now
      cases same
      rfl
    · cases now
    · cases now

theorem run_length (runs : x.run turns = (log, y)) : y.tasks.length = x.tasks.length := by
  induction turns generalizing x log with
  | nil =>
    cases runs
    rfl
  | cons turn turns ih =>
    cases runs
    apply (ih (x := (x.next turn).2) rfl).trans
    cases turn with
    | receive queue => rfl
    | endReceiving queue => rfl
    | task number moment =>
      simp only [next]
      split
      · exact List.length_set
      · rfl
      · rfl

theorem next_path {turn : Turn} {o : Option Occurrence} (taken : x.next turn = (o, u)) {number : Nat}
    {program : Program α} (there : x.tasks[number]? = some program) :
    ∃ later, u.tasks[number]? = some later ∧ program.Path (o.toList.filter (·.isOf number)) later := by
  cases turn with
  | receive queue =>
    cases taken
    exact ⟨program, there, .nil program⟩
  | endReceiving queue =>
    cases taken
    exact ⟨program, there, .nil program⟩
  | task other moment =>
    simp only [next] at taken
    split at taken
    · next request rest found =>
      cases taken
      obtain ⟨bound, -⟩ := List.getElem?_eq_some_iff.mp found
      by_cases same : other = number
      · subst same
        cases found.symm.trans there
        refine ⟨_, List.getElem?_set_self bound, ?_⟩
        simpa [Occurrence.isOf] using Program.Path.cons other _ (.nil _)
      · refine ⟨program, (List.getElem?_set_ne same).trans there, ?_⟩
        simpa [Occurrence.isOf, same] using Program.Path.nil program
    · cases taken
      exact ⟨program, there, .nil program⟩
    · cases taken
      exact ⟨program, there, .nil program⟩

theorem run_path (runs : x.run turns = (log, y)) {number : Nat} {program : Program α}
    (there : x.tasks[number]? = some program) :
    ∃ later, y.tasks[number]? = some later ∧ program.Path (log.filter (·.isOf number)) later := by
  induction turns generalizing x log program with
  | nil =>
    cases runs
    exact ⟨program, there, .nil program⟩
  | cons turn turns ih =>
    cases runs
    obtain ⟨middle, found, first⟩ := next_path (o := (x.next turn).1) (u := (x.next turn).2) rfl there
    obtain ⟨later, last, path⟩ := ih rfl found
    refine ⟨later, last, ?_⟩
    rw [List.filter_append]
    exact first.append path

/-- How a task goes on that has had one turn. -/
theorem task_of_turn {number : Nat} {request : Request} {rest : request.Reply → Program α}
    (runs : x.run turns = (log, y)) (there : x.tasks[number]? = some (.ask request rest))
    (once : (log.filter (·.isOf number)).length = 1) :
    ∃ hub : Hub, y.tasks[number]? = some (rest (hub.answer request).1) := by
  obtain ⟨last, found, path⟩ := run_path runs there
  generalize log.filter (·.isOf number) = os at path once
  cases path with
  | nil => cases once
  | cons task hub path =>
    generalize goes : rest (hub.answer request).1 = program at path
    cases path with
    | nil => exact ⟨hub, goes ▸ found⟩
    | cons => simp at once

theorem next_hub {turn : Turn} {o : Option Occurrence} (taken : x.next turn = (o, u)) :
    u.hub.registry = x.hub.registry.after (o.toList.filterMap (·.event?)) ∧ ∃ es, x.hub.Reaches es u.hub := by
  cases turn with
  | receive queue =>
    cases taken
    exact ⟨rfl, [], .of_same rfl rfl rfl⟩
  | endReceiving queue =>
    cases taken
    exact ⟨rfl, [], .of_same rfl rfl rfl⟩
  | task number moment =>
    simp only [next] at taken
    split at taken
    · next request rest found =>
      cases taken
      refine ⟨?_, ?_⟩
      · apply (Hub.answer_registry _ request).trans
        cases event : request.event? <;> simp [Occurrence.event?, event]
      · obtain ⟨es, reaches⟩ := Hub.answer_reaches { x.hub with clock := moment } request
        have start : x.hub.Reaches [] { x.hub with clock := moment } := .of_same rfl rfl rfl
        exact ⟨_, start.trans reaches⟩
    · cases taken
      exact ⟨rfl, [], .refl _⟩
    · cases taken
      exact ⟨rfl, [], .refl _⟩

/-- To the registry and to the store, an execution is a run. -/
theorem run_hub (runs : x.run turns = (log, y)) :
    y.hub.registry = x.hub.registry.after (log.filterMap (·.event?)) ∧ ∃ es, x.hub.Reaches es y.hub := by
  induction turns generalizing x log with
  | nil =>
    cases runs
    exact ⟨rfl, [], .refl _⟩
  | cons turn turns ih =>
    cases runs
    obtain ⟨first, es, reaches⟩ := next_hub (o := (x.next turn).1) (u := (x.next turn).2) rfl
    obtain ⟨last, fs, further⟩ := ih (x := (x.next turn).2) rfl
    refine ⟨?_, _, reaches.trans further⟩
    rw [List.filterMap_append, Registry.after_append, ← first]
    exact last

theorem run_asked {before later : List Occurrence} {task : Nat} {found : Hub} {request : Request}
    (runs : x.run turns = (before ++ .asked task found request :: later, y)) :
    found.registry = x.hub.registry.after (before.filterMap (·.event?)) ∧ (∃ es, x.hub.Reaches es found) ∧
      ∃ (v : Execution α) (rest : List Turn), v.hub = (found.answer request).2 ∧ v.run rest = (later, y) := by
  obtain ⟨first, turn, last, u, v, -, earlier, now, remaining⟩ := run_split runs
  obtain ⟨moment, next, -, rfl, rfl⟩ := next_asked now
  obtain ⟨registry, es, reaches⟩ := run_hub earlier
  refine ⟨registry, ⟨es ++ [], reaches.trans (.of_same rfl rfl rfl)⟩, _, last, rfl, remaining⟩

section Invariant
variable {invariant : Hub → Prop} (lasting : Hub.Lasting invariant)
include lasting

/-- What every request of the log preserves holds in the end. -/
theorem run_invariant (runs : x.run turns = (log, y)) (initial : invariant x.hub)
    (step : ∀ before task found request later, log = before ++ .asked task found request :: later → invariant found →
      invariant (found.answer request).2) : invariant y.hub := by
  induction turns generalizing x log with
  | nil =>
    cases runs
    exact initial
  | cons turn turns ih =>
    rcases taken : x.next turn with ⟨_ | o, u⟩
    · rw [run_of_lost taken] at runs
      apply ih runs _ step
      cases turn with
      | receive queue => cases taken
      | endReceiving queue => cases taken
      | task number moment =>
        simp only [next] at taken
        split at taken <;> cases taken
        · exact initial
        · exact initial
    · rw [run_of_taken taken] at runs
      cases runs
      refine ih (x := u) rfl ?_ fun before task found request later split =>
        step (o :: before) task found request later (by rw [split]; rfl)
      cases o with
      | asked task found request =>
        obtain ⟨moment, rest, -, rfl, rfl⟩ := next_asked taken
        exact step [] task _ request _ rfl (lasting.clock moment initial)
      | received queue =>
        cases turn with
        | receive other =>
          cases taken
          exact lasting.receive queue initial
        | endReceiving other => cases taken
        | task number moment =>
          simp only [next] at taken
          split at taken <;> cases taken
      | gone queue =>
        cases turn with
        | receive other => cases taken
        | endReceiving other =>
          cases taken
          exact lasting.endReceiving queue initial
        | task number moment =>
          simp only [next] at taken
          split at taken <;> cases taken

variable {before later : List Occurrence} {task : Nat} {found : Hub} {request : Request}
  (runs : x.run turns = (before ++ .asked task found request :: later, y))
include runs

theorem asked_invariant (initial : invariant x.hub)
    (step : ∀ first other hub asked rest, before = first ++ .asked other hub asked :: rest → invariant hub →
      invariant (hub.answer asked).2) : invariant found := by
  obtain ⟨_, _, _, u, _, -, earlier, now, -⟩ := run_split runs
  obtain ⟨moment, _, -, rfl, -⟩ := next_asked now
  exact lasting.clock moment (run_invariant lasting earlier initial step)

theorem invariant_of_asked (answered : invariant (found.answer request).2)
    (step : ∀ first other hub asked rest, later = first ++ .asked other hub asked :: rest → invariant hub →
      invariant (hub.answer asked).2) : invariant y.hub := by
  obtain ⟨-, -, v, rest, entered, onward⟩ := run_asked runs
  exact run_invariant lasting onward (entered ▸ answered) step

end Invariant

end Execution

end HelpDesk
