import HelpDesk.Proofs.Executions

/-! Runs that differ in the errors of the database, and in nothing else. Where one run meets an error of the database the
other meets one as well, though perhaps another one. Whether a program treats them alike is said of the program itself: two
programs are alike if they ask for the same, and go on alike whatever errors of the database they are told. -/

namespace HelpDesk

/-- Both errors say that there is no row, or neither does. -/
def DatabaseError.Alike (e f : DatabaseError) : Prop :=
  e = .rowNotFound ↔ f = .rowNotFound

instance (e f : DatabaseError) : Decidable (e.Alike f) :=
  inferInstanceAs (Decidable (_ ↔ _))

theorem DatabaseError.Alike.refl (e : DatabaseError) : e.Alike e :=
  Iff.rfl

/-- The two are the same, or they differ in the error of the database that they wrap. -/
inductive Varies {ε : Type} (wrap : DatabaseError → ε) : ε → ε → Prop
  | same (x : ε) : Varies wrap x x
  | database {e f : DatabaseError} (alike : e.Alike f) : Varies wrap (wrap e) (wrap f)

/-- The same result, or errors that are alike. -/
inductive Agree {ε α : Type} (alike : ε → ε → Prop) : Except ε α → Except ε α → Prop
  | ok (value : α) : Agree alike (.ok value) (.ok value)
  | error {e f : ε} (errors : alike e f) : Agree alike (.error e) (.error f)

theorem Agree.same {ε α : Type} {wrap : DatabaseError → ε} (result : Except ε α) : Agree (Varies wrap) result result := by
  cases result with
  | ok value => exact .ok value
  | error error => exact .error (.same error)

def Request.Alike : (request : Request) → request.Reply → request.Reply → Prop
  | store _ => Agree (Varies StoreError.database)
  | rooms _ | join _ _ _ _ _ | roomCount => Eq

namespace Program
variable {α β γ δ : Type} {R : α → β → Prop} {S : γ → δ → Prop} {p : Program α} {q : Program β}

/-- The programs ask for the same, come to related values, and go on alike for replies that are alike. -/
inductive Alike (R : α → β → Prop) : Program α → Program β → Prop
  | done {a : α} {b : β} (values : R a b) : Alike R (.done a) (.done b)
  | ask {request : Request} {left : request.Reply → Program α} {right : request.Reply → Program β}
      (later : ∀ a b, request.Alike a b → Alike R (left a) (right b)) : Alike R (.ask request left) (.ask request right)

theorem Alike.bind {left : α → Program γ} {right : β → Program δ} (first : p.Alike R q)
    (rest : ∀ a b, R a b → (left a).Alike S (right b)) : (p.bind left).Alike S (q.bind right) := by
  induction first with
  | done values => exact rest _ _ values
  | ask later ih => exact .ask ih

theorem Alike.map {f : α → γ} {g : β → δ} (alike : p.Alike R q) (values : ∀ a b, R a b → S (f a) (g b)) :
    (f <$> p).Alike S (g <$> q) :=
  alike.bind fun _ _ related => .done (values _ _ related)

/-- A request to the store is carried out for both, or fails for both. -/
theorem Alike.store {call : Store.Call} {left : Except StoreError call.Answer → Program α}
    {right : Except StoreError call.Answer → Program β}
    (failed : ∀ e f, Varies StoreError.database e f → (left (.error e)).Alike R (right (.error f)))
    (carried : ∀ answer, (left (.ok answer)).Alike R (right (.ok answer))) :
    ((Program.store call).bind left).Alike R ((Program.store call).bind right) := by
  refine .ask fun a b replies => ?_
  cases replies with
  | ok answer => exact carried answer
  | error errors => exact failed _ _ errors

/-- A request to the registry has one reply. -/
theorem Alike.rooms {command : Registry.Command Parcel} {left : Unit → Program α} {right : Unit → Program β}
    (later : (left ()).Alike R (right ())) : (Program.ask (.rooms command) left).Alike R (.ask (.rooms command) right) :=
  .ask fun _ _ _ => later

theorem Alike.value? {p q : Program α} (alike : p.Alike Eq q) : p.value? = q.value? := by
  cases alike with
  | done values => exact congrArg some values
  | ask later => rfl

end Program

namespace Hub
variable {h k : Hub}

/-- The hubs differ in nothing but the errors of the database that are to come. -/
structure Alike (h k : Hub) : Prop where
  same : k = { h with outage := k.outage, faults := k.faults }
  outage : h.outage.Alike k.outage
  faults : ∀ method, List.Forall₂ (Varies fun e => some (.fail (.database e))) (h.faults method) (k.faults method)

theorem Alike.exists_eq (alike : h.Alike k) : ∃ outage faults, k = { h with outage, faults } :=
  ⟨_, _, alike.same⟩

theorem Alike.registry (alike : h.Alike k) : k.registry = h.registry := by
  rw [alike.same]

theorem Alike.settings (alike : h.Alike k) : k.settings = h.settings := by
  rw [alike.same]

theorem Alike.withClock (alike : h.Alike k) (now : Moment) : Hub.Alike { h with clock := now } { k with clock := now } := by
  obtain ⟨outage, faults, rfl⟩ := alike.exists_eq
  exact ⟨rfl, alike.outage, alike.faults⟩

theorem Alike.withRegistry (alike : h.Alike k) (change : Registry Parcel → Registry Parcel) :
    Hub.Alike { h with registry := change h.registry } { k with registry := change k.registry } := by
  obtain ⟨outage, faults, rfl⟩ := alike.exists_eq
  exact ⟨rfl, alike.outage, alike.faults⟩

theorem Alike.perform (alike : h.Alike k) (call : Store.Call) :
    (h.perform call).1 = (k.perform call).1 ∧ (h.perform call).2.Alike (k.perform call).2 := by
  obtain ⟨outage, faults, rfl⟩ := alike.exists_eq
  have fresh : ({ h with outage, faults } : Hub).fresh = h.fresh := rfl
  have readings : ({ h with outage, faults } : Hub).readings = h.readings := rfl
  simp only [Hub.perform, fresh, readings]
  cases h.store.perform h.readings h.fresh call with
  | error error => exact ⟨rfl, alike⟩
  | ok result => exact ⟨rfl, rfl, alike.outage, alike.faults⟩

theorem Alike.moveIfPossible (alike : h.Alike k) (id : ConversationId) (status : Status) :
    (h.moveIfPossible id status).Alike (k.moveIfPossible id status) := by
  obtain ⟨outage, faults, rfl⟩ := alike.exists_eq
  simp only [Hub.moveIfPossible]
  cases h.store.setStatus h.clock id status none with
  | error error => exact alike
  | ok result => exact ⟨rfl, alike.outage, alike.faults⟩

/-- Both hubs use up a fault or neither does, and it is the same or an error of the database. -/
theorem Alike.nextFault (alike : h.Alike k) (method : Store.Method) :
    Varies (fun e => some (.fail (.database e))) (h.nextFault method).1 (k.nextFault method).1 ∧
      (h.nextFault method).2.Alike (k.nextFault method).2 := by
  have there := alike.faults method
  simp only [Hub.nextFault]
  cases left : h.faults method with
  | nil =>
    rw [left] at there
    rw [List.forall₂_nil_left_iff.mp there]
    exact ⟨.same none, alike⟩
  | cons fault rest =>
    rw [left] at there
    obtain ⟨fault', rest', first, later, right⟩ := List.forall₂_cons_left_iff.mp there
    rw [right]
    refine ⟨first, ?_, alike.outage, fun other => ?_⟩
    · rw [alike.same]
    · by_cases same : other = method
      · simpa [same] using later
      · simpa [same] using alike.faults other

/-- A request to the store is carried out in both hubs, or fails in both with errors that are alike. -/
theorem Alike.callStore (alike : h.Alike k) (call : Store.Call) :
    Agree (Varies StoreError.database) (h.callStore call).1 (k.callStore call).1 ∧
      (h.callStore call).2.Alike (k.callStore call).2 := by
  have reachable : k.reachable = h.reachable := by rw [alike.same]
  simp only [Hub.callStore, reachable]
  split
  · exact ⟨.error (.database alike.outage), alike⟩
  · obtain ⟨fault, after⟩ := alike.nextFault call.method
    generalize h.nextFault call.method = left at fault after
    generalize k.nextFault call.method = right at fault after
    obtain ⟨f, h⟩ := left
    obtain ⟨g, k⟩ := right
    dsimp only at fault after
    cases fault with
    | database errors => exact ⟨.error (.database errors), after⟩
    | same =>
      have performed := after.perform call
      rcases f with _ | failure | status
      · exact ⟨performed.1 ▸ .same _, performed.2⟩
      · exact ⟨.same _, after⟩
      · dsimp only
        generalize h.perform call = left at performed
        generalize k.perform call = right at performed
        obtain ⟨result, l⟩ := left
        obtain ⟨result', m⟩ := right
        obtain ⟨rfl, later⟩ : result = result' ∧ l.Alike m := performed
        cases result with
        | error error => exact ⟨.same _, later⟩
        | ok answer => exact ⟨.same _, later.moveIfPossible call.subject status⟩

theorem Alike.answer (alike : h.Alike k) (request : Request) :
    request.Alike (h.answer request).1 (k.answer request).1 ∧ (h.answer request).2.Alike (k.answer request).2 := by
  cases request with
  | store call => exact alike.callStore call
  | rooms command => exact ⟨rfl, alike.withRegistry (·.apply command)⟩
  | join room session identity capacity holding =>
    have joined := alike.withRegistry fun r => (r.join room session identity capacity holding).2
    have queue : (k.registry.join room session identity capacity holding).1 =
        (h.registry.join room session identity capacity holding).1 := by rw [alike.registry]
    exact ⟨queue.symm, joined⟩
  | roomCount =>
    have rooms : k.registry.roomCount = h.registry.roomCount := by rw [alike.registry]
    exact ⟨rooms.symm, alike⟩

/-- Programs that are alike come to related values in hubs that are alike, and leave them alike. -/
theorem Alike.run {α β : Type} {R : α → β → Prop} {p : Program α} {q : Program β} (programs : p.Alike R q)
    (alike : h.Alike k) : R (h.run p).1 (k.run q).1 ∧ (h.run p).2.Alike (k.run q).2 := by
  induction programs generalizing h k with
  | done values => exact ⟨values, alike⟩
  | ask later ih => exact ih _ _ (alike.answer _).1 (alike.answer _).2

end Hub

namespace Execution
variable {α : Type} {x y : Execution α}

/-- The hubs are alike, and the tasks one by one. -/
structure Alike (x y : Execution α) : Prop where
  hub : x.hub.Alike y.hub
  tasks : ∀ task : Nat, Option.Rel (Program.Alike Eq) x.tasks[task]? y.tasks[task]?

theorem Alike.value? (alike : x.Alike y) (task : Nat) : x.value? task = y.value? task := by
  have there := alike.tasks task
  simp only [Execution.value?]
  generalize x.tasks[task]? = p at there
  generalize y.tasks[task]? = q at there
  cases there with
  | none => rfl
  | some programs => exact programs.value?

theorem Alike.next (alike : x.Alike y) (turn : Turn) : (x.next turn).2.Alike (y.next turn).2 := by
  cases turn with
  | receive queue => exact ⟨alike.hub.withRegistry fun r => (r.receive queue).2, alike.tasks⟩
  | endReceiving queue => exact ⟨alike.hub.withRegistry (·.endReceiving queue), alike.tasks⟩
  | task number now =>
    have there := alike.tasks number
    simp only [Execution.next]
    generalize left : x.tasks[number]? = p at there
    generalize right : y.tasks[number]? = q at there
    cases there with
    | none => exact alike
    | some programs =>
      cases programs with
      | done values => exact alike
      | ask later =>
        obtain ⟨replies, hubs⟩ := (alike.hub.withClock now).answer _
        refine ⟨hubs, fun task => ?_⟩
        obtain ⟨inside, -⟩ := List.getElem?_eq_some_iff.mp left
        obtain ⟨inside', -⟩ := List.getElem?_eq_some_iff.mp right
        by_cases same : number = task
        · subst same
          rw [List.getElem?_set_self inside, List.getElem?_set_self inside']
          exact .some (later _ _ replies)
        · rw [List.getElem?_set_ne same, List.getElem?_set_ne same]
          exact alike.tasks task

/-- The same turns keep executions alike. -/
theorem Alike.run (alike : x.Alike y) (turns : List Turn) : (x.run turns).2.Alike (y.run turns).2 := by
  induction turns generalizing x y with
  | nil => exact alike
  | cons turn turns ih => exact ih (alike.next turn)

end Execution

end HelpDesk
