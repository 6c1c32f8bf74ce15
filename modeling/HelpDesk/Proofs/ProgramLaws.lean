import HelpDesk.Proofs.Operations

/-! Laws of what a program asks for. Whether a request is allowed depends on what the program has asked before and on the
replies to that, and on nothing that others do in between. So a law that is shown of a program by itself holds of it in
every execution. -/

namespace HelpDesk

namespace Program
variable {α β : Type} {law : List Occurrence → Request → Prop} {post : List Occurrence → α → Prop}
  {os : List Occurrence} {program : Program α}

/-- Whatever the replies are, each request is allowed after those before it, of which the first are `os`; and what the
program comes to is as it should be after all of them. -/
inductive Obeys (law : List Occurrence → Request → Prop) (post : List Occurrence → α → Prop) :
    List Occurrence → Program α → Prop
  | done {os : List Occurrence} {value : α} (ends : post os value) : Obeys law post os (.done value)
  | ask {os : List Occurrence} {request : Request} {rest : request.Reply → Program α} (allowed : law os request)
      (later : ∀ task hub, Obeys law post (os ++ [.asked task hub request]) (rest (hub.answer request).1)) :
      Obeys law post os (.ask request rest)

theorem Obeys.bind {next : α → Program β} {last : List Occurrence → β → Prop} (first : program.Obeys law post os)
    (rest : ∀ ps value, post ps value → (next value).Obeys law last ps) : (program.bind next).Obeys law last os := by
  induction first with
  | done ends => exact rest _ _ ends
  | ask allowed later ih => exact .ask allowed ih

theorem Obeys.weaken {other : List Occurrence → α → Prop} (obeys : program.Obeys law post os)
    (implies : ∀ ps value, post ps value → other ps value) : program.Obeys law other os := by
  induction obeys with
  | done ends => exact .done (implies _ _ ends)
  | ask allowed later ih => exact .ask allowed ih

/-- A program that obeys comes to a value on one of its ways. -/
theorem Obeys.remember (obeys : program.Obeys law post os) :
    program.Obeys law (fun ps value => post ps value ∧ ∃ later, ps = os ++ later ∧ program.Path later (.done value)) os := by
  induction obeys with
  | done ends => exact .done ⟨ends, [], (List.append_nil _).symm, .nil _⟩
  | @ask os request rest allowed later ih =>
    refine .ask allowed fun task hub => (ih task hub).weaken ?_
    rintro ps value ⟨ends, onward, rfl, path⟩
    exact ⟨ends, _, List.append_assoc .., .cons task hub path⟩

theorem Path.obeys {last : Program α} {ps : List Occurrence} (path : program.Path ps last)
    (obeys : program.Obeys law post os) :
    (∀ before o after, ps = before ++ o :: after →
      ∃ task hub request, o = .asked task hub request ∧ law (os ++ before) request) ∧ last.Obeys law post (os ++ ps) := by
  induction path generalizing os with
  | nil program =>
    refine ⟨fun before o after same => by simp at same, ?_⟩
    rwa [List.append_nil]
  | @cons request rest ps last task hub path ih =>
    cases obeys with
    | ask allowed later =>
      obtain ⟨each, final⟩ := ih (later task hub)
      rw [List.append_assoc] at final
      refine ⟨fun before o after same => ?_, final⟩
      cases before with
      | nil =>
        obtain ⟨rfl, -⟩ := List.cons.inj same
        exact ⟨task, hub, request, rfl, by rwa [List.append_nil]⟩
      | cons head before =>
        obtain ⟨rfl, same'⟩ := List.cons.inj same
        have step := each before o after same'
        rwa [List.append_assoc] at step

section Asks
variable {allowed : Request → Prop}

/-- Every request of the program is allowed, whatever the replies are. -/
inductive Asks (allowed : Request → Prop) : Program α → Prop
  | done (value : α) : Asks allowed (.done value)
  | ask {request : Request} {rest : request.Reply → Program α} (permitted : allowed request)
      (later : ∀ reply, (rest reply).Asks allowed) : Asks allowed (.ask request rest)

theorem Asks.bind {next : α → Program β} (first : program.Asks allowed) (rest : ∀ value, (next value).Asks allowed) :
    (program.bind next).Asks allowed := by
  induction first with
  | done value => exact rest value
  | ask permitted later ih => exact .ask permitted ih

theorem Asks.map (asks : program.Asks allowed) (f : α → β) : (f <$> program).Asks allowed :=
  asks.bind fun _ => .done _

theorem Announces.asks {pending : Option Parcel} (announces : program.Announces allowed pending) :
    program.Asks allowed := by
  induction announces with
  | done value => exact .done value
  | ask permitted first later ih => exact .ask permitted ih

theorem Path.asks {last : Program α} {os : List Occurrence} (path : program.Path os last) (asks : program.Asks allowed)
    {task : Nat} {hub : Hub} {request : Request} (there : .asked task hub request ∈ os) : allowed request := by
  induction path with
  | nil program => cases there
  | cons other found path ih =>
    cases asks with
    | ask permitted later =>
      rcases List.mem_cons.mp there with same | there
      · cases same
        exact permitted
      · exact ih (later _) there

end Asks

end Program

/-- In an execution, a task asks for what the law of its program allows after its own turns. -/
theorem Execution.run_obeys {α : Type} {x y : Execution α} {turns : List Turn} {before later : List Occurrence}
    {task : Nat} {found : Hub} {request : Request} (runs : x.run turns = (before ++ .asked task found request :: later, y))
    {law : List Occurrence → Request → Prop} {post : List Occurrence → α → Prop}
    (obeys : ∀ program, x.tasks[task]? = some program → program.Obeys law post []) :
    law (before.filter (·.isOf task)) request := by
  obtain ⟨program, last, there, path⟩ := run_program runs rfl
  obtain ⟨_, _, _, same, allowed⟩ := (path.obeys (obeys program there)).1 _ _ _ rfl
  cases same
  exact allowed

end HelpDesk
