import HelpDesk.Proofs.Activities
import HelpDesk.Proofs.FailedOperations
import HelpDesk.Proofs.TrimmedTexts

/-! What a start comes to. Its texts are checked first, in an order, and nobody looks at the store for that; then the
store either has a conversation of the party that is not closed, or creates one of the texts as they are trimmed. -/

namespace HelpDesk

namespace Intake

/-- The label that a conversation gets if this is given for one. -/
inductive Labels : Option String → String → Prop
  | given {label : String} (full : ¬ Text.Blank label) : Labels (some label) (Text.trim label)
  | blank {label : String} (blank : Text.Blank label) : Labels (some label) "New Chat"
  | missing : Labels none "New Chat"

/-- The conversation and its first message are what the party has asked for. -/
structure Opens (starter : Identity) (label content : String) (c : Conversation) (m : Message) : Prop where
  owner : c.owner = starter.user
  status : c.status = .pending
  assignee : c.assignee = none
  label : c.label = label
  within : m.conversation = c.id
  sender : m.sender = starter.user
  flags : m.isSystem = starter.role.isSystem ∧ m.isAdmin = starter.role.isAdmin
  content : m.content = content

variable {given : Option String} {label content : String}

theorem labelOf_some (text : String) : labelOf (some text) = if Text.Blank text then "New Chat" else Text.trim text := by
  by_cases blank : Text.Blank text
  · rw [if_pos blank]
    exact if_pos (Text.isEmpty_trim.mpr blank)
  · rw [if_neg blank]
    exact if_neg (mt Text.isEmpty_trim.mp blank)

theorem labels_iff : Labels given label ↔ label = labelOf given := by
  constructor
  · intro labels
    cases labels with
    | given full => rw [labelOf_some, if_neg full]
    | blank blank => rw [labelOf_some, if_pos blank]
    | missing => rfl
  · rintro rfl
    cases given with
    | none => exact .missing
    | some text =>
      rw [labelOf_some]
      split
      next blank => exact .blank blank
      next full => exact .given full

theorem Labels.trim (labels : Labels given label) : Labels (given.map Text.trim) label := by
  cases labels with
  | given full =>
    have twice := Labels.given (mt Text.blank_trim.mp full)
    rwa [Text.trim_trim] at twice
  | blank blank => exact .blank (Text.blank_trim.mpr blank)
  | missing => exact .missing

/-- The checks in their order. Each has its own measure: bytes of the content, characters of the label. -/
theorem check_eq (labels : Labels given label) : check content given =
    if Text.Blank content then .error .emptyContent
    else if 50000 < (Text.trim content).utf8ByteSize then .error .contentTooLong
    else if 255 < label.length then .error .labelTooLong
    else .ok (Text.trim content, label) := by
  rw [labels_iff.mp labels]
  by_cases blank : Text.Blank content
  · rw [if_pos blank]
    exact if_pos (Text.isEmpty_trim.mpr blank)
  · rw [if_neg blank]
    exact if_neg (mt Text.isEmpty_trim.mp blank)

theorem check_error_iff (content : String) (labels : Labels given label) :
    (check content given = .error .emptyContent ↔ Text.Blank content) ∧
    (check content given = .error .contentTooLong ↔ ¬ Text.Blank content ∧ 50000 < (Text.trim content).utf8ByteSize) ∧
    (check content given = .error .labelTooLong ↔
      ¬ Text.Blank content ∧ ¬ 50000 < (Text.trim content).utf8ByteSize ∧ 255 < label.length) := by
  rw [check_eq labels]
  refine ⟨?_, ?_, ?_⟩ <;> split_ifs <;> simp_all

theorem check_ok (labels : Labels given label) {texts : String × String} (checked : check content given = .ok texts) :
    check content given = .ok (Text.trim content, label) := by
  rw [check_eq labels] at checked ⊢
  split_ifs at checked ⊢
  rfl

theorem check_trim (content : String) (given : Option String) :
    check (Text.trim content) (given.map Text.trim) = check content given := by
  have labels : Labels given (labelOf given) := labels_iff.mpr rfl
  rw [check_eq labels, check_eq labels.trim, Text.trim_trim]
  exact ite_congr (propext Text.blank_trim) (fun _ => rfl) fun _ => rfl

theorem start_trim (starter : Identity) (content : String) (given : Option String) :
    start starter (Text.trim content) (given.map Text.trim) = start starter content given := by
  simp only [start, check_trim]

end Intake

theorem Store.Valid.findActive_iff_open {s : Store} (valid : s.Valid) {owner : UserId} {c : Conversation} :
    s.findActive owner = some c ↔ c ∈ s.conversations ∧ c.owner = owner ∧ c.status ≠ .closed := by
  rw [valid.findActive_eq_some_iff, Conversation.isActive_iff]
  exact and_congr_right fun _ => and_comm

theorem Hub.Reaches.valid {h k : Hub} {es : List Store.Entry} (reaches : h.Reaches es k) (empty : h.store = {})
    (distinct : h.Distinct k) : k.store.Valid := by
  have fresh := reaches.fresh distinct
  rw [empty] at fresh
  rw [reaches.store, empty]
  exact .after .initial fresh

namespace Hub
variable {h : Hub} {content label : String} {given : Option String}

theorem Reliable.exists_perform (reliable : h.Reliable) (call : Store.Call) :
    ∃ faults, h.callStore call = ({ h with faults } : Hub).perform call := by
  have goes := h.callStore_goes call
  generalize h.callStore call = outcome at goes
  cases goes with
  | failed error faults inherits unreliable => exact absurd reliable unreliable
  | performed faults => exact ⟨faults, rfl⟩
  | overtaken status faults inherits disturbed => exact absurd reliable.undisturbed disturbed

/-- An announcement is for the dashboards alone. -/
theorem run_announced {α : Type} (h : Hub) (c : Conversation) (value : α) :
    let outcome := h.run ((Dashboard.announce c).bind fun _ => .done value)
    outcome.1 = value ∧ outcome.2.store = h.store := by
  unfold Dashboard.announce Program.broadcast
  split <;> exact ⟨rfl, rfl⟩

theorem run_start_of_error (starter : Identity) {error : IntakeError} (refused : Intake.check content given = .error error) :
    h.run (Intake.start starter content given) = (.error error, h) := by
  rw [Intake.start, refused]
  rfl

/-- A start whose texts are admitted is decided by what the store has of the party. -/
theorem run_start_of_ok (reliable : h.Reliable) (starter : Identity) (checked : Intake.check content given = .ok (Text.trim content, label)) :
    let outcome := h.run (Intake.start starter content given)
    (∀ c, h.store.findActive starter.user = some c → outcome.1 = .ok (.alreadyOpen c) ∧ outcome.2.store = h.store) ∧
    (h.store.findActive starter.user = none → ∃ c m, outcome.1 = .ok (.created c m) ∧
      outcome.2.store = ⟨h.store.conversations ++ [c], h.store.messages ++ [m]⟩ ∧
      Intake.Opens starter label (Text.trim content) c m) := by
  intro outcome
  obtain ⟨faults, performs⟩ := reliable.exists_perform (.start starter label (Text.trim content))
  have run : outcome = h.run (Intake.start starter content given) := rfl
  rw [Intake.start, checked] at run
  change outcome = h.run ((Program.store (.start starter label (Text.trim content))).bind _) at run
  rw [Program.run_store_bind, performs] at run
  constructor
  · intro c active
    have started : ({ h with faults } : Hub).store.findActive starter.user = some c := active
    simp only [perform, Store.perform, Store.start, started] at run
    rw [run]
    exact ⟨rfl, rfl⟩
  · intro vacant
    have started : ({ h with faults } : Hub).store.findActive starter.user = none := vacant
    simp only [perform, Store.perform, Store.start, started] at run
    rw [run]
    let c : Conversation := ⟨⟨h.fresh 0⟩, starter.user, none, label, .pending, h.clock, h.clock⟩
    let m : Message := ⟨⟨h.fresh 1⟩, c.id, starter.user, Text.trim content, starter.role.isSystem, starter.role.isAdmin,
      h.readings 1⟩
    have opens : Intake.Opens starter label (Text.trim content) c m := ⟨rfl, rfl, rfl, rfl, rfl, rfl, ⟨rfl, rfl⟩, rfl⟩
    obtain ⟨answer, store⟩ := run_announced _ c _
    exact ⟨c, m, answer, store, opens⟩

/-- With a store that works, the checks alone decide whether a start is refused. -/
theorem Reliable.run_start_error_iff (reliable : h.Reliable) (starter : Identity) (content : String)
    (labels : Intake.Labels given label) (error : IntakeError) :
    (h.run (Intake.start starter content given)).1 = .error error ↔ Intake.check content given = .error error := by
  constructor
  · intro failed
    cases checked : Intake.check content given with
    | error other =>
      rw [run_start_of_error starter checked] at failed
      cases failed
      rfl
    | ok texts =>
      obtain ⟨found, created⟩ := run_start_of_ok reliable starter (Intake.check_ok labels checked)
      cases active : h.store.findActive starter.user with
      | some c => cases failed.symm.trans (found c active).1
      | none =>
        obtain ⟨c, m, answer, -⟩ := created active
        cases failed.symm.trans answer
  · intro refused
    rw [run_start_of_error starter refused]

end Hub

/-- Whatever the parties have done before, and whatever has failed: in a hub whose store works now, a start is refused for
its content if that is blank, else if what is left of it without blanks at its ends has more than 50,000 bytes, else for
its label if that has more than 255 characters; and for nothing else. A start that is refused changes nothing. One that is
not finds the party's conversation that is not closed, or creates one, whose label and first message are what was asked for
without the blanks. Trimming the texts before makes no difference. -/
theorem start_accepts_valid_requests {database : Http.DatabaseHealth} {hub : Hub} (empty : hub.store = {})
    {activities : List Activity} {turns : List Turn} {log : List Occurrence} {y : Execution Unit}
    (runs : (Execution.serving database hub activities).run turns = (log, y)) (distinct : hub.Distinct y.hub)
    (reliable : y.hub.Reliable) (starter : Identity) (content : String) {given : Option String} {label : String}
    (labels : Intake.Labels given label) :
    let outcome := y.hub.run (Intake.start starter content given)
    let open? (c : Conversation) := c ∈ y.hub.store.conversations ∧ c.owner = starter.user ∧ c.status ≠ .closed
    (outcome.1 = .error .emptyContent ↔ Text.Blank content) ∧
    (outcome.1 = .error .contentTooLong ↔ ¬ Text.Blank content ∧ 50000 < (Text.trim content).utf8ByteSize) ∧
    (outcome.1 = .error .labelTooLong ↔
      ¬ Text.Blank content ∧ ¬ 50000 < (Text.trim content).utf8ByteSize ∧ 255 < label.length) ∧
    (∀ error, outcome.1 = .error error → outcome.2 = y.hub) ∧
    (¬ Text.Blank content → ¬ 50000 < (Text.trim content).utf8ByteSize → ¬ 255 < label.length →
      (∀ c, open? c → outcome.1 = .ok (.alreadyOpen c) ∧ outcome.2.store = y.hub.store) ∧
      ((∀ c, ¬ open? c) → ∃ c m, outcome.1 = .ok (.created c m) ∧
        outcome.2.store = ⟨y.hub.store.conversations ++ [c], y.hub.store.messages ++ [m]⟩ ∧
        Intake.Opens starter label (Text.trim content) c m)) ∧
    y.hub.run (Intake.start starter (Text.trim content) (given.map Text.trim)) = outcome := by
  obtain ⟨-, es, reaches⟩ := Execution.run_hub runs
  have valid : y.hub.store.Valid := reaches.valid empty distinct
  have found (c : Conversation) : y.hub.store.findActive starter.user = some c ↔ _ := valid.findActive_iff_open
  have refused := reliable.run_start_error_iff starter content labels
  have unchanged (error : IntakeError) (checked : Intake.check content given = .error error) :=
    y.hub.run_start_of_error starter checked
  have decided (checked : Intake.check content given = .ok (Text.trim content, label)) :=
    Hub.run_start_of_ok reliable starter checked
  have trimmed : y.hub.run (Intake.start starter (Text.trim content) (given.map Text.trim)) =
      y.hub.run (Intake.start starter content given) := by
    rw [Intake.start_trim]
  obtain ⟨empty, long, wide⟩ := Intake.check_error_iff content labels
  generalize y.hub.run (Intake.start starter content given) = outcome at *
  intro outcome open?
  refine ⟨(refused _).trans empty, (refused _).trans long, (refused _).trans wide, fun error failed => ?_, ?_, trimmed⟩
  · exact congrArg Prod.snd (unchanged error ((refused error).mp failed))
  · intro full small short
    have checked : Intake.check content given = .ok (Text.trim content, label) := by
      rw [Intake.check_eq labels, if_neg full, if_neg small, if_neg short]
    obtain ⟨finds, creates⟩ := decided checked
    refine ⟨fun c there => finds c ((found c).mpr there), fun vacant => creates ?_⟩
    exact Option.eq_none_iff_forall_ne_some.mpr fun c active => vacant c ((found c).mp active)

/-- A party that has an open conversation gets it back. Another one may use up the 255 characters of a label, whatever
blanks are around them, and not one more. -/
theorem start_accepts_valid_requests_of_blanks :
    let hub : Hub := { settings := .default, clock := ⟨0, 0⟩, mint := fun n => .ofNat (n + 1) }
    let customer : Identity := ⟨⟨.ofNat 1001⟩, .user⟩
    let guest : Identity := ⟨⟨.ofNat 1002⟩, .guest⟩
    let content := "\u2003b\n"
    let wide (n : Nat) := " " ++ String.ofList (List.replicate n 'é') ++ "\u3000"
    let (_, y) := (Execution.serving .memory hub [.operation (.start customer "a" none)]).run
      [.task 0 ⟨1, 0⟩, .task 0 ⟨2, 0⟩]
    (∃ c ∈ y.hub.store.conversations, (y.hub.run (Intake.start customer content (some "\t"))).1 = .ok (.alreadyOpen c)) ∧
    (∃ c m, (y.hub.run (Intake.start guest content (some (wide 255)))).1 = .ok (.created c m) ∧
      c.label.length = 255 ∧ m.content = "b") ∧
    (y.hub.run (Intake.start guest content (some (wide 256)))).1 = .error .labelTooLong := by
  intro hub customer guest content wide
  have facts :
      let (_, y) := (Execution.serving .memory hub [.operation (.start customer "a" none)]).run
        [.task 0 ⟨1, 0⟩, .task 0 ⟨2, 0⟩]
      hub.Distinct y.hub ∧ (∃ c ∈ y.hub.store.conversations, c.owner = customer.user ∧ c.status ≠ .closed) ∧
        (∀ c ∈ y.hub.store.conversations, c.owner ≠ guest.user) := by
    unfold Hub.Distinct
    decide +kernel
  have texts : ¬ Text.Blank content ∧ Text.trim content = "b" := by decide
  have label (n : Nat) : Text.trim (wide (n + 1)) = String.ofList (List.replicate (n + 1) 'é') := by
    have solid : ∀ c ∈ List.replicate (n + 1) 'é', Text.isBlank c = false := fun c there => by
      rw [List.eq_of_mem_replicate there]
      decide
    refine Text.trim_eq_iff.mpr ⟨⟨fun c there => solid c ?_, fun c there => solid c ?_⟩, [' '], ['\u3000'], ?_, by simp [Text.isBlank]⟩
    · exact List.mem_of_mem_head? (by rwa [String.toList_ofList] at there)
    · exact List.mem_of_mem_getLast? (by rwa [String.toList_ofList] at there)
    · simp [wide]
  have visible (n : Nat) : ¬ Text.Blank (wide (n + 1)) := by
    rw [← Text.trim_eq_empty_iff, label, ← String.toList_inj, String.toList_ofList]
    exact List.cons_ne_nil _ _
  have length (n : Nat) : (Text.trim (wide (n + 1))).length = n + 1 := by
    rw [label, String.length_ofList, List.length_replicate]
  rcases runs : (Execution.serving .memory hub [.operation (.start customer "a" none)]).run
    [.task 0 ⟨1, 0⟩, .task 0 ⟨2, 0⟩] with ⟨log, y⟩
  rw [runs] at facts
  have reliable : y.hub.Reliable := (Execution.run_inherits runs).reliable ⟨rfl, fun _ _ there => by cases there⟩
  obtain ⟨distinct, ⟨c, there, own, unclosed⟩, foreign⟩ := facts
  obtain ⟨full, trimmed⟩ := texts
  clear_value content wide
  have small : ¬ 50000 < (Text.trim content).utf8ByteSize := by
    rw [trimmed]
    decide
  refine ⟨⟨c, there, ?_⟩, ?_, ?_⟩
  · obtain ⟨-, -, -, -, admitted, -⟩ := start_accepts_valid_requests rfl runs distinct reliable customer content
      (.blank (by decide : Text.Blank "\t"))
    exact ((admitted full small (by decide)).1 c ⟨there, own, unclosed⟩).1
  · obtain ⟨-, -, -, -, admitted, -⟩ := start_accepts_valid_requests rfl runs distinct reliable guest content
      (.given (visible 254))
    rw [length 254] at admitted
    obtain ⟨c, m, created, -, opens⟩ := (admitted full small (by decide)).2 fun c there => foreign c there.1 there.2.1
    exact ⟨c, m, created, by rw [opens.label, length 254], opens.content.trans trimmed⟩
  · obtain ⟨-, -, refused, -⟩ := start_accepts_valid_requests rfl runs distinct reliable guest content
      (.given (visible 255))
    exact refused.mpr ⟨full, small, by rw [length 255]; decide⟩

end HelpDesk
