import HelpDesk.Proofs.StoreInvariant

/-! An owner and the one active conversation that the owner may have. Starts by one owner, in whatever order they
come, all end up in the same conversation until it is closed. -/

namespace HelpDesk

def Start.conversation : Start → Conversation
  | created c _ => c
  | alreadyOpen c => c

namespace Store

/-- What a request to start comes to. The two cases exclude each other by what the starter has. -/
inductive Started (s : Store) (starter : Identity) (label content : String) : Start → Store → Prop
  | created (c : Conversation) (m : Message) (vacant : s.activeOf starter.user = [])
      (new : ∀ d ∈ s.conversations, d.id ≠ c.id) (owner : c.owner = starter.user) (named : c.label = label)
      (pending : c.status = .pending) (sender : m.sender = starter.user) (written : m.content = content)
      (opening : history ⟨s.conversations ++ [c], s.messages ++ [m]⟩ c.id = [m]) :
      Started s starter label content (.created c m) ⟨s.conversations ++ [c], s.messages ++ [m]⟩
  | alreadyOpen (c : Conversation) (only : s.activeOf starter.user = [c]) :
      Started s starter label content (.alreadyOpen c) s

/-- The answer to a request of the owner to start; none to any other request. -/
def startAnswer? (s : Store) (owner : UserId) (e : Entry) : Option Start :=
  match e.call with
  | .start starter label content =>
    if starter.user = owner then
      some (s.start (e.clock 0) (e.clock 1) ⟨e.fresh 0⟩ ⟨e.fresh 1⟩ starter label content).1
    else none
  | _ => none

def startAnswers (owner : UserId) : Store → List Entry → List Start
  | _, [] => []
  | s, e :: es => (s.startAnswer? owner e).toList ++ startAnswers owner (s.next e) es

/-- The request closes a conversation of the owner, and succeeds. -/
def Closes (s : Store) (owner : UserId) (e : Entry) : Prop :=
  ∃ id assignee c after, e.call = .setStatus id .closed assignee ∧
    s.setStatus (e.clock 0) id .closed assignee = .ok (c, after) ∧ c.owner = owner

def Undisturbed (owner : UserId) : Store → List Entry → Prop
  | _, [] => True
  | s, e :: es => ¬ s.Closes owner e ∧ Undisturbed owner (s.next e) es

/-- Only the first answer may be a new conversation, and the others name the same one. -/
def Agree : List Start → Prop
  | [] => True
  | first :: others => ∀ answer ∈ others, ∃ c, answer = .alreadyOpen c ∧ c.id = first.conversation.id

theorem Valid.started {s : Store} (valid : Valid s) (clock : Nat → Moment) (fresh : Nat → Uuid)
    (starter : Identity) (label content : String) (new : s.get? ⟨fresh 0⟩ = none) :
    ∃ answer after, s.perform clock fresh (.start starter label content) = .ok (answer, after) ∧
      Started s starter label content answer after := by
  simp only [perform, start]
  cases found : s.findActive starter.user with
  | some c =>
    refine ⟨_, _, rfl, .alreadyOpen c ?_⟩
    rw [valid.activeOf_eq, found, Option.toList_some]
  | none =>
    have absent := get?_eq_none_iff.mp new
    refine ⟨_, _, rfl, .created _ _ (findActive_eq_none_iff.mp found) absent rfl rfl rfl rfl rfl ?_⟩
    have before : s.history ⟨fresh 0⟩ = [] := valid.history_of_unused new
    rw [history, List.filter_append]
    exact (congrArg (· ++ _) before).trans (by simp [append, Draft.ofSender])

/-- An active conversation is found until it is closed. -/
theorem Valid.findActive_next {s : Store} (valid : Valid s) {e : Entry} (fresh : Fresh s [e]) {owner : UserId}
    {c : Conversation} (found : s.findActive owner = some c) (kept : ¬ s.Closes owner e) :
    ∃ d, (s.next e).findActive owner = some d ∧ d.id = c.id := by
  obtain ⟨member, active, owned⟩ := valid.findActive_eq_some_iff.mp found
  have later := valid.next fresh
  simp only [later.findActive_eq_some_iff]
  generalize result : s.next e = after at later
  cases result ▸ next_changes s e with
  | none => exact ⟨c, ⟨member, active, owned⟩, rfl⟩
  | message draft asked stored running => exact ⟨c, ⟨member, active, owned⟩, rfl⟩
  | start d m asked vacant row opening => exact ⟨c, ⟨List.mem_append_left _ member, active, owned⟩, rfl⟩
  | @status d status given asked stored moves =>
    by_cases same : c.id = d.id
    · obtain rfl : c = d := List.inj_on_of_nodup_map valid.ids member (mem_of_get? stored) same
      refine ⟨_, ⟨mem_put.mpr (Or.inr ⟨rfl, c, member, rfl⟩), ?_, owned⟩, rfl⟩
      rcases moves.opened_or_closed with rfl | rfl
      · rfl
      · exact (kept ⟨c.id, given, _, _, asked, setStatus_of_moves _ _ stored moves, owned⟩).elim
    · exact ⟨c, ⟨mem_put.mpr (Or.inl ⟨member, same⟩), active, owned⟩, rfl⟩

/-- Right after a start, its starter has the conversation that was the answer. -/
theorem Valid.findActive_of_start {s : Store} (valid : Valid s) {e : Entry} (fresh : Fresh s [e]) {owner : UserId}
    {answer : Start} (asked : s.startAnswer? owner e = some answer) :
    (s.next e).findActive owner = some answer.conversation := by
  have later := valid.next fresh
  obtain ⟨clock, identifiers, call⟩ := e
  unfold startAnswer? at asked
  split at asked
  next starter label content same =>
    simp only at same
    subst same
    split at asked
    next mine =>
      subst mine
      rw [later.findActive_eq_some_iff]
      cases found : s.findActive starter.user with
      | none =>
        simp only [start, found, Option.some.injEq] at asked
        subst asked
        simp [Store.next, perform, start, found, append, Start.conversation, Conversation.isActive, Status.isFinal]
      | some c =>
        simp only [start, found, Option.some.injEq] at asked
        subst asked
        simpa [Store.next, perform, start, found, Start.conversation] using valid.findActive_eq_some_iff.mp found
    next => cases asked
  next => cases asked

theorem startAnswer?_of_found {s : Store} {owner : UserId} {c : Conversation} (found : s.findActive owner = some c)
    {e : Entry} {answer : Start} (asked : s.startAnswer? owner e = some answer) : answer = .alreadyOpen c := by
  unfold startAnswer? at asked
  split at asked
  next starter label content same =>
    split at asked
    next mine =>
      subst mine
      simpa [start, found] using asked.symm
    next => cases asked
  next => cases asked

theorem Valid.startAnswers_of_found {s : Store} (valid : Valid s) {es : List Entry} (fresh : Fresh s es)
    {owner : UserId} (kept : Undisturbed owner s es) {c : Conversation} (found : s.findActive owner = some c) :
    ∀ answer ∈ startAnswers owner s es, ∃ d, answer = .alreadyOpen d ∧ d.id = c.id := by
  induction es generalizing s c with
  | nil => intro answer member; cases member
  | cons e es ih =>
    have first : Fresh s ([e] ++ es) := fresh
    obtain ⟨d, present, same⟩ := valid.findActive_next first.left found kept.1
    intro answer member
    rcases List.mem_append.mp member with now | later
    · exact ⟨c, startAnswer?_of_found found (Option.mem_toList.mp now), rfl⟩
    · obtain ⟨x, opened, equal⟩ := ih (valid.next first.left) fresh.next kept.2 present answer later
      exact ⟨x, opened, equal.trans same⟩

theorem Valid.startAnswers_agree {s : Store} (valid : Valid s) {es : List Entry} (fresh : Fresh s es)
    {owner : UserId} (kept : Undisturbed owner s es) : Agree (startAnswers owner s es) := by
  induction es generalizing s with
  | nil => trivial
  | cons e es ih =>
    have first : Fresh s ([e] ++ es) := fresh
    have later := valid.next first.left
    cases asked : s.startAnswer? owner e with
    | none => simpa [startAnswers, asked] using ih later fresh.next kept.2
    | some answer =>
      simpa [startAnswers, asked, Agree] using
        later.startAnswers_of_found fresh.next kept.2 (valid.findActive_of_start first.left asked)

/-- In every store that a run comes to, an owner's active conversations are exactly the one that is found, if any. A
start creates a conversation exactly when its starter has none. Without a close, an owner's starts all come
to one conversation, which only the first of them may have created. -/
theorem one_active_conversation (es later : List Entry) (fresh : Fresh {} (es ++ later)) :
    (∀ owner, (after {} es).activeOf owner = ((after {} es).findActive owner).toList) ∧
    (∀ clock identifiers starter label content, (after {} es).get? ⟨identifiers 0⟩ = none →
      ∃ answer final, (after {} es).perform clock identifiers (.start starter label content) = .ok (answer, final) ∧
        Started (after {} es) starter label content answer final) ∧
    ∀ owner, Undisturbed owner (after {} es) later → Agree (startAnswers owner (after {} es) later) := by
  have valid : Valid (after {} es) := Valid.initial.after fresh.left
  exact ⟨valid.activeOf_eq, valid.started, fun owner kept => valid.startAnswers_agree fresh.after kept⟩

/-- After a close the owner starts twice, and the conversation is opened in between. -/
theorem one_active_conversation_after_close :
    let customer : Identity := ⟨⟨.ofNat 1⟩, .user⟩
    let es : List Entry := [.at 10 (.start customer "a" "b"), .at 11 (.setStatus ⟨.ofNat 100⟩ .closed none)]
    let later : List Entry := [.at 12 (.start customer "a" "c"), .at 13 (.setStatus ⟨.ofNat 120⟩ .opened none),
      .at 14 (.start customer "a" "d")]
    Fresh {} (es ++ later) ∧ Undisturbed customer.user (after {} es) later ∧
      (startAnswers customer.user (after {} es) later).length = 2 ∧
      Agree (startAnswers customer.user (after {} es) later) := by
  intro customer es later
  have kept : Undisturbed customer.user (after {} es) later := by
    simp [later, Undisturbed, Closes, Entry.at]
  have fresh : Fresh {} (es ++ later) := by decide
  exact ⟨fresh, kept, by decide, (one_active_conversation es later fresh).2.2 customer.user kept⟩

end Store
end HelpDesk
