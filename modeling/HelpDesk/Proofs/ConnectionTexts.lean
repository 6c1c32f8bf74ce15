import HelpDesk.Proofs.TextTurns

/-! What becomes of the texts of a connection, however others take turns meanwhile. A text is refused, or it is stored as a
message and the message is sent to the room; nothing else is stored or said to a room. -/

namespace HelpDesk

/-- The message that a request has stored, by its reply. -/
def Request.posted? : (request : Request) → request.Reply → Option Message
  | .store (.createMessage _), reply =>
    match reply with
    | .ok (message : Message) => some message
    | .error _ => none
  | .store (.start _ _ _), reply =>
    match reply with
    | .ok (.created _ opening) => some opening
    | .ok (.alreadyOpen _) | .error _ => none
  | .store (.setStatus _ _ _), _ | .store (.get _), _ | .store (.findActive _), _ | .store .listActive, _
  | .store (.listMessages _ _ _), _ | .rooms _, _ | .join _ _ _ _ _, _ | .roomCount, _ => none

def Frame.chat? : Frame → Option ChatFrame
  | chat frame => some frame
  | summaries _ | error _ | plain _ => none

/-- The chat frame that a request sends to a room. -/
def Request.said? (room : ConversationId) : Request → Option ChatFrame
  | rooms (.broadcast other parcel) => if other = room then parcel.frame.chat? else none
  | rooms (.leave _ _) | rooms (.sendTo _ _ _) | rooms (.release _ _ _) | store _ | join _ _ _ _ _ | roomCount => none

namespace Occurrence

def posted? : Occurrence → Option Message
  | asked _ hub request => request.posted? (hub.answer request).1
  | received _ | gone _ => none

/-- The message that was stored in a conversation. -/
def written? (id : ConversationId) (o : Occurrence) : Option Message :=
  o.posted?.filter (·.conversation = id)

def said? (room : ConversationId) : Occurrence → Option ChatFrame
  | asked _ _ request => request.said? room
  | received _ | gone _ => none

/-- Does the clock show a time that has a text? -/
def Dated : Occurrence → Prop
  | asked _ hub _ => hub.clock.toChars?.isSome
  | received _ | gone _ => True

end Occurrence

theorem Store.messages_of_perform {s t : Store} {clock : Nat → Moment} {fresh : Nat → Uuid} {call : Call}
    {answer : call.Answer} (performed : s.perform clock fresh call = .ok (answer, t)) :
    t.messages = s.messages ++ (Request.posted? (.store call) (.ok answer)).toList := by
  cases performed_of_ok performed with
  | posted | created => rfl
  | got | foundActive | listedActive | listedMessages | moved | alreadyOpen => exact (List.append_nil _).symm

namespace Hub

theorem moveIfPossible_messages (h : Hub) (id : ConversationId) (status : Status) :
    (h.moveIfPossible id status).store.messages = h.store.messages := by
  unfold moveIfPossible
  cases moved : h.store.setStatus h.clock id status none with
  | error error => rfl
  | ok result =>
    have performed : h.store.perform h.readings h.fresh (.setStatus id status none) = .ok (result.1, result.2) :=
      moved
    exact (Store.messages_of_perform performed).trans (List.append_nil _)

/-- A request stores the message that its reply tells of, after all others, and no more. -/
theorem answer_messages (h : Hub) (request : Request) :
    (h.answer request).2.store.messages = h.store.messages ++ (request.posted? (h.answer request).1).toList := by
  cases request with
  | rooms command => exact (List.append_nil _).symm
  | join room session identity capacity holding => exact (List.append_nil _).symm
  | roomCount => exact (List.append_nil _).symm
  | store call =>
    show (h.callStore call).2.store.messages =
      h.store.messages ++ (Request.posted? (.store call) (h.callStore call).1).toList
    have failed (error : StoreError) : h.store.messages =
        h.store.messages ++ (Request.posted? (.store call) (.error error)).toList := by
      cases call <;> exact (List.append_nil _).symm
    have performed (faults : Store.Method → List (Option Fault)) :
        (({ h with faults } : Hub).perform call).2.store.messages =
          h.store.messages ++ (Request.posted? (.store call) (({ h with faults } : Hub).perform call).1).toList := by
      rw [perform_faults]
      unfold perform
      cases carried : h.store.perform h.readings h.fresh call with
      | error error => exact failed error
      | ok result => exact Store.messages_of_perform carried
    have goes := h.callStore_goes call
    generalize h.callStore call = outcome at goes
    cases goes with
    | failed error faults => exact failed error
    | performed faults => exact performed faults
    | overtaken status faults inherits disturbed carried =>
      have first := performed faults
      rw [carried] at first
      exact (moveIfPossible_messages _ call.subject status).trans first

theorem message_of_created {h : Hub} {draft : Draft} {m : Message}
    (created : (h.answer (.store (.createMessage draft))).1 = (.ok m : Except StoreError Message)) :
    ∃ id, m = ⟨id, draft.conversation, draft.sender, draft.content, draft.isSystem, draft.isAdmin, h.clock⟩ := by
  have called := h.callStore_called (.createMessage draft)
  change (h.callStore (.createMessage draft)).1 = _ at created
  generalize h.callStore (.createMessage draft) = outcome at called created
  cases called with
  | failed error l same registry => cases created
  | carried answer k l performed reaches others overtaken registry =>
    generalize k.store = t at performed
    cases Store.performed_of_ok performed with
    | posted stored active =>
      cases created
      exact ⟨_, rfl⟩

end Hub

theorem Execution.run_messages {α : Type} {x y : Execution α} {turns : List Turn} {log : List Occurrence}
    (runs : x.run turns = (log, y)) : y.hub.store.messages = x.hub.store.messages ++ log.filterMap (·.posted?) := by
  induction turns generalizing x log with
  | nil =>
    cases runs
    exact (List.append_nil _).symm
  | cons turn turns ih =>
    cases runs
    have first : (x.next turn).2.hub.store.messages =
        x.hub.store.messages ++ (x.next turn).1.toList.filterMap (·.posted?) := by
      cases turn with
      | receive queue => exact (List.append_nil _).symm
      | endReceiving queue => exact (List.append_nil _).symm
      | task number moment =>
        simp only [next]
        split
        · next request rest found =>
          apply (Hub.answer_messages _ request).trans
          rw [Option.toList_some, List.filterMap_cons]
          congr 1
        · exact (List.append_nil _).symm
        · exact (List.append_nil _).symm
    rw [ih (x := (x.next turn).2) rfl, first, List.filterMap_append, List.append_assoc]

theorem Execution.run_history {α : Type} {x y : Execution α} {turns : List Turn} {log : List Occurrence}
    (runs : x.run turns = (log, y)) (id : ConversationId) :
    y.hub.store.history id = x.hub.store.history id ++ log.filterMap (·.written? id) := by
  rw [Store.history, Store.history, run_messages runs, List.filter_append, List.filter_filterMap]
  congr 1

/-- No chat frame goes to a single member, and nobody joins or is released. -/
def Request.Plain : Request → Prop
  | rooms (.sendTo _ _ parcel) => parcel.frame.chat? = none
  | rooms (.release _ _ _) | join _ _ _ _ _ => False
  | rooms (.leave _ _) | rooms (.broadcast _ _) | store _ | roomCount => True

def Occurrence.Plain : Occurrence → Prop
  | asked _ _ request => request.Plain
  | received _ | gone _ => True

/-- In a turn like this, no message is stored and nothing is said in a conversation. -/
structure Occurrence.Aside (o : Occurrence) : Prop where
  plain : o.Plain
  unposted : o.posted? = none
  unsaid : ∀ room, room ≠ .dashboard → o.said? room = none

theorem Occurrence.Opens.aside {o : Occurrence} (opens : o.Opens) : o.Aside := by
  cases opens with
  | moves task hub id status assignee => exact ⟨trivial, rfl, fun _ _ => rfl⟩
  | shows task hub frame => exact ⟨trivial, rfl, fun _ other => if_neg (Ne.symm other)⟩

def Outcome.message? : Outcome → Option Message
  | delivered message => some message
  | oversized | malformed | ignored | conversationClosed | persistFailed => none

namespace Connection

/-- The message is what the connection writes with this text. -/
structure Writes (c : Connection) (text : String) (m : Message) : Prop where
  content : InboundFrame.content? text = some m.content
  room : m.conversation = c.room
  sender : m.sender = c.identity.user
  system : m.isSystem = c.identity.role.isSystem
  staff : m.isAdmin = c.identity.role.isAdmin

/-- In these turns the texts have come to these outcomes: each message was stored and said to the room, one after the
other, and nothing else was. -/
structure Spoke (c : Connection) (texts : List String) (os : List Occurrence) (outcomes : List Outcome) : Prop where
  plain : ∀ o ∈ os, o.Plain
  posted : os.filterMap (·.posted?) = outcomes.filterMap (·.message?)
  said : ∀ room, room ≠ .dashboard → os.filterMap (·.said? room) =
    if c.room = room then (outcomes.filterMap (·.message?)).map .ofMessage else []
  writes : List.Forall₂ (fun text outcome => ∀ m, outcome.message? = some m → c.Writes text m) texts outcomes

variable {c : Connection} {os ps : List Occurrence} {outcome : Outcome}

theorem Spoke.nil : c.Spoke [] [] [] :=
  ⟨fun _ there => absurd there List.not_mem_nil, rfl, fun _ _ => (ite_self _).symm, .nil⟩

theorem Spoke.append {texts more : List String} {outcomes others : List Outcome} (first : c.Spoke texts os outcomes)
    (last : c.Spoke more ps others) : c.Spoke (texts ++ more) (os ++ ps) (outcomes ++ others) := by
  refine ⟨?_, ?_, ?_, List.rel_append first.writes last.writes⟩
  · intro o there
    rcases List.mem_append.mp there with there | there
    · exact first.plain o there
    · exact last.plain o there
  · rw [List.filterMap_append, List.filterMap_append, first.posted, last.posted]
  · intro room other
    rw [List.filterMap_append, List.filterMap_append, first.said room other, last.said room other, List.map_append]
    split <;> rfl

theorem Spoke.aside {texts : List String} {outcomes : List Outcome} (spoke : c.Spoke texts os outcomes)
    (before : ∀ o ∈ ps, o.Aside) : c.Spoke texts (ps ++ os) outcomes := by
  refine ⟨?_, ?_, ?_, spoke.writes⟩
  · intro o there
    rcases List.mem_append.mp there with there | there
    · exact (before o there).plain
    · exact spoke.plain o there
  · have nothing : ps.filterMap (·.posted?) = [] :=
      List.filterMap_eq_nil_iff.mpr fun o there => (before o there).unposted
    rw [List.filterMap_append, nothing, List.nil_append, spoke.posted]
  · intro room other
    have nothing : ps.filterMap (·.said? room) = [] :=
      List.filterMap_eq_nil_iff.mpr fun o there => (before o there).unsaid room other
    rw [List.filterMap_append, nothing, List.nil_append, spoke.said room other]

theorem Spoke.of_aside (aside : ∀ o ∈ os, o.Aside) (undelivered : outcome.message? = none) (text : String) :
    c.Spoke [text] os [outcome] := by
  have nothing : c.Spoke [text] [] [outcome] := by
    refine ⟨fun _ there => absurd there List.not_mem_nil, ?_, ?_, .cons ?_ .nil⟩
    · simp [undelivered]
    · simp [undelivered]
    · intro m message
      cases undelivered.symm.trans message
  simpa using nothing.aside aside

/-- A message is stored, then whatever it does to the conversation, and then it is said. -/
theorem Spoke.of_message {m : Message} {posting saying : Occurrence} (plain : posting.Plain ∧ saying.Plain)
    (posted : posting.posted? = some m ∧ saying.posted? = none) (unsaid : ∀ room, posting.said? room = none)
    (said : ∀ room, saying.said? room = if c.room = room then some (.ofMessage m) else none) (aside : ∀ o ∈ os, o.Aside)
    {text : String} (writes : c.Writes text m) : c.Spoke [text] (posting :: (os ++ [saying])) [.delivered m] := by
  have unposted : os.filterMap (·.posted?) = [] :=
    List.filterMap_eq_nil_iff.mpr fun o there => (aside o there).unposted
  refine ⟨?_, ?_, ?_, .cons ?_ .nil⟩
  · intro o there
    simp only [List.mem_cons, List.mem_append, List.not_mem_nil, or_false] at there
    rcases there with rfl | there | rfl
    · exact plain.1
    · exact (aside o there).plain
    · exact plain.2
  · rw [List.filterMap_cons_some posted.1, List.filterMap_append, unposted, List.filterMap_cons_none posted.2]
    rfl
  · intro room other
    have silent : os.filterMap (·.said? room) = [] :=
      List.filterMap_eq_nil_iff.mpr fun o there => (aside o there).unsaid room other
    rw [List.filterMap_cons_none (unsaid room), List.filterMap_append, silent, List.nil_append, List.filterMap_cons,
      said room]
    by_cases here : c.room = room <;> simp [here, Outcome.message?]
  · rintro _ ⟨⟩
    exact writes

/-- All that a connection writes is written in its room. -/
theorem Spoke.written {texts : List String} {outcomes : List Outcome} (spoke : c.Spoke texts os outcomes)
    (room : ConversationId) :
    os.filterMap (·.written? room) = if c.room = room then outcomes.filterMap (·.message?) else [] := by
  have own : ∀ m ∈ outcomes.filterMap (·.message?), m.conversation = c.room := by
    intro m there
    obtain ⟨outcome, member, message⟩ := List.mem_filterMap.mp there
    obtain ⟨k, found⟩ := List.mem_iff_getElem?.mp member
    obtain ⟨bound, same⟩ := List.getElem?_eq_some_iff.mp found
    have wrote := spoke.writes.get (spoke.writes.length_eq ▸ bound) bound
    exact (wrote m (by rw [List.get_eq_getElem, same]; exact message)).room
  have filtered : os.filterMap (·.written? room) = (os.filterMap (·.posted?)).filter (·.conversation = room) :=
    List.filter_filterMap.symm
  rw [filtered, spoke.posted]
  split
  · next here => exact List.filter_eq_self.mpr fun m there => by simp [own m there, here]
  · next other => exact List.filter_eq_nil_iff.mpr fun m there => by simp [own m there, other]

/-- What is stored of a text is what the connection writes with it, at the time that the clock shows. -/
theorem Accepts.writes_of_created {settings : Settings} {text content : String} {hub : Hub} {m : Message}
    (accepts : c.Accepts settings text content)
    (stored : (hub.answer (.store (.createMessage (.ofSender c.room c.identity content)))).1 =
      (.ok m : Except StoreError Message)) : c.Writes text m ∧ m.createdAt = hub.clock := by
  obtain ⟨id, rfl⟩ := Hub.message_of_created stored
  exact ⟨⟨accepts.read, rfl, rfl, rfl, rfl⟩, rfl⟩

theorem posted?_of_insert {task : Nat} {hub : Hub} {draft : Draft} {reply : Except StoreError Message}
    (replied : (hub.answer (.store (.createMessage draft))).1 = reply) :
    (Occurrence.asked task hub (.store (.createMessage draft))).posted? = reply.toOption := by
  have posts : (Occurrence.asked task hub (.store (.createMessage draft))).posted? =
      Request.posted? (.store (.createMessage draft)) (hub.answer (.store (.createMessage draft))).1 := rfl
  rw [posts, replied]
  cases reply <;> rfl

/-- Whatever a message does to its conversation is told to the dashboards alone. -/
theorem aside_of_messageStored {current : Conversation} {party : Identity}
    {result : Except LifecycleError (Option Conversation)}
    (path : (Lifecycle.messageStored current party).Path os (.done result)) : ∀ o ∈ os, o.Aside := fun o there =>
  (opens_of_messageStored path o there).aside

theorem Refuses.aside (refuses : c.Refuses os) : ∀ o ∈ os, o.Aside := by
  cases refuses with
  | @intro task hub parcel frame =>
    intro o there
    rw [List.mem_singleton.mp there]
    have plain : parcel.frame.chat? = none := by rw [frame]; rfl
    exact ⟨plain, rfl, fun _ _ => rfl⟩

/-- A text that is taken in while the clock shows times that have a text is refused, or stored and said. -/
theorem Takes.spoke {settings : Settings} {text : String} (takes : c.Takes settings text os outcome)
    (dated : ∀ o ∈ os, o.Dated) : c.Spoke [text] os [outcome] := by
  have reads (task : Nat) (hub : Hub) : (Occurrence.asked task hub (.store (.get c.room))).Aside :=
    ⟨trivial, rfl, fun _ _ => rfl⟩
  have failing {task : Nat} {hub : Hub} {draft : Draft} {error : StoreError}
      (failed : (hub.answer (.store (.createMessage draft))).1 = (.error error : Except StoreError Message)) :
      (Occurrence.asked task hub (.store (.createMessage draft))).Aside :=
    ⟨trivial, posted?_of_insert failed, fun _ _ => rfl⟩
  cases takes with
  | oversized | ignored | malformed => exact .of_aside (List.forall_mem_nil _) rfl text
  | unloaded => exact .of_aside (List.forall_mem_singleton.mpr (reads _ _)) rfl text
  | closed _ _ _ refuses => exact .of_aside (List.forall_mem_cons.mpr ⟨reads _ _, refuses.aside⟩) rfl text
  | refused _ _ _ failed refuses =>
    exact .of_aside (List.forall_mem_cons.mpr ⟨reads _ _, List.forall_mem_cons.mpr ⟨failing failed, refuses.aside⟩⟩) rfl text
  | failed _ _ _ failed =>
    exact .of_aside (List.forall_mem_cons.mpr ⟨reads _ _, List.forall_mem_singleton.mpr (failing failed)⟩) rfl text
  | @delivered content task task' hub hub' _ m moving saying accepts _ _ stored opens tells =>
    obtain ⟨writes, clock⟩ := accepts.writes_of_created stored
    have shown : hub'.clock.toChars?.isSome := dated _ (List.mem_cons_of_mem _ List.mem_cons_self)
    cases tells with
    | undated undated => simp [← clock, undated] at shown
    | @dated last hub'' parcel frame _ =>
      have plain : (Occurrence.asked task' hub' (.store (.createMessage (.ofSender c.room c.identity content)))).Plain ∧
          (Occurrence.asked last hub'' (.rooms (.broadcast c.room parcel))).Plain := ⟨trivial, trivial⟩
      have said (room : ConversationId) :
          (Occurrence.asked last hub'' (.rooms (.broadcast c.room parcel))).said? room =
            if c.room = room then some (.ofMessage m) else none := by
        show (if c.room = room then parcel.frame.chat? else none) = _
        rw [frame]
        rfl
      have spoke := Spoke.of_message plain ⟨posted?_of_insert stored, rfl⟩ (fun _ => rfl) said
        (fun o there => (opens o there).aside) writes
      exact spoke.aside (List.forall_mem_singleton.mpr (reads task hub))

theorem spoke_of_handleText (dated : ∀ o ∈ os, o.Dated) {settings : Settings} {text : String}
    (path : (c.handleText settings text).Path os (.done outcome)) : c.Spoke [text] os [outcome] :=
  (takes_of_path path).spoke dated

/-- The texts of a connection are taken in one after the other. -/
def readTexts (c : Connection) (settings : Settings) : List String → Program (List Outcome)
  | [] => .done []
  | text :: texts => do
    let outcome ← c.handleText settings text
    let outcomes ← c.readTexts settings texts
    return outcome :: outcomes

theorem spoke_of_readTexts (dated : ∀ o ∈ os, o.Dated) {settings : Settings} {texts : List String}
    {outcomes : List Outcome} (path : (c.readTexts settings texts).Path os (.done outcomes)) :
    c.Spoke texts os outcomes := by
  induction texts generalizing os outcomes with
  | nil =>
    obtain ⟨rfl, rfl⟩ := Program.Path.of_done path
    exact .nil
  | cons text texts ih =>
    obtain ⟨first, later, outcome, rfl, begins, onward⟩ := Program.Path.of_bind path
    obtain ⟨last, rest, others, rfl, continues, ends⟩ := Program.Path.of_bind onward
    obtain ⟨rfl, rfl⟩ := ends.of_done
    rw [List.append_nil] at dated ⊢
    have spoke := spoke_of_handleText (fun o there => dated o (List.mem_append_left _ there)) begins
    exact spoke.append (ih (fun o there => dated o (List.mem_append_right _ there)) continues)

end Connection

end HelpDesk
