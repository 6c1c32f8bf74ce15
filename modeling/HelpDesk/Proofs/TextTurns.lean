import HelpDesk.Proofs.Announcements

/-! What becomes of one text, whatever the store does about it and whatever others do meanwhile: which of its requests the
connection makes, what it returns, and what everybody in its room is offered. -/

namespace HelpDesk

/-- As what a conversation was read, if it was. -/
def Request.loaded? : (request : Request) → request.Reply → Option (Except StoreError Conversation)
  | .store (.get _), reply => some reply
  | .store (.setStatus _ _ _), _ | .store (.createMessage _), _ | .store (.start _ _ _), _ | .store (.findActive _), _
  | .store .listActive, _ | .store (.listMessages _ _ _), _ | .rooms _, _ | .join _ _ _ _ _, _ | .roomCount, _ => none

/-- As what a message was stored, if it was. -/
def Request.inserted? : (request : Request) → request.Reply → Option (Except StoreError Message)
  | .store (.createMessage _), reply => some reply
  | .store (.setStatus _ _ _), _ | .store (.get _), _ | .store (.start _ _ _), _ | .store (.findActive _), _
  | .store .listActive, _ | .store (.listMessages _ _ _), _ | .rooms _, _ | .join _ _ _ _ _, _ | .roomCount, _ => none

namespace Occurrence

def loaded? : Occurrence → Option (Except StoreError Conversation)
  | asked _ hub request => request.loaded? (hub.answer request).1
  | received _ | gone _ => none

def inserted? : Occurrence → Option (Except StoreError Message)
  | asked _ hub request => request.inserted? (hub.answer request).1
  | received _ | gone _ => none

/-- In a turn like this, a conversation is moved or shown to the dashboards. -/
inductive Opens : Occurrence → Prop
  | moves (task : Nat) (hub : Hub) (id : ConversationId) (status : Status) (assignee : Option UserId) :
      Opens (.asked task hub (.store (.setStatus id status assignee)))
  | shows (task : Nat) (hub : Hub) {parcel : Parcel} {list : List Summary} (frame : parcel.frame = .summaries list) :
      Opens (.asked task hub (.rooms (.broadcast .dashboard parcel)))

/-- In a turn like this nothing is written to the store, but somebody else may move a conversation right after it. -/
def Unwriting : Occurrence → Prop
  | asked _ hub request => (hub.answer request).2.store = hub.store ∨
      ¬ hub.Undisturbed ∧ ∃ id status, (hub.answer request).2.store = (hub.moveIfPossible id status).store
  | received _ | gone _ => True

end Occurrence

open Json in
theorem isSome_chat (m : Message) : (Frame.chat (.ofMessage m)).pack?.isSome = m.createdAt.toChars?.isSome := by
  rw [Frame.isSome_pack?]
  simp only [Frame.encode?, Codec.encode?, ChatFrame.codec, Codec.map, Codec.record, Fields.write, ChatFrame.ofMessage,
    Codec.text, Codec.flag, UserId.codec, Codec.uuid, Codec.spelled, Codec.moment]
  cases m.createdAt.toChars? <;> rfl

namespace Connection
variable {c : Connection} {settings : Settings} {text content : String} {os : List Occurrence} {outcome : Outcome}

/-- The text is one to be stored. -/
structure Accepts (c : Connection) (settings : Settings) (text content : String) : Prop where
  fits : text.utf8ByteSize ≤ settings.maxFrameBytes
  speaks : c.isDashboard = false
  read : InboundFrame.content? text = some content

/-- In such turns the sender alone is told that the conversation is closed. -/
inductive Refuses (c : Connection) : List Occurrence → Prop
  | intro (task : Nat) (hub : Hub) {parcel : Parcel} (frame : parcel.frame = .error .conversationClosed) :
      Refuses c [.asked task hub (.rooms (.sendTo c.room c.session parcel))]

/-- In such turns the room is sent a message, if the message has a text. -/
inductive Says (c : Connection) (m : Message) : List Occurrence → Prop
  | dated (task : Nat) (hub : Hub) {parcel : Parcel} (frame : parcel.frame = .chat (.ofMessage m))
      (dated : m.createdAt.toChars?.isSome) : Says c m [.asked task hub (.rooms (.broadcast c.room parcel))]
  | undated (undated : m.createdAt.toChars? = none) : Says c m []

/-- The turns in which a text is taken in, and its outcome. -/
inductive Takes (c : Connection) (settings : Settings) (text : String) : List Occurrence → Outcome → Prop
  | oversized (large : settings.maxFrameBytes < text.utf8ByteSize) : Takes c settings text [] .oversized
  | ignored (fits : text.utf8ByteSize ≤ settings.maxFrameBytes) (listens : c.isDashboard = true) :
      Takes c settings text [] .ignored
  | malformed (fits : text.utf8ByteSize ≤ settings.maxFrameBytes) (speaks : c.isDashboard = false)
      (unread : InboundFrame.content? text = none) : Takes c settings text [] .malformed
  | unloaded {content : String} {task : Nat} {hub : Hub} {error : StoreError} (accepts : c.Accepts settings text content)
      (failed : (hub.answer (.store (.get c.room))).1 = (.error error : Except StoreError Conversation)) :
      Takes c settings text [.asked task hub (.store (.get c.room))] .persistFailed
  | closed {content : String} {task : Nat} {hub : Hub} {current : Conversation} {refusal : List Occurrence}
      (accepts : c.Accepts settings text content)
      (loaded : (hub.answer (.store (.get c.room))).1 = (.ok current : Except StoreError Conversation))
      (final : current.status.isFinal = true) (refuses : c.Refuses refusal) :
      Takes c settings text (.asked task hub (.store (.get c.room)) :: refusal) .conversationClosed
  | refused {content : String} {task task' : Nat} {hub hub' : Hub} {current : Conversation} {id : ConversationId}
      {refusal : List Occurrence} (accepts : c.Accepts settings text content)
      (loaded : (hub.answer (.store (.get c.room))).1 = (.ok current : Except StoreError Conversation))
      (active : current.status.isFinal = false)
      (failed : (hub'.answer (.store (.createMessage (.ofSender c.room c.identity content)))).1 =
        (.error (.closed id) : Except StoreError Message)) (refuses : c.Refuses refusal) :
      Takes c settings text (.asked task hub (.store (.get c.room)) ::
        .asked task' hub' (.store (.createMessage (.ofSender c.room c.identity content))) :: refusal) .conversationClosed
  | failed {content : String} {task task' : Nat} {hub hub' : Hub} {current : Conversation} {error : StoreError}
      (accepts : c.Accepts settings text content)
      (loaded : (hub.answer (.store (.get c.room))).1 = (.ok current : Except StoreError Conversation))
      (active : current.status.isFinal = false)
      (failed : (hub'.answer (.store (.createMessage (.ofSender c.room c.identity content)))).1 =
        (.error error : Except StoreError Message)) (other : ∀ id, error ≠ .closed id) :
      Takes c settings text [.asked task hub (.store (.get c.room)),
        .asked task' hub' (.store (.createMessage (.ofSender c.room c.identity content)))] .persistFailed
  | delivered {content : String} {task task' : Nat} {hub hub' : Hub} {current : Conversation} {m : Message}
      {moving saying : List Occurrence} (accepts : c.Accepts settings text content)
      (loaded : (hub.answer (.store (.get c.room))).1 = (.ok current : Except StoreError Conversation))
      (active : current.status.isFinal = false)
      (stored : (hub'.answer (.store (.createMessage (.ofSender c.room c.identity content)))).1 =
        (.ok m : Except StoreError Message)) (opens : ∀ o ∈ moving, o.Opens) (tells : c.Says m saying) :
      Takes c settings text (.asked task hub (.store (.get c.room)) ::
        .asked task' hub' (.store (.createMessage (.ofSender c.room c.identity content))) :: (moving ++ saying))
        (.delivered m)

theorem isSome_refusal : (Frame.error .conversationClosed).pack?.isSome = true := by
  rw [Frame.isSome_pack?]
  rfl

theorem refuses_of_path (path : c.refuse.Path os (.done outcome)) : c.Refuses os ∧ outcome = .conversationClosed := by
  obtain ⟨first, later, _, rfl, begins, ends⟩ := Program.Path.of_bind path
  obtain ⟨rfl, rfl⟩ := ends.of_done
  obtain ⟨parcel, packed⟩ := Option.isSome_iff_exists.mp isSome_refusal
  rw [Program.sendTo, packed] at begins
  obtain ⟨task, hub, later, rfl, onward⟩ := begins.of_ask
  obtain ⟨rfl, -⟩ := onward.of_done
  exact ⟨.intro task hub (Frame.frame_of_pack? packed), rfl⟩

theorem says_of_path {m : Message} {value : Unit}
    (path : (Program.broadcast c.room (.chat (.ofMessage m))).Path os (.done value)) : c.Says m os := by
  have packs := isSome_chat m
  unfold Program.broadcast at path
  split at path
  · next parcel packed =>
    obtain ⟨task, hub, later, rfl, onward⟩ := path.of_ask
    obtain ⟨rfl, -⟩ := onward.of_done
    rw [packed] at packs
    exact .dated task hub (Frame.frame_of_pack? packed) packs.symm
  · next unpacked =>
    obtain ⟨rfl, -⟩ := path.of_done
    rw [unpacked] at packs
    exact .undated (Option.not_isSome_iff_eq_none.mp (by simp [← packs]))

theorem opens_of_announce {moved : Conversation} {value : Unit} (path : (Dashboard.announce moved).Path os (.done value)) :
    ∀ o ∈ os, o.Opens := by
  unfold Dashboard.announce Program.broadcast at path
  split at path
  · next parcel packed =>
    obtain ⟨task, hub, later, rfl, onward⟩ := path.of_ask
    obtain ⟨rfl, -⟩ := onward.of_done
    simpa using Occurrence.Opens.shows task hub (Frame.frame_of_pack? packed)
  · obtain ⟨rfl, -⟩ := path.of_done
    exact List.forall_mem_nil _

theorem opens_of_move {id : ConversationId} {status : Status} {assignee : Option UserId}
    {result : Except LifecycleError Conversation} (path : (Lifecycle.move id status assignee).Path os (.done result)) :
    ∀ o ∈ os, o.Opens := by
  obtain ⟨task, hub, later, rfl, onward⟩ := Program.Path.of_ask path
  have moves : (Occurrence.asked task hub (.store (.setStatus id status assignee))).Opens := .moves task hub id status assignee
  generalize (hub.answer (.store (.setStatus id status assignee))).1 = reply at onward
  rcases reply with error | moved
  · obtain ⟨rfl, -⟩ := onward.of_done
    simpa using moves
  · have onward : ((Dashboard.announce moved).bind fun _ => .done (.ok moved)).Path later (.done result) := onward
    obtain ⟨shown, rest, _, rfl, begins, ends⟩ := onward.of_bind
    obtain ⟨rfl, -⟩ := ends.of_done
    rw [List.append_nil]
    exact List.forall_mem_cons.mpr ⟨moves, opens_of_announce begins⟩

theorem opens_of_messageStored {current : Conversation} {party : Identity}
    {result : Except LifecycleError (Option Conversation)}
    (path : (Lifecycle.messageStored current party).Path os (.done result)) : ∀ o ∈ os, o.Opens := by
  unfold Lifecycle.messageStored Lifecycle.openIfPending at path
  split at path
  · obtain ⟨moving, rest, moved, rfl, begins, ends⟩ := Program.Path.of_bind path
    have nothing : rest = [] := by
      rcases moved with (_ | _ | _ | _) | opened <;> exact ends.of_done.1
    rw [nothing, List.append_nil]
    exact opens_of_move begins
  · obtain ⟨rfl, -⟩ := Program.Path.of_done path
    exact List.forall_mem_nil _

theorem takes_of_deliver {task : Nat} {hub : Hub} {current : Conversation} (accepts : c.Accepts settings text content)
    (loaded : (hub.answer (.store (.get c.room))).1 = (.ok current : Except StoreError Conversation))
    (active : current.status.isFinal = false) (path : (c.deliver current content).Path os (.done outcome)) :
    c.Takes settings text (.asked task hub (.store (.get c.room)) :: os) outcome := by
  obtain ⟨task', hub', later, rfl, onward⟩ := Program.Path.of_ask path
  generalize replied : (hub'.answer (.store (.createMessage (.ofSender c.room c.identity content)))).1 = reply at onward
  rcases reply with (_ | id | _ | _) | m
  · obtain ⟨rfl, rfl⟩ := onward.of_done
    exact .failed accepts loaded active replied fun id same => by cases same
  · obtain ⟨refuses, rfl⟩ := refuses_of_path onward
    exact .refused accepts loaded active replied refuses
  · obtain ⟨rfl, rfl⟩ := onward.of_done
    exact .failed accepts loaded active replied fun id same => by cases same
  · obtain ⟨rfl, rfl⟩ := onward.of_done
    exact .failed accepts loaded active replied fun id same => by cases same
  · have onward : ((Lifecycle.messageStored current c.identity).bind fun _ =>
        (Program.broadcast c.room (.chat (.ofMessage m))).bind fun _ => .done (Outcome.delivered m)).Path later
          (.done outcome) := onward
    obtain ⟨moving, rest, _, rfl, begins, rest_of⟩ := onward.of_bind
    obtain ⟨saying, last, _, rfl, speaks, ends⟩ := rest_of.of_bind
    obtain ⟨rfl, rfl⟩ := ends.of_done
    rw [List.append_nil]
    exact .delivered accepts loaded active replied (opens_of_messageStored begins) (says_of_path speaks)

/-- A text that is taken in is taken in in one of these ways. -/
theorem takes_of_path (path : (c.handleText settings text).Path os (.done outcome)) : c.Takes settings text os outcome := by
  unfold handleText at path
  split at path
  · next large =>
    obtain ⟨rfl, rfl⟩ := Program.Path.of_done path
    exact .oversized large
  · next fits =>
    have fits := Nat.le_of_not_lt fits
    split at path
    · next listens =>
      obtain ⟨rfl, rfl⟩ := Program.Path.of_done path
      exact .ignored fits listens
    · next speaks =>
      have speaks := Bool.not_eq_true _ ▸ speaks
      split at path
      · next unread =>
        obtain ⟨rfl, rfl⟩ := Program.Path.of_done path
        exact .malformed fits speaks unread
      · next content read =>
        have accepts : c.Accepts settings text content := ⟨fits, speaks, read⟩
        obtain ⟨task, hub, later, rfl, onward⟩ := Program.Path.of_ask path
        generalize loaded : (hub.answer (.store (.get c.room))).1 = reply at onward
        rcases reply with error | current
        · obtain ⟨rfl, rfl⟩ := onward.of_done
          exact .unloaded accepts loaded
        · simp only [Program.bind, Lifecycle.ensureAccepts] at onward
          cases final : current.status.isFinal with
          | true =>
            simp only [final, if_true] at onward
            obtain ⟨refuses, rfl⟩ := refuses_of_path onward
            exact .closed accepts loaded final refuses
          | false =>
            simp only [final, Bool.false_eq_true, if_false] at onward
            exact takes_of_deliver accepts loaded final onward

section Turns
variable {task : Nat} {hub : Hub}

theorem inserted?_of_insert {draft : Draft} {reply : Except StoreError Message}
    (replied : (hub.answer (.store (.createMessage draft))).1 = reply) :
    (Occurrence.asked task hub (.store (.createMessage draft))).inserted? = some reply :=
  congrArg some replied

theorem loaded?_of_get {id : ConversationId} {reply : Except StoreError Conversation}
    (replied : (hub.answer (.store (.get id))).1 = reply) :
    (Occurrence.asked task hub (.store (.get id))).loaded? = some reply :=
  congrArg some replied

end Turns

section Unwriting
variable {hub : Hub} {call : Store.Call}

/-- A request that fails writes nothing. -/
theorem store_of_failed {error : StoreError}
    (failed : (hub.answer (.store call)).1 = (.error error : Except StoreError call.Answer)) :
    (hub.answer (.store call)).2.store = hub.store := by
  have goes := hub.callStore_goes call
  change (hub.callStore call).1 = _ at failed
  show (hub.callStore call).2.store = hub.store
  generalize hub.callStore call = outcome at goes failed
  cases goes with
  | failed => rfl
  | performed faults =>
    unfold Hub.perform at failed ⊢
    split at failed
    · cases failed
    · rfl
  | overtaken => cases failed

theorem moveIfPossible_store {h k : Hub} (store : k.store = h.store) (clock : k.clock = h.clock) (id : ConversationId)
    (status : Status) : (k.moveIfPossible id status).store = (h.moveIfPossible id status).store := by
  cases moved : h.store.setStatus h.clock id status none <;> simp [Hub.moveIfPossible, store, clock, moved]

/-- To read a conversation writes nothing. -/
theorem unwriting_of_get (task : Nat) (hub : Hub) (id : ConversationId) :
    (Occurrence.asked task hub (.store (.get id))).Unwriting := by
  have performs (faults : Store.Method → List (Option Fault)) :
      (({ hub with faults } : Hub).perform (.get id)).2.store = hub.store ∧
        (({ hub with faults } : Hub).perform (.get id)).2.clock = hub.clock := by
    unfold Hub.perform
    split
    · next answer after carried =>
      cases Store.performed_of_ok carried
      exact ⟨rfl, rfl⟩
    · exact ⟨rfl, rfl⟩
  have goes := hub.callStore_goes (.get id)
  show (hub.callStore (.get id)).2.store = hub.store ∨ ¬ hub.Undisturbed ∧
    ∃ id' status, (hub.callStore (.get id)).2.store = (hub.moveIfPossible id' status).store
  generalize hub.callStore (.get id) = outcome at goes
  cases goes with
  | failed => exact .inl rfl
  | performed faults => exact .inl (performs faults).1
  | @overtaken status faults _ disturbed answer k performed =>
    obtain ⟨store, clock⟩ := performs faults
    rw [performed] at store clock
    exact .inr ⟨disturbed, id, status, moveIfPossible_store store clock id status⟩

end Unwriting

end Connection

end HelpDesk
