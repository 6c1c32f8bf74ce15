import HelpDesk.Intake
import HelpDesk.Proofs.Executions

/-! A program that creates or moves a conversation announces it to the dashboards in the very next request, and announces
nothing else. -/

namespace HelpDesk
open Json

/-- The conversation that a request has created or moved, by its reply. -/
def Request.committed? : (request : Request) → request.Reply → Option Conversation
  | .store (.setStatus _ _ _), reply =>
    match reply with
    | .ok (moved : Conversation) => some moved
    | .error _ => none
  | .store (.start _ _ _), reply =>
    match reply with
    | .ok (.created c _) => some c
    | .ok (.alreadyOpen _) | .error _ => none
  | .store (.createMessage _), _ | .store (.get _), _ | .store (.findActive _), _ | .store .listActive, _
  | .store (.listMessages _ _ _), _ | .rooms _, _ | .join _ _ _ _ _, _ | .roomCount, _ => none

/-- What was created or moved is in the store as the reply tells it, before anything else happens there. -/
theorem Hub.committed_stored {h : Hub} {request : Request} {c : Conversation}
    (committed : request.committed? (h.answer request).1 = some c) (distinct : h.Distinct (h.answer request).2) :
    ∃ es k others, h.Reaches es k ∧ k.store.get? c.id = some c ∧ k.Reaches others (h.answer request).2 := by
  cases request with
  | rooms command => cases committed
  | join room session identity capacity holding => cases committed
  | roomCount => cases committed
  | store call =>
    have called := h.callStore_called call
    change Request.committed? (.store call) (h.callStore call).1 = some c at committed
    change h.Distinct (h.callStore call).2 at distinct
    show ∃ es k others, h.Reaches es k ∧ k.store.get? c.id = some c ∧ k.Reaches others (h.callStore call).2
    generalize h.callStore call = outcome at *
    cases called with
    | failed error l same registry => cases call <;> cases committed
    | carried answer k l performed reaches others overtaken registry =>
      refine ⟨_, k, others, reaches, ?_, overtaken⟩
      have fresh := reaches.fresh (reaches.distinct_left overtaken distinct)
      cases call with
      | setStatus id status assignee =>
        cases committed
        exact Store.get?_of_setStatus performed
      | start starter label content =>
        rcases answer with ⟨d, opening⟩ | d
        · cases committed
          exact Store.get?_of_start (fresh.unused (Nat.succ_pos 1)) (Except.ok.inj performed)
        · cases committed
      | _ => cases committed

/-- The frame that shows the dashboards a conversation, if it has a text. -/
def announcement (c : Conversation) : Option Parcel :=
  (Frame.summaries [.ofConversation c]).pack?

theorem Frame.frame_of_pack? {frame : Frame} {parcel : Parcel} (packed : frame.pack? = some parcel) :
    parcel.frame = frame := by
  unfold Frame.pack? at packed
  split at packed
  · cases packed
    rfl
  · cases packed

theorem Frame.isSome_pack? (frame : Frame) : frame.pack?.isSome = frame.encode?.isSome := by
  unfold Frame.pack?
  split
  · next text encoded => simp [encoded]
  · next encoded => simp [encoded]

theorem isSome_announcement (c : Conversation) : (announcement c).isSome = c.updatedAt.toChars?.isSome := by
  rw [announcement, Frame.isSome_pack?]
  simp only [Frame.encode?, Codec.encode?, Codec.list, Codec.commas, List.mapM_cons, List.mapM_nil, Summary.codec, Codec.map,
    Codec.record, Fields.write, Summary.ofConversation, ConversationId.codec, Codec.uuid, Codec.spelled, Codec.moment,
    Status.codec, Codec.oneOf, UserId.codec]
  cases c.updatedAt.toChars? <;> rfl

def Request.announced? : Request → Option Parcel
  | rooms (.broadcast room parcel) => if room = .dashboard then some parcel else none
  | rooms (.leave _ _) | rooms (.sendTo _ _ _) | rooms (.release _ _ _) | store _ | join _ _ _ _ _ | roomCount => none

def Occurrence.announced? : Occurrence → Option Parcel
  | asked _ _ request => request.announced?
  | received _ | gone _ => none

def Occurrence.committed? : Occurrence → Option Conversation
  | asked _ hub request => request.committed? (hub.answer request).1
  | received _ | gone _ => none

namespace Program
variable {α β : Type} {allowed : Request → Prop}

/-- What the program announces first is `pending`; and after that, in each request what the one before has committed. It
makes no request that is not allowed. -/
inductive Announces (allowed : Request → Prop) : (pending : Option Parcel) → Program α → Prop
  | done (value : α) : Announces allowed none (.done value)
  | ask {request : Request} {rest : request.Reply → Program α} {pending : Option Parcel} (permitted : allowed request)
      (first : request.announced? = pending)
      (later : ∀ reply, (rest reply).Announces allowed ((request.committed? reply).bind announcement)) :
      Announces allowed pending (.ask request rest)

theorem Announces.bind {pending : Option Parcel} {program : Program α} {rest : α → Program β}
    (first : program.Announces allowed pending) (last : ∀ value, (rest value).Announces allowed none) :
    (program.bind rest).Announces allowed pending := by
  induction first with
  | done value => exact last value
  | ask permitted first later ih => exact .ask permitted first ih

/-- What is to be announced after some turns of a program that had `pending` to announce. -/
def owed (pending : Option Parcel) (os : List Occurrence) : Option Parcel :=
  os.getLast?.elim pending fun o => o.committed?.bind announcement

theorem owed_cons (pending : Option Parcel) (o : Occurrence) (os : List Occurrence) :
    owed pending (o :: os) = owed (o.committed?.bind announcement) os := by
  cases os <;> rfl

theorem owed_none (os : List Occurrence) : owed none os = (os.getLast?.bind (·.committed?)).bind announcement := by
  unfold owed
  cases os.getLast? <;> rfl

/-- On a way through the program, each request announces what the one before has committed. -/
theorem Path.announces {program last : Program α} {os : List Occurrence} (path : program.Path os last)
    {pending : Option Parcel} (announces : program.Announces allowed pending) :
    (∀ o ∈ os, ∃ task hub request, o = .asked task hub request ∧ allowed request) ∧
    (∀ before o after, os = before ++ o :: after → o.announced? = owed pending before) ∧
    last.Announces allowed (owed pending os) := by
  induction path generalizing pending with
  | nil program =>
    refine ⟨?_, ?_, announces⟩
    · intro o there
      cases there
    · intro before o after same
      simp at same
  | @cons request rest os last task hub path ih =>
    cases announces with
    | ask permitted first later =>
      obtain ⟨each, order, final⟩ := ih (later (hub.answer request).1)
      refine ⟨?_, ?_, ?_⟩
      · intro o there
        rcases List.mem_cons.mp there with rfl | there
        · exact ⟨task, hub, request, rfl, permitted⟩
        · exact each o there
      · intro before o after same
        cases before with
        | nil =>
          obtain ⟨rfl, -⟩ := List.cons.inj same
          exact first
        | cons head before =>
          obtain ⟨rfl, same'⟩ := List.cons.inj same
          rw [owed_cons]
          exact order before o after same'
      · rw [owed_cons]
        exact final

/-- Every operation may ask the store, and may show something to the dashboards. -/
structure Serves (allowed : Request → Prop) : Prop where
  store : ∀ call, allowed (.store call)
  announce : ∀ parcel, allowed (.rooms (.broadcast .dashboard parcel))

theorem announces_broadcast {room : ConversationId} (allows : ∀ parcel, allowed (.rooms (.broadcast room parcel)))
    (frame : Frame) : (broadcast room frame).Announces allowed (if room = .dashboard then frame.pack? else none) := by
  unfold broadcast
  cases frame.pack? with
  | none =>
    rw [ite_self]
    exact .done ()
  | some parcel => exact .ask (allows parcel) rfl fun _ => .done ()

theorem announces_announce (allows : ∀ parcel, allowed (.rooms (.broadcast .dashboard parcel))) (c : Conversation) :
    (Dashboard.announce c).Announces allowed (announcement c) :=
  announces_broadcast allows _

theorem announces_sendTo {room : ConversationId} {session : SessionId}
    (allows : ∀ parcel, allowed (.rooms (.sendTo room session parcel))) (frame : Frame) :
    (sendTo room session frame).Announces allowed none := by
  unfold sendTo
  cases frame.pack? with
  | none => exact .done ()
  | some parcel => exact .ask (allows parcel) rfl fun _ => .done ()

end Program

namespace Lifecycle
open Program
variable {allowed : Request → Prop}

/-- Whoever moves a conversation asks for it and for its status, and shows it to the dashboards. -/
structure Permits (allowed : Request → Prop) : Prop where
  get : ∀ id, allowed (.store (.get id))
  setStatus : ∀ id status assignee, allowed (.store (.setStatus id status assignee))
  announce : ∀ parcel, allowed (.rooms (.broadcast .dashboard parcel))

variable (permits : Permits allowed)
include permits

theorem announces_move (id : ConversationId) (status : Status) (assignee : Option UserId) :
    (move id status assignee).Announces allowed none := by
  apply Announces.ask (permits.setStatus _ _ _) rfl
  intro reply
  cases reply with
  | error error => exact .done _
  | ok moved => exact (announces_announce permits.announce moved).bind fun _ => .done _

theorem announces_openIfPending (c : Conversation) (identity : Identity) :
    (openIfPending c identity).Announces allowed none := by
  unfold openIfPending
  split
  · apply (announces_move permits _ _ _).bind
    intro result
    rcases result with (_ | _ | _ | _) | opened <;> exact .done _
  · exact .done _

theorem announces_memberJoined (id : ConversationId) (identity : Identity) :
    (memberJoined id identity).Announces allowed none := by
  unfold memberJoined
  split
  · apply Announces.ask (permits.get _) rfl
    intro reply
    cases reply with
    | error error => exact .done _
    | ok c => exact announces_openIfPending permits c identity
  · exact .done _

theorem announces_messageStored (c : Conversation) (identity : Identity) :
    (messageStored c identity).Announces allowed none := by
  unfold messageStored
  exact announces_openIfPending permits c identity

theorem announces_close (id : ConversationId) (identity : Identity) : (close id identity).Announces allowed none := by
  apply Announces.ask (permits.get _) rfl
  intro reply
  cases reply with
  | error error => exact .done _
  | ok c =>
    show Announces allowed none (if !c.isOwnedBy identity.user && !identity.role.isAdmin then
      (return .error .forbidden : Program (Except LifecycleError Conversation))
      else if !c.status.canBecome .closed then return .error (.invalidTransition c.status .closed)
      else move id .closed none)
    split
    · exact .done _
    · split
      · exact .done _
      · exact announces_move permits id .closed none

end Lifecycle

theorem Program.Serves.permits {allowed : Request → Prop} (serves : Serves allowed) : Lifecycle.Permits allowed :=
  ⟨fun _ => serves.store _, fun _ _ _ => serves.store _, serves.announce⟩

theorem Intake.announces_start {allowed : Request → Prop} (serves : Program.Serves allowed) (identity : Identity)
    (content : String) (label : Option String) : (start identity content label).Announces allowed none := by
  unfold start
  split
  · exact .done _
  · apply Program.Announces.ask (serves.store _) rfl
    intro reply
    rcases reply with error | (⟨c, opening⟩ | c)
    · exact .done _
    · exact (Program.announces_announce serves.announce c).bind fun _ => .done _
    · exact .done _

namespace Connection
open Program

variable {allowed : Request → Prop} (serves : Serves allowed) {c : Connection}

section Texts
variable (chat : c.room ≠ .dashboard → ∀ parcel, allowed (.rooms (.broadcast c.room parcel)))
  (refusal : c.room ≠ .dashboard → ∀ parcel, allowed (.rooms (.sendTo c.room c.session parcel)))
include refusal

theorem announces_refuse (other : c.room ≠ .dashboard) : c.refuse.Announces allowed none :=
  (announces_sendTo (refusal other) _).bind fun _ => .done _

include serves chat

theorem announces_deliver (other : c.room ≠ .dashboard) (current : Conversation) (content : String) :
    (c.deliver current content).Announces allowed none := by
  apply Announces.ask (serves.store _) rfl
  intro reply
  rcases reply with (_ | _ | _ | _) | message
  · exact .done _
  · exact announces_refuse refusal other
  · exact .done _
  · exact .done _
  · apply (Lifecycle.announces_messageStored serves.permits current c.identity).bind
    intro _
    have chat := announces_broadcast (chat other) (.chat (.ofMessage message))
    rw [if_neg other] at chat
    exact chat.bind fun _ => .done _

theorem announces_handleText (settings : Settings) (text : String) :
    (c.handleText settings text).Announces allowed none := by
  unfold handleText
  split
  · exact .done _
  · split
    · exact .done _
    · next elsewhere =>
      have other : c.room ≠ .dashboard := by simpa [isDashboard, ConversationId.isDashboard] using elsewhere
      split
      · exact .done _
      · apply Announces.ask (serves.store _) rfl
        intro reply
        cases reply with
        | error error => exact .done _
        | ok current =>
          simp only [Program.bind]
          split
          · exact announces_refuse refusal other
          · exact announces_deliver serves chat refusal other current _

end Texts

section Entering
variable (join : ∀ capacity, allowed (.join c.room c.session c.identity capacity c.isDashboard))
  (release : c.room = .dashboard → ∀ lead, allowed (.rooms (.release .dashboard c.session lead)))
include serves release

theorem announces_afterJoin : c.afterJoin.Announces allowed none := by
  unfold afterJoin
  split
  · next here =>
    have room : c.room = .dashboard := by simpa [isDashboard, ConversationId.isDashboard] using here
    apply Announces.ask (serves.store _) rfl
    intro reply
    cases reply with
    | error error => exact .ask (release room _) rfl fun _ => .done _
    | ok cs => exact .ask (release room _) rfl fun _ => .done _
  · exact (Lifecycle.announces_memberJoined serves.permits c.room c.identity).bind fun _ => .done _

include join

theorem announces_enter (settings : Settings) : (c.enter settings).Announces allowed none :=
  .ask (join _) rfl fun _ => (announces_afterJoin serves release).bind fun _ => .done _

end Entering

end Connection

end HelpDesk
