import HelpDesk.Proofs.ProgramLaws
import HelpDesk.Proofs.RegistryRemovals
import HelpDesk.Proofs.Services

/-! What one step of a connection comes to, for itself and for its seat in the registry. It acts for its own session, or it
has a frame for everybody in a room; it does not go without leaving its room; and it writes one close frame at most, as
the last of its frames, when nothing waits for it any more. -/

namespace HelpDesk

/-- The request is to the store, or to a whole room, or it is about the session that is there. -/
def Request.Minds (p : Registry.Place) : Request → Prop
  | store _ | roomCount => True
  | join _ _ _ _ _ => False
  | rooms command => ∀ session, command.session? = some session → command.room = p.room ∧ session = p.session

theorem Request.Minds.events {p : Registry.Place} {request : Request} (minds : request.Minds p) :
    (∃ room parcel, request.event?.toList = [.command (.broadcast room parcel)]) ∨
      ∀ e ∈ request.event?.toList, e.Own p := by
  cases request with
  | store | roomCount => exact .inr fun e there => absurd there List.not_mem_nil
  | join => exact minds.elim
  | rooms command =>
    cases addressed : command.session? with
    | none =>
      cases command with
      | broadcast room parcel => exact .inl ⟨room, parcel, rfl⟩
      | leave | sendTo | release => cases addressed
    | some session =>
      obtain ⟨room, rfl⟩ := minds session addressed
      right
      intro e there
      rw [List.mem_singleton.mp there]
      exact ⟨room, addressed⟩

namespace Connection
variable (c : Connection) (queue : QueueId)

theorem serves_minds (p : Registry.Place) : Program.Serves (Request.Minds p) := by
  refine ⟨fun _ => trivial, fun parcel session addressed => ?_⟩
  cases addressed

theorem minds_handleText (settings : Settings) (text : String) :
    (c.handleText settings text).ignore.Asks (Request.Minds ⟨c.room, c.session, queue⟩) := by
  have tells := announces_handleText (serves_minds ⟨c.room, c.session, queue⟩) (c := c)
    (fun _ parcel session addressed => by cases addressed)
    (fun _ parcel session addressed => ⟨rfl, (Option.some.inj addressed).symm⟩) settings text
  exact tells.ignore.asks

theorem minds_afterJoin : c.afterJoin.Asks (Request.Minds ⟨c.room, c.session, queue⟩) := by
  have tells := announces_afterJoin (serves_minds ⟨c.room, c.session, queue⟩) (c := c)
    fun room lead session addressed => ⟨room.symm, (Option.some.inj addressed).symm⟩
  exact tells.asks

end Connection

namespace Service

/-- What a step comes to: what becomes of the connection, and what happens to the registry. -/
inductive Does (h : Hub) : Step → Service → Service → List (Registry.Event Parcel) → Prop
  | nothing (step : Step) (s : Service) : Does h step s s []
  | asks {now : Instant} {c : Connection} {queue : QueueId} {request : Request} {rest : request.Reply → Program Unit} :
      Does h (.proceed now) (.entering c queue (.ask request rest)) (.entering c queue (rest (h.answer request).1))
        request.event?.toList
  | starts {now : Instant} {c : Connection} {queue : QueueId} :
      Does h (.proceed now) (.entering c queue (.done ()))
        (.live ⟨c, queue, .start h.settings now, .serving (now + h.settings.pongWait)⟩ (.done ()) []) []
  | replies {now : Instant} {s : Session} {request : Request} {rest : request.Reply → Program Unit}
      {sent : List SocketFrame} :
      Does h (.proceed now) (.live s (.ask request rest) sent) (.live s (rest (h.answer request).1) sent)
        request.event?.toList
  | takesIn {now deadline : Instant} {s : Session} {sent : List SocketFrame} {text : String}
      (reads : s.stage = .serving deadline) :
      Does h (.hear now (.frame (.text text))) (.live s (.done ()) sent)
        (.live s (s.connection.handleText h.settings text).ignore sent) []
  | waits {now before deadline : Instant} {item : Inbound} {s : Session} {sent : List SocketFrame}
      (reads : s.stage = .serving before) :
      Does h (.hear now item) (.live s (.done ()) sent) (.live { s with stage := .serving deadline } (.done ()) sent) []
  /-- the reader stops -/
  | leaves {step : Step} {now deadline : Instant} {s : Session} {sent : List SocketFrame}
      (reads : s.stage = .serving deadline) (time : step.now? = some now) :
      Does h step (.live s (.done ()) sent)
        (.live { s with stage := .draining (now + h.settings.writeWait) } (.done ()) sent)
        [.command (.leave s.connection.room s.connection.session)]
  | pings {now since : Instant} {pingFirst : Bool} {s : Session} {work : Program Unit} {sent : List SocketFrame}
      {writer : Writer} (idle : s.writer.phase = .idle) (writes : writer.phase = .writing .heartbeat since) :
      Does h (.begin now pingFirst) (.live s work sent) (.live { s with writer } work sent) []
  | takes {now since : Instant} {pingFirst : Bool} {s : Session} {work : Program Unit} {sent : List SocketFrame}
      {writer : Writer} {parcel : Parcel} (idle : s.writer.phase = .idle)
      (received : (h.registry.receive s.queue).1 = .frame parcel) (writes : writer.phase = .writing (.text parcel.text) since) :
      Does h (.begin now pingFirst) (.live s work sent) (.live { s with writer } work sent) [.receive s.queue]
  | closes {now since : Instant} {pingFirst : Bool} {s : Session} {work : Program Unit} {sent : List SocketFrame}
      {writer : Writer} (idle : s.writer.phase = .idle) (closed : (h.registry.receive s.queue).1 = .closed)
      (writes : writer.phase = .writing .close since) :
      Does h (.begin now pingFirst) (.live s work sent) (.live { s with writer } work sent) [.receive s.queue]
  /-- a frame is written, and others may follow -/
  | writes {now since : Instant} {s : Session} {work : Program Unit} {sent : List SocketFrame} {writer : Writer}
      {frame : SocketFrame} (writing : s.writer.phase = .writing frame since) (other : frame ≠ .close)
      (idle : writer.phase = .idle) :
      Does h (.wrote now true) (.live s work sent) (.live { s with writer } work (sent ++ [frame])) []
  | ends {now since : Instant} {s : Session} {work : Program Unit} {sent : List SocketFrame} {writer : Writer}
      (writing : s.writer.phase = .writing .close since) (ended : writer.phase = .ended now) :
      Does h (.wrote now true) (.live s work sent) (.live { s with writer } work (sent ++ [.close])) [.endReceiving s.queue]
  | fails {step : Step} {since when : Instant} {s : Session} {work : Program Unit} {sent : List SocketFrame}
      {writer : Writer} {frame : SocketFrame} (fault : ∃ now, step = .wrote now false ∨ step = .stall now)
      (writing : s.writer.phase = .writing frame since) (ended : writer.phase = .ended when) :
      Does h step (.live s work sent) (.live { s with writer } work sent) [.endReceiving s.queue]
  /-- the writer has ended before the reader -/
  | concludes {deadline : Instant} {s : Session} {work : Program Unit} {sent : List SocketFrame}
      (reads : s.stage = .serving deadline) :
      Does h .conclude (.live s work sent) (.live { s with stage := .finished } work sent)
        [.command (.leave s.connection.room s.connection.session), .endReceiving s.queue]
  /-- the writer has ended after the reader, or took too long to -/
  | finishes {step : Step} {limit : Instant} {s : Session} {work : Program Unit} {sent : List SocketFrame}
      (drains : s.stage = .draining limit)
      (why : step = .conclude ∧ s.writer.hasEnded = true ∨ ∃ now, step = .expire now ∧ limit ≤ now) :
      Does h step (.live s work sent) (.live { s with stage := .finished } work sent) [.endReceiving s.queue]

/-- The outcome is one of those, with what happens to the registry. -/
def Comes (h : Hub) (step : Step) (s : Service) (outcome : Service × Hub) : Prop :=
  ∃ es, Does h step s outcome.1 es ∧ outcome.2.registry = h.registry.after es

section Comes
variable {h : Hub} {s : Session} {work : Program Unit} {sent : List SocketFrame} {now : Instant}

theorem comes_hear (item : Inbound) : Comes h (.hear now item) (.live s (.done ()) sent) (hear s sent h now item) := by
  by_cases text : ∃ text, item = .frame (.text text)
  · obtain ⟨text, rfl⟩ := text
    cases stage : s.stage with
    | serving deadline =>
      simp only [hear, stage]
      exact ⟨[], .takesIn stage, rfl⟩
    | draining | finished =>
      simp only [hear, stage, Session.hear]
      exact ⟨[], .nothing _ _, rfl⟩
  · have other : hear s sent h now item = (.live (s.hear h now item).1 (.done ()) sent, (s.hear h now item).2) := by
      unfold hear
      split
      · exact absurd ⟨_, rfl⟩ text
      · rfl
    rw [other]
    cases stage : s.stage with
    | draining | finished =>
      simp only [Session.hear, stage]
      exact ⟨[], .nothing _ _, rfl⟩
    | serving deadline =>
      simp only [Session.hear, stage]
      cases next : Reader.next? h.settings.pongWait now deadline item with
      | none =>
        simp only [Session.readerStops, stage]
        exact ⟨_, .leaves stage rfl, rfl⟩
      | some later =>
        dsimp only
        split
        · exact absurd ⟨_, rfl⟩ text
        · exact ⟨[], .waits stage, rfl⟩

theorem comes_expire : Comes h (.expire now) (.live s (.done ()) sent)
    (.live (s.expireStage h now).1 (.done ()) sent, (s.expireStage h now).2) := by
  cases stage : s.stage with
  | serving deadline =>
    simp only [Session.expireStage, stage, Session.readerStops]
    split
    · exact ⟨_, .leaves stage rfl, rfl⟩
    · exact ⟨[], .nothing _ _, rfl⟩
  | draining limit =>
    simp only [Session.expireStage, stage, Session.finish]
    split
    · next late => exact ⟨_, .finishes stage (.inr ⟨now, rfl, late⟩), rfl⟩
    · exact ⟨[], .nothing _ _, rfl⟩
  | finished =>
    simp only [Session.expireStage, stage]
    exact ⟨[], .nothing _ _, rfl⟩

theorem comes_begin (pingFirst : Bool) :
    Comes h (.begin now pingFirst) (.live s work sent) ((live s work sent).step h (.begin now pingFirst)) := by
  simp only [step]
  cases began : s.begin? h now pingFirst with
  | none => exact ⟨[], .nothing _ _, rfl⟩
  | some result =>
    obtain ⟨frame, t, k⟩ := result
    obtain ⟨idle, begins⟩ := Session.begins_of_begin? began
    cases begins with
    | ping due => exact ⟨[], .pings idle rfl, rfl⟩
    | text received =>
      refine ⟨[.receive s.queue], .takes idle (by rw [received]) rfl, ?_⟩
      rw [Registry.after_cons, Registry.after_nil, Registry.next, received]
    | close received =>
      refine ⟨[.receive s.queue], .closes idle (by rw [received]) rfl, ?_⟩
      rw [Registry.after_cons, Registry.after_nil, Registry.next, received]

/-- A writer that takes over what it has become. -/
theorem withWriter_registry (s : Session) (h : Hub) (writer : Writer) : (s.withWriter h writer).2.registry =
    h.registry.after (if writer.hasEnded then [.endReceiving s.queue] else []) := by
  cases ended : writer.hasEnded <;> simp [Session.withWriter, ended, Registry.next]

theorem phase_of_writing? {frame : SocketFrame} (writes : s.writing? = some frame) :
    ∃ since, s.writer.phase = .writing frame since := by
  unfold Session.writing? at writes
  split at writes
  · cases writes
  · next since phase going =>
    cases writes
    exact ⟨since, phase⟩
  · cases writes

theorem comes_wrote (succeeded : Bool) :
    Comes h (.wrote now succeeded) (.live s work sent) (wrote s work sent h now succeeded) := by
  unfold wrote
  cases writes : s.writing? with
  | none => exact ⟨[], .nothing _ _, rfl⟩
  | some frame =>
    obtain ⟨since, phase⟩ := phase_of_writing? writes
    refine ⟨_, ?_, withWriter_registry s h _⟩
    cases succeeded with
    | false =>
      have ended : (s.writer.wrote h.settings now false).phase = .ended now := by simp [Writer.wrote, phase]
      simp only [Session.withWriter, Writer.hasEnded, ended, Bool.false_eq_true, if_false, if_true]
      exact .fails ⟨now, .inl rfl⟩ phase ended
    | true =>
      by_cases last : frame = .close
      · subst last
        have ended : (s.writer.wrote h.settings now true).phase = .ended now := by simp [Writer.wrote, phase]
        simp only [Session.withWriter, Writer.hasEnded, ended, if_true]
        exact .ends phase ended
      · have idle : (s.writer.wrote h.settings now true).phase = .idle := by
          cases frame <;> simp_all [Writer.wrote]
        simp only [Session.withWriter, Writer.hasEnded, idle, Bool.false_eq_true, if_false, if_true]
        exact .writes phase last idle

theorem comes_stall : Comes h (.stall now) (.live s work sent) (stall s work sent h now) := by
  unfold stall
  split
  · next frame limit writes limited =>
    obtain ⟨since, phase⟩ := phase_of_writing? writes
    split
    · refine ⟨_, ?_, withWriter_registry s h _⟩
      have ended : (s.writer.expire h.settings).phase = .ended (since + h.settings.writeWait) := by
        simp [Writer.expire, phase]
      simp only [Session.withWriter, Writer.hasEnded, ended, if_true]
      exact .fails ⟨now, .inr rfl⟩ phase ended
    · exact ⟨[], .nothing _ _, rfl⟩
  · exact ⟨[], .nothing _ _, rfl⟩

theorem comes_conclude : Comes h .conclude (.live s work sent) ((live s work sent).step h .conclude) := by
  simp only [step]
  split
  · next ended =>
    cases stage : s.stage with
    | serving deadline =>
      simp only [Session.writerStops, stage, Session.finish]
      exact ⟨_, .concludes stage, rfl⟩
    | draining limit =>
      simp only [Session.writerStops, stage, Session.finish]
      exact ⟨_, .finishes stage (.inl ⟨rfl, ended⟩), rfl⟩
    | finished =>
      simp only [Session.writerStops, stage]
      exact ⟨[], .nothing _ _, rfl⟩
  · exact ⟨[], .nothing _ _, rfl⟩

end Comes

theorem comes_step (h : Hub) (s : Service) (step : Step) : Comes h step s (s.step h step) := by
  have nothing : Comes h step s (s, h) := ⟨[], .nothing _ _, rfl⟩
  cases s with
  | entering c queue work =>
    cases step with
    | proceed now =>
      cases work with
      | done => exact ⟨[], .starts, rfl⟩
      | ask request rest => exact ⟨_, .asks, h.answer_registry request⟩
    | hear | begin | wrote | stall | conclude | expire => cases work <;> exact nothing
  | live s work sent =>
    cases step with
    | proceed now =>
      cases work with
      | done => exact nothing
      | ask request rest => exact ⟨_, .replies, h.answer_registry request⟩
    | hear now item =>
      cases work with
      | done => exact comes_hear item
      | ask request rest => exact nothing
    | expire now =>
      cases work with
      | done => exact comes_expire
      | ask request rest => exact nothing
    | begin now pingFirst => exact comes_begin pingFirst
    | wrote now succeeded => cases work <;> exact comes_wrote succeeded
    | stall now => cases work <;> exact comes_stall
    | conclude => exact comes_conclude

/-- What is true of a connection and its seat, whatever has happened. -/
structure Holds (s : Service) (r : Registry Parcel) (seat : Registry.Seat Parcel) : Prop where
  seated : Registry.Seated r s.place seat
  sound : seat.Sound
  /-- when it has left its room, it is no member -/
  left : s.isStaying = false → seat.member = none
  gone : s.isOver = true → Registry.Abandoned seat.queue
  minds : s.work.Asks (Request.Minds s.place)
  /-- the close frame is written at the end -/
  last : .close ∈ s.sent → ∃ when, s.phase = .ended when
  /-- before that, all others are written -/
  closing : ∀ since, s.phase = .writing .close since → seat.Spent

theorem not_staying_of_over {s : Service} (complete : s.isOver = true) : s.isStaying = false := by
  cases s with
  | entering => cases complete
  | live session work sent =>
    have finished : session.stage = .finished := by simpa [isOver, Session.isOver] using complete
    simp [isStaying, finished]

section Does
variable {h : Hub} {step : Step} {s s' : Service} {es : List (Registry.Event Parcel)}

theorem Does.place (does : Does h step s s' es) : s'.place = s.place := by
  cases does <;> rfl

theorem Does.leaves_room (does : Does h step s s' es) (left : s'.isStaying = false) :
    s.isStaying = false ∨ .command (.leave s.place.room s.place.session) ∈ es := by
  cases does with
  | leaves | concludes => exact .inr List.mem_cons_self
  | finishes drains => exact .inl (by simp [isStaying, drains])
  | starts | waits => cases left
  | _ => exact .inl left

theorem Does.ends_receiving (does : Does h step s s' es) (complete : s'.isOver = true) :
    s.isOver = true ∨ .endReceiving s.place.queue ∈ es := by
  cases does with
  | concludes | finishes => exact .inr (by simp)
  | starts | waits | leaves => cases complete
  | _ => exact .inl complete

theorem Does.minds (does : Does h step s s' es) (minds : s.work.Asks (Request.Minds s.place)) :
    s'.work.Asks (Request.Minds s.place) := by
  cases does with
  | asks | replies =>
    cases minds with
    | ask permitted later => exact later _
  | starts => exact .done _
  | takesIn => exact Connection.minds_handleText _ _ _ _
  | _ => exact minds

theorem Does.events (does : Does h step s s' es) (minds : s.work.Asks (Request.Minds s.place)) :
    (∃ room parcel, es = [.command (.broadcast room parcel)]) ∨ ∀ e ∈ es, e.Own s.place := by
  cases does with
  | asks | replies =>
    cases minds with
    | ask permitted later => exact permitted.events
  | _ =>
    right
    simp [Registry.Event.Own, Registry.Command.room, Registry.Command.session?]

/-- At other queues it receives nothing. -/
theorem Does.elsewhere (does : Does h step s s' es) (minds : s.work.Asks (Request.Minds s.place)) {other : QueueId}
    (apart : other ≠ s.queue) : .receive other ∉ es ∧ .endReceiving other ∉ es := by
  rcases does.events minds with ⟨room, parcel, rfl⟩ | own
  · simp
  · exact ⟨fun there => apart (own _ there), fun there => apart (own _ there)⟩

/-- The writer begins with the close frame when its queue is found closed, and else goes on as it may. -/
theorem Does.last (does : Does h step s s' es) (last : .close ∈ s.sent → ∃ when, s.phase = .ended when)
    (closed : .close ∈ s'.sent) : ∃ when, s'.phase = .ended when := by
  have unclosed (going : ∀ when, s.phase ≠ .ended when) : .close ∉ s.sent := by
    intro there
    obtain ⟨when, ended⟩ := last there
    exact going when ended
  cases does with
  | pings idle | takes idle | closes idle =>
    refine absurd closed (unclosed fun when ended => ?_)
    cases idle.symm.trans ended
  | writes writing other =>
    rcases List.mem_append.mp closed with there | there
    · refine absurd there (unclosed fun when ended => ?_)
      cases writing.symm.trans ended
    · exact absurd (List.mem_singleton.mp there).symm other
  | ends writing ended => exact ⟨_, ended⟩
  | fails fault writing ended => exact ⟨_, ended⟩
  | starts => cases closed
  | _ => exact last closed

/-- A step begins with the close frame only if the queue is found closed. -/
theorem Does.closing (does : Does h step s s' es) {since : Instant} (closing : s'.phase = .writing .close since) :
    s.phase = .writing .close since ∨
      (h.registry.receive s.place.queue).1 = .closed ∧ es = [.receive s.place.queue] := by
  cases does with
  | closes idle closed writes => exact .inr ⟨closed, rfl⟩
  | pings rest writes => cases writes.symm.trans closing
  | takes rest received writes => cases writes.symm.trans closing
  | writes writing other idle => cases idle.symm.trans closing
  | ends writing ended => cases ended.symm.trans closing
  | fails fault writing ended => cases ended.symm.trans closing
  | starts => cases closing
  | _ => exact .inl closing

end Does

/-- Nobody has a seat of which the queue is found closed. -/
theorem spent_of_closed {r : Registry Parcel} {p : Registry.Place} {seat : Registry.Seat Parcel}
    (seated : Registry.Seated r p seat) (sound : seat.Sound) (closed : (r.receive p.queue).1 = .closed) : seat.Spent := by
  have known := seated.queue
  have sends := sound.sending
  obtain ⟨member, capacity, waiting, sending, receiving⟩ := seat
  simp only [Registry.receive, known, Queue.receive] at closed
  split at closed
  · cases closed
  · cases sending with
    | true => cases closed
    | false => exact ⟨by simpa using sends, rfl⟩

section Holds
variable {h : Hub} {r : Registry Parcel} {seat : Registry.Seat Parcel} {s s' : Service}

/-- Whatever anybody does, it remains true. -/
theorem Holds.after (holds : s.Holds r seat) (valid : Registry.Valid r) (es : List (Registry.Event Parcel)) :
    s.Holds (r.after es) (es.foldl (Registry.Seat.next s.place) seat) where
  seated := holds.seated.after valid es
  sound := holds.sound.after s.place es
  left left := Registry.Seat.foldl_vacant (holds.left left) s.place es
  gone complete := Registry.Seat.abandoned_after (holds.gone complete) s.place es
  minds := holds.minds
  last := holds.last
  closing since writing := (holds.closing since writing).after s.place es

theorem Holds.step {step : Step} {es : List (Registry.Event Parcel)} (holds : s.Holds h.registry seat)
    (valid : Registry.Valid h.registry) (does : Does h step s s' es) :
    s'.Holds (h.registry.after es) (es.foldl (Registry.Seat.next s.place) seat) := by
  have after := holds.after valid es
  refine ⟨?_, after.sound, ?_, ?_, ?_, does.last holds.last, ?_⟩
  · rw [does.place]
    exact after.seated
  · intro left
    rcases does.leaves_room left with before | leaves
    · exact after.left before
    · exact holds.seated.vacant_of_leave valid leaves
  · intro complete
    rcases does.ends_receiving complete with before | ends
    · exact after.gone before
    · exact seat.abandoned_of_end ends
  · rw [does.place]
    exact does.minds holds.minds
  · intro since writing
    rcases does.closing writing with before | ⟨closed, -⟩
    · exact after.closing since before
    · exact (spent_of_closed holds.seated holds.sound closed).after s.place es

end Holds

end Service

end HelpDesk
