import HelpDesk.Proofs.ReaderSteps
import HelpDesk.Proofs.ServedRooms

/-! A reader at work, whatever else goes on. Items come to it at given times; what it does about a text takes no time that
counts, but anybody else may do anything in between, and the store may do what it likes. -/

namespace HelpDesk

namespace Traffic
variable {x : Traffic} {n : Nat} {move : Move} {items rest : List (Instant × Inbound)} {moves : List Move}

/-- Does the reader of a connection get something, or is it its end? -/
def Move.reads (n : Nat) : Move → Bool
  | step m own => m == n && own.reads
  | enter _ | request _ | clock _ | receive _ | endReceiving _ => false

/-- What a connection asks for in a move. -/
def asks? (x : Traffic) (n : Nat) : Move → Option Occurrence
  | .step m step => if m = n then x.services[n]?.bind (·.asks? n x.hub step) else none
  | .enter _ | .request _ | .clock _ | .receive _ | .endReceiving _ => none

/-- What a connection asks for, move by move, and of which hub. -/
def asked (n : Nat) : Traffic → List Move → List Occurrence
  | _, [] => []
  | x, move :: moves => (x.asks? n move).toList ++ asked n (x.next move) moves

def awaits? (x : Traffic) (n : Nat) : Option Instant :=
  x.services[n]?.bind (·.awaits?)

/-- Of these items, which come one after the other, some come to the reader of a connection with these moves, and the others
are left. It gets an item at its time, if it waits then and the deadline has not passed; when the deadline passes before
the next item, it finds that out at once. Anybody else may do anything in between. -/
inductive Meets (n : Nat) : Traffic → List (Instant × Inbound) → List Move → List (Instant × Inbound) → Prop
  | still (x : Traffic) (items : List (Instant × Inbound)) : Meets n x items [] items
  | aside {x : Traffic} {items rest : List (Instant × Inbound)} {move : Move} {moves : List Move}
      (aside : move.reads n = false) (later : Meets n (x.next move) items moves rest) : Meets n x items (move :: moves) rest
  | hears {x : Traffic} {deadline now : Instant} {item : Inbound} {items rest : List (Instant × Inbound)} {moves : List Move}
      (awaits : x.awaits? n = some deadline) (timely : now ≤ deadline)
      (later : Meets n (x.next (.step n (.hear now item))) items moves rest) :
      Meets n x ((now, item) :: items) (.step n (.hear now item) :: moves) rest
  | expires {x : Traffic} {deadline : Instant} {items rest : List (Instant × Inbound)} {moves : List Move}
      (awaits : x.awaits? n = some deadline) (late : ∀ next ∈ items.head?, deadline < next.1)
      (later : Meets n (x.next (.step n (.expire deadline))) items moves rest) :
      Meets n x items (.step n (.expire deadline) :: moves) rest

theorem Meets.append {later : List Move} {last : List (Instant × Inbound)} (meets : x.Meets n items moves rest)
    (more : (x.after moves).Meets n rest later last) : x.Meets n items (moves ++ later) last := by
  induction meets with
  | still => exact more
  | aside aside _ ih => exact .aside aside (ih more)
  | hears awaits timely _ ih => exact .hears awaits timely (ih more)
  | expires awaits late _ ih => exact .expires awaits late (ih more)

theorem asked_append (x : Traffic) (n : Nat) (first last : List Move) :
    x.asked n (first ++ last) = x.asked n first ++ (x.after first).asked n last := by
  induction first generalizing x with
  | nil => rfl
  | cons move first ih =>
    rw [List.cons_append, asked, asked, ih, List.append_assoc]
    rfl

theorem after_append (x : Traffic) (first last : List Move) : x.after (first ++ last) = (x.after first).after last :=
  List.foldl_append

theorem next_settings (x : Traffic) (move : Move) : (x.next move).hub.settings = x.hub.settings := by
  cases move with
  | enter | clock => rfl
  | request request => exact x.hub.answer_settings request
  | step m step =>
    simp only [next]
    split
    · exact Service.step_settings _ _ _
    · rfl
  | receive queue | endReceiving queue =>
    simp only [next]
    split <;> rfl

section Served
variable {s : Service} (served : x.services[n]? = some s)
include served

theorem services_of_step (step : Service.Step) :
    (x.next (.step n step)).services[n]? = some (s.step x.hub step).1 := by
  simp only [next, served]
  exact List.getElem?_set_self (List.getElem?_eq_some_iff.mp served).1

theorem services_of_apart (apart : ∀ step, move ≠ .step n step) : (x.next move).services[n]? = some s := by
  cases move with
  | enter c => exact (List.getElem?_append_left (List.getElem?_eq_some_iff.mp served).1).trans served
  | request | clock => exact served
  | receive queue | endReceiving queue =>
    simp only [next]
    split <;> exact served
  | step m step =>
    simp only [next]
    split
    · have other : m ≠ n := fun same => apart step (congrArg (Move.step · step) same)
      exact (List.getElem?_set_ne other).trans served
    · exact served

theorem asks?_of_step (step : Service.Step) : x.asks? n (.step n step) = s.asks? n x.hub step := by
  simp [asks?, served]

end Served

theorem asks?_of_apart (apart : ∀ step, move ≠ .step n step) : x.asks? n move = none := by
  cases move with
  | step m step =>
    have other : m ≠ n := fun same => apart step (congrArg (Move.step · step) same)
    simp [asks?, other]
  | enter | request | clock | receive | endReceiving => rfl

section Live
variable {s : Session} {work : Program Unit} {sent : List SocketFrame}
  (served : x.services[n]? = some (.live s work sent))
include served

theorem next_aside (aside : move.reads n = false) : ∃ t work' sent',
    (x.next move).services[n]? = some (.live t work' sent') ∧ t.stage = s.stage ∧ t.connection = s.connection ∧
      work.Path (x.asks? n move).toList work' := by
  by_cases own : ∃ step, move = .step n step
  · obtain ⟨step, rfl⟩ := own
    rw [services_of_step served, asks?_of_step served]
    obtain ⟨t, work', sent', same, kept⟩ :=
      Service.step_aside n (s := s) (h := x.hub) (by simpa [Move.reads] using aside)
    exact ⟨t, work', sent', congrArg some same, kept⟩
  · have apart : ∀ step, move ≠ .step n step := fun step same => own ⟨step, same⟩
    rw [services_of_apart served apart, asks?_of_apart apart]
    exact ⟨s, work, sent, rfl, rfl, rfl, .nil work⟩

theorem next_stopped (idle : work = .done ()) (stopped : ∀ deadline, s.stage ≠ .serving deadline) (move : Move) :
    x.asks? n move = none ∧ ∃ t sent', (x.next move).services[n]? = some (.live t (.done ()) sent') ∧
      ∀ deadline, t.stage ≠ .serving deadline := by
  subst idle
  by_cases own : ∃ step, move = .step n step
  · obtain ⟨step, rfl⟩ := own
    obtain ⟨t, sent', same, stopped'⟩ := Service.step_stopped x.hub sent stopped step
    rw [services_of_step served, asks?_of_step served]
    exact ⟨Service.asks?_of_done rfl n step, t, sent', congrArg some same, stopped'⟩
  · have apart : ∀ step, move ≠ .step n step := fun step same => own ⟨step, same⟩
    rw [services_of_apart served apart, asks?_of_apart apart]
    exact ⟨rfl, s, sent, rfl, stopped⟩

/-- Nothing that comes after the reader has stopped is taken in. -/
theorem asked_of_stopped (idle : work = .done ()) (stopped : ∀ deadline, s.stage ≠ .serving deadline) (moves : List Move) :
    x.asked n moves = [] := by
  induction moves generalizing x s work sent with
  | nil => rfl
  | cons move moves ih =>
    obtain ⟨nothing, t, sent', served', stopped'⟩ := next_stopped served idle stopped move
    rw [asked, nothing, ih served' rfl stopped']
    rfl

theorem awaits?_eq (idle : work = .done ()) {deadline : Instant} (serving : s.stage = .serving deadline) :
    x.awaits? n = some deadline := by
  subst idle
  simp [awaits?, served, Service.awaits?, serving]

theorem awaits?_of_stopped (stopped : ∀ deadline, s.stage ≠ .serving deadline) : x.awaits? n = none := by
  cases awaits : x.awaits? n with
  | none => rfl
  | some deadline =>
    simp only [awaits?, served, Option.bind_some] at awaits
    obtain ⟨t, _, same, serving⟩ := Service.of_awaits? awaits
    cases same
    exact absurd serving (stopped deadline)

end Live

/-- A reader that has stopped does not go on, and its writer has as long as it had. -/
theorem Meets.drains {s : Session} {sent : List SocketFrame} {limit : Instant} (meets : x.Meets n items moves rest)
    (served : x.services[n]? = some (.live s (.done ()) sent)) (drains : s.stage = .draining limit) :
    x.asked n moves = [] ∧
      ∃ t sent', (x.after moves).services[n]? = some (.live t (.done ()) sent') ∧ t.stage = .draining limit := by
  have none (x : Traffic) {s : Session} {sent : List SocketFrame} (served : x.services[n]? = some (.live s (.done ()) sent))
      (drains : s.stage = .draining limit) : x.awaits? n = none := by
    refine awaits?_of_stopped served fun deadline serving => ?_
    cases drains.symm.trans serving
  induction meets generalizing s sent with
  | still x items => exact ⟨rfl, s, sent, served, drains⟩
  | aside aside _ ih =>
    obtain ⟨t, work', sent', served', stage, -, path⟩ := next_aside served aside
    obtain ⟨nothing, rfl⟩ := path.of_idle
    rw [← stage] at drains
    obtain ⟨nothing', after⟩ := ih served' drains
    exact ⟨by rw [asked, nothing, nothing', List.append_nil], after⟩
  | hears awaits => cases (none _ served drains).symm.trans awaits
  | expires awaits => cases (none _ served drains).symm.trans awaits

/-- How far the reader of a connection has come, when it has read these. -/
inductive Come (settings : Settings) (started : Instant) (read rest : List (Instant × Inbound)) (work : Program Unit) :
    List (Instant × Inbound) → Session.Stage → Prop
  | reading : Come settings started read rest work rest (.serving (Reader.lastPong started read + settings.pongWait))
  | stopped {unread : List (Instant × Inbound)} {ended : Instant}
      (stops : Reader.Stops settings.pongWait started read unread ended) (idle : work = .done ()) :
      Come settings started read rest work unread (.draining (ended + settings.writeWait))

theorem Come.cons {settings : Settings} {started now : Instant} {item : Inbound} {read rest unread : List (Instant × Inbound)}
    {work : Program Unit} {stage : Session.Stage}
    (come : Come settings (if item.isPong then now else started) read rest work unread stage) :
    Come settings started ((now, item) :: read) rest work unread stage := by
  cases come with
  | reading =>
    rw [← Reader.lastPong_cons]
    exact .reading
  | stopped stops idle => exact .stopped stops.cons idle

/-- What a reader has read after some moves, and what it has made of it. -/
theorem Meets.come {s : Session} {work : Program Unit} {sent : List SocketFrame} {settings : Settings} {started : Instant}
    (meets : x.Meets n items moves rest) (served : x.services[n]? = some (.live s work sent))
    (known : x.hub.settings = settings) (serving : s.stage = .serving (started + settings.pongWait)) :
    ∃ read unread t work' sent', items = read ++ unread ∧
      (x.after moves).services[n]? = some (.live t work' sent') ∧
      Reader.Reads settings.pongWait started read ∧
      (work.bind fun _ => (s.connection.readTexts settings ((Reader.texts read).map (·.2))).ignore).Path
        (x.asked n moves) work' ∧
      Come settings started read rest work' unread t.stage := by
  induction meets generalizing s work sent started with
  | still x items =>
    refine ⟨[], items, s, work, sent, rfl, served, .nil, ?_, ?_⟩
    · have nothing : (work.bind fun _ => (s.connection.readTexts settings []).ignore) = work := Program.bind_done work
      rw [Reader.texts, List.filterMap_nil, List.map_nil, nothing]
      exact .nil work
    · rw [serving]
      exact .reading
  | @aside x items rest move moves aside _ ih =>
    obtain ⟨t, work', sent', served', stage, same, path⟩ := next_aside served aside
    rw [← stage] at serving
    rw [← same]
    obtain ⟨read, unread, u, last, sent'', split, after, reads, later, come⟩ :=
      ih served' ((x.next_settings _).trans known) serving
    exact ⟨read, unread, u, last, sent'', split, after, reads, (path.bind _).append later, come⟩
  | @hears x deadline now item items rest moves awaits timely later ih =>
    simp only [awaits?, served, Option.bind_some] at awaits
    obtain ⟨_, _, same, waits⟩ := Service.of_awaits? awaits
    cases same
    cases serving.symm.trans waits
    have asks : x.asks? n (.step n (.hear now item)) = none := (asks?_of_step served _).trans rfl
    have served' := services_of_step served (.hear now item)
    have known' := (x.next_settings (.step n (.hear now item))).trans known
    rw [asked, asks, Option.toList_none, List.nil_append]
    cases last : item.isLast with
    | true =>
      rw [Service.step_last serving last] at served'
      obtain ⟨nothing, t, sent', after, drains⟩ := later.drains served' rfl
      rw [nothing]
      refine ⟨[], (now, item) :: items, t, _, sent', rfl, after, .nil, .nil _, ?_⟩
      rw [drains, known]
      exact .stopped (.last last timely) rfl
    | false =>
      rw [Service.step_hear serving last] at served'
      have deadline : (if item.isPong then now + x.hub.settings.pongWait else started + settings.pongWait) =
          (if item.isPong then now else started) + settings.pongWait := by
        rw [known]
        cases item.isPong <;> rfl
      obtain ⟨read, unread, u, work', sent', rfl, after, reads, path, come⟩ :=
        ih served' known' (congrArg Session.Stage.serving deadline)
      refine ⟨(now, item) :: read, unread, u, work', sent', rfl, after, .cons last timely reads, ?_, come.cons⟩
      have texts : (Reader.texts ((now, item) :: read)).map (·.2) =
          item.text?.toList ++ (Reader.texts read).map (·.2) := by
        cases text : item.text? <;> simp [Reader.texts, text]
      rw [texts, Connection.ignore_readTexts_append]
      rwa [known] at path
  | @expires x deadline items rest moves awaits late later ih =>
    simp only [awaits?, served, Option.bind_some] at awaits
    obtain ⟨_, _, same, waits⟩ := Service.of_awaits? awaits
    cases same
    cases serving.symm.trans waits
    have asks : x.asks? n (.step n (.expire (started + settings.pongWait))) = none := (asks?_of_step served _).trans rfl
    have served' := services_of_step served (.expire (started + settings.pongWait))
    rw [Service.step_expire serving] at served'
    obtain ⟨nothing, t, sent', after, drains⟩ := later.drains served' rfl
    rw [asked, asks, Option.toList_none, List.nil_append, nothing]
    refine ⟨[], items, t, _, sent', rfl, after, .nil, .nil _, ?_⟩
    rw [drains, known]
    exact .stopped (.silence late) rfl

/-- What a connection has begun comes to its end, when it gets its turns. -/
theorem exists_idle {s : Session} {work : Program Unit} {sent : List SocketFrame}
    (served : x.services[n]? = some (.live s work sent)) (items : List (Instant × Inbound)) :
    ∃ moves, x.Meets n items moves items ∧ (x.after moves).services[n]? = some (.live s (.done ()) sent) := by
  induction work generalizing x with
  | done => exact ⟨[], .still x items, served⟩
  | ask request next ih =>
    obtain ⟨moves, meets, after⟩ := ih _ (services_of_step served (.proceed 0))
    have aside : (Move.step n (.proceed 0)).reads n = false := by simp [Move.reads, Service.Step.reads]
    exact ⟨_, .aside aside meets, after⟩

theorem services_of_snoc {s : Service} (after : ((x.after moves).next move).services[n]? = some s) :
    (x.after (moves ++ [move])).services[n]? = some s := by
  rw [after_append]
  exact after

/-- A reader is never stuck: with each item it goes on or stops, and it does not wait for ever. -/
theorem exists_stop {s : Session} {work : Program Unit} {sent : List SocketFrame} {deadline : Instant}
    (served : x.services[n]? = some (.live s work sent)) (serving : s.stage = .serving deadline)
    (items : List (Instant × Inbound)) : ∃ moves rest t, x.Meets n items moves rest ∧
      (x.after moves).services[n]? = some t ∧ t.isStaying = false := by
  induction items generalizing x s work sent deadline with
  | nil =>
    obtain ⟨before, goes, waits⟩ := exists_idle served []
    have after := services_of_step waits (.expire deadline)
    rw [Service.step_expire serving] at after
    refine ⟨before ++ [.step n (.expire deadline)], [], _, ?_, services_of_snoc after, rfl⟩
    exact goes.append (.expires (awaits?_eq waits rfl serving) (by simp) (.still _ []))
  | cons entry items ih =>
    obtain ⟨now, item⟩ := entry
    obtain ⟨before, goes, waits⟩ := exists_idle served ((now, item) :: items)
    have awaits := awaits?_eq waits rfl serving
    by_cases timely : now ≤ deadline
    · have after := services_of_step waits (.hear now item)
      cases last : item.isLast with
      | true =>
        rw [Service.step_last serving last] at after
        refine ⟨before ++ [.step n (.hear now item)], items, _, ?_, services_of_snoc after, rfl⟩
        exact goes.append (.hears awaits timely (.still _ items))
      | false =>
        rw [Service.step_hear serving last] at after
        obtain ⟨more, rest, t, meets, ends, stopped⟩ := ih after rfl
        refine ⟨before ++ .step n (.hear now item) :: more, rest, t, ?_, after_append _ _ _ ▸ ends, stopped⟩
        exact goes.append (.hears awaits timely meets)
    · have after := services_of_step waits (.expire deadline)
      rw [Service.step_expire serving] at after
      refine ⟨before ++ [.step n (.expire deadline)], (now, item) :: items, _, ?_, services_of_snoc after, rfl⟩
      refine goes.append (.expires awaits (fun next first => ?_) (.still _ _))
      cases first
      exact Nat.lt_of_not_le timely

/-- Whatever else goes on, and whatever the store does: what a reader asks for is what follows from the texts that it has
read, each taken in once, one after the other. It reads all that comes before the first item that is an end, and before the
deadline, which is so long after the last pong, or the start; that very item, or the deadline, stops it, and nothing that
comes later is taken in. So it waits for a peer without pongs as long as for the first one, and one with pongs that are close
enough is not cut off by the deadline as long as they come. -/
theorem reading_extent {s : Service} {started : Instant} (served : x.services[n]? = some s)
    (awaits : s.awaits? = some (started + x.hub.settings.pongWait)) (meets : x.Meets n items moves rest) :
    let settings := x.hub.settings
    ∃ read unread t, items = read ++ unread ∧ (x.after moves).services[n]? = some t ∧
      Reader.Reads settings.pongWait started read ∧
      (s.connection.readTexts settings ((Reader.texts read).map (·.2))).ignore.Path (x.asked n moves) t.work ∧
      (unread = rest ∧ t.stage? = some (.serving (Reader.lastPong started read + settings.pongWait)) ∧
          (∃ more left u, x.Meets n items (moves ++ more) left ∧
            (x.after (moves ++ more)).services[n]? = some u ∧ u.isStaying = false) ∨
        ∃ ended, t.stage? = some (.draining (ended + settings.writeWait)) ∧ t.work = .done () ∧
          Reader.Stops settings.pongWait started read unread ended ∧
          Reader.extent settings.pongWait (started + settings.pongWait) items = ⟨Reader.texts read, ended⟩ ∧
          (∀ later, x.asked n (moves ++ later) = x.asked n moves) ∧
          (Reader.pongs items = [] →
            (∀ entry ∈ items, entry.2.isLast = true → started + settings.pongWait < entry.1) →
            ended = started + settings.pongWait) ∧
          ((items.map (·.1)).Pairwise (· ≤ ·) →
            (started :: Reader.pongs items).IsChain (fun earlier later => later < earlier + settings.pongWait) →
            Reader.pongs unread ≠ [] → ∃ item later, unread = (ended, item) :: later ∧ item.isLast = true)) := by
  intro settings
  obtain ⟨session, sent, rfl, serving⟩ := Service.of_awaits? awaits
  obtain ⟨read, unread, t, work, sent', rfl, after, reads, path, come⟩ := meets.come served rfl serving
  refine ⟨read, unread, .live t work sent', rfl, after, reads, path, ?_⟩
  generalize stage : t.stage = reached at come
  cases come with
  | reading =>
    obtain ⟨more, left, u, meets', ends, stopped⟩ := exists_stop after stage rest
    exact .inl ⟨rfl, congrArg some stage, more, left, u, meets.append meets', after_append _ _ _ ▸ ends, stopped⟩
  | @stopped _ ended stops idle =>
    have stopped : ∀ deadline, t.stage ≠ .serving deadline := by
      intro deadline serving
      cases stage.symm.trans serving
    refine .inr ⟨ended, congrArg some stage, idle, stops, Reader.extent_eq reads stops, ?_, ?_, stops.last_of_pongs⟩
    · intro later
      rw [asked_append, asked_of_stopped after idle stopped, List.append_nil]
    · intro pongless unended
      rw [Reader.pongs_append] at pongless
      refine stops.ended_of_pongless (List.append_eq_nil_iff.mp pongless).1 fun entry there => ?_
      exact unended entry (List.mem_append_right _ there)

/-- A customer sends a text that the store fails to take, a pong, a binary frame and a text that cannot be read, and then one
that is too late: the reader has stopped when it has waited for the next pong. Meanwhile a ping is written to the customer. -/
theorem reading_extent_of_pong :
    let hub : Hub := { settings := ⟨512, 60, 54, 10, 256⟩, clock := ⟨0, 0⟩, mint := fun n => .ofNat (n + 1) }
    let c : Connection := ⟨⟨1⟩, ⟨⟨.ofNat 1001⟩, .user⟩, ⟨.ofNat 1⟩⟩
    let hello := "\x7b\"content\":\"Hello\"\x7d"
    let items : List (Instant × Inbound) := [(20, .frame (.text hello)), (50, .frame (.pong [])), (70, .frame (.binary [0])),
      (90, .frame (.text "?")), (115, .frame (.text hello))]
    let moves : List Move := [.step 0 (.hear 20 (.frame (.text hello))), .step 0 (.proceed 20),
      .step 0 (.hear 50 (.frame (.pong []))), .step 0 (.begin 54 true), .step 0 (.hear 70 (.frame (.binary [0]))),
      .step 0 (.hear 90 (.frame (.text "?"))), .step 0 (.expire 110)]
    let x := (Traffic.mk hub []).after [.enter c, .step 0 (.proceed 0), .step 0 (.proceed 0)]
    Reader.extent 60 60 items = ⟨[(20, hello), (90, "?")], 110⟩ ∧
    ∃ t, (x.after moves).services[0]? = some t ∧ t.stage? = some (.draining 120) ∧
      (c.readTexts hub.settings [hello, "?"]).ignore.Path (x.asked 0 moves) (.done ()) ∧
      ∀ later, x.asked 0 (moves ++ later) = x.asked 0 moves := by
  intro hub c hello items moves x
  have state : x.services[0]?.map (fun s => (s.connection, s.awaits?)) = some (c, some 60) := by decide +kernel
  have settings : x.hub.settings = ⟨512, 60, 54, 10, 256⟩ := by decide +kernel
  have final : (x.after moves).services[0]?.bind (·.stage?) = some (.draining 120) := by decide +kernel
  have extent : Reader.extent 60 60 items = ⟨[(20, hello), (90, "?")], 110⟩ := by decide +kernel
  have meets : x.Meets 0 items moves [(115, .frame (.text hello))] := by
    refine .hears (show _ = some 60 by decide +kernel) (by decide) (.aside rfl ?_)
    refine .hears (show _ = some 60 by decide +kernel) (by decide) (.aside rfl ?_)
    refine .hears (show _ = some 110 by decide +kernel) (by decide) ?_
    refine .hears (show _ = some 110 by decide +kernel) (by decide) ?_
    exact .expires (show _ = some 110 by decide +kernel) (by simp) (.still _ _)
  clear_value x moves items
  obtain ⟨s, served, known⟩ := Option.map_eq_some_iff.mp state
  obtain ⟨same, awaits⟩ := Prod.mk.inj known
  have awaits' : s.awaits? = some (0 + x.hub.settings.pongWait) := by rw [awaits, settings, Nat.zero_add]
  obtain ⟨read, unread, t, split, after, reads, path, reached⟩ := reading_extent served awaits' meets
  rw [after, Option.bind_some] at final
  rw [settings] at path
  rcases reached with ⟨-, serving, -⟩ | ⟨ended, -, idle, -, whole, nothing, -⟩
  · cases serving.symm.trans final
  · rw [settings, Nat.zero_add] at whole
    obtain ⟨texts, -⟩ := Reader.Extent.mk.inj (whole.symm.trans extent)
    rw [same, texts, idle] at path
    exact ⟨extent, t, after, final, path, nothing⟩

end Traffic

end HelpDesk
