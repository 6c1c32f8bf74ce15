import HelpDesk.Proofs.Heartbeats

/-! What a writer writes next, and that it comes to the end of its queue. What is ready before a ping is due is the next
write; so is a ping that is due before anything is ready. Pings keep nothing from being written for ever, since each of them
puts the next one off by a period: in the end what the queue has is ready when the ping is due, and only has to be chosen. -/

namespace HelpDesk.Delivery
variable {settings : Settings} {script : Script} {n : Nat}

section Turn
variable {d : Delivery} {frame : SocketFrame} {since ready : Instant} {texts : List (Instant × String)}
  (turn : Turn script d frame since texts)
include turn

theorem Turn.ping_of_none (none : d.ready? script = none) : frame = .ping [] ∧ since = d.due := by
  cases turn with
  | ping => exact ⟨rfl, rfl⟩
  | take known => cases none.symm.trans known

theorem Turn.take_of_lt (known : d.ready? script = some ready) (soon : ready < d.due) : frame = d.head ∧ since = ready := by
  cases turn with
  | ping first =>
    rcases first ready known with later | ⟨same, -⟩
    · exact absurd soon (Nat.lt_asymm later)
    · exact absurd soon (Nat.not_lt.mpr (Nat.le_of_eq same))
  | take known' => exact ⟨rfl, Option.some.inj (known'.symm.trans known)⟩

theorem Turn.ping_of_lt (known : d.ready? script = some ready) (late : d.due < ready) : frame = .ping [] ∧ since = d.due := by
  cases turn with
  | ping => exact ⟨rfl, rfl⟩
  | take known' first =>
    rw [Option.some.inj (known'.symm.trans known)] at first
    rcases first with earlier | ⟨same, -⟩
    · exact absurd late (Nat.lt_asymm earlier)
    · exact absurd late (Nat.not_lt.mpr (Nat.le_of_eq same))

theorem Turn.of_tie (tie : d.ready? script = some d.due) :
    since = d.due ∧ frame = if script.pingFirst d.attempts then .ping [] else d.head := by
  cases turn with
  | ping first =>
    have chosen := ((first d.due tie).resolve_left (Nat.lt_irrefl _)).2
    rw [chosen]
    exact ⟨rfl, rfl⟩
  | take known first =>
    have same := Option.some.inj (known.symm.trans tie)
    have chosen := (first.resolve_left (same ▸ Nat.lt_irrefl _)).2
    rw [chosen]
    exact ⟨same, rfl⟩

end Turn

/-- The next write of an idle writer. It is what the queue has, begun at the instant at which that is ready, if this is before
the next ping is due. It is a ping that begins when it is due, if that is before, or if nothing comes to the queue any more.
If both come at the same instant, the script chooses. -/
theorem next_write_of_idle (idle : (steps settings script n).writer.phase = .idle) :
    let d := steps settings script n
    ∃ w, writes settings script (n + 2) = writes settings script n ++ [w] ∧
      (d.ready? script = none → w.frame = .ping [] ∧ w.since = d.due) ∧
      (∀ ready, d.ready? script = some ready →
        (ready < d.due → w.frame = d.head ∧ w.since = ready) ∧ (d.due < ready → w.frame = .ping [] ∧ w.since = d.due)) ∧
      (d.ready? script = some d.due →
        w.since = d.due ∧ w.frame = if script.pingFirst d.attempts then .ping [] else d.head) := by
  intro d
  obtain ⟨w, texts, turn, -, written, -⟩ := next_of_idle idle
  exact ⟨w, written, turn.ping_of_none, fun ready known => ⟨turn.take_of_lt known, turn.ping_of_lt known⟩, turn.of_tie⟩

/-- If the queue is drained, and closed before the next ping is due, the next write is of the close frame, and the writer ends
with it. -/
theorem ends_of_drained (idle : (steps settings script n).writer.phase = .idle)
    (drained : (steps settings script n).texts = []) {time : Instant} (closing : script.closing = some time)
    (soon : max (steps settings script n).now time < (steps settings script n).due) :
    ∃ w, writes settings script (n + 2) = writes settings script n ++ [w] ∧ w.frame = .close ∧
      w.since = max (steps settings script n).now time ∧ (steps settings script (n + 2)).writer.phase = .ended w.till := by
  obtain ⟨w, texts, turn, -, written, after⟩ := next_of_idle idle
  have queued : (steps settings script n).queued? script = some time := by rw [queued?, drained, closing]
  obtain ⟨frame, since⟩ := turn.take_of_lt (ready?_iff.mpr ⟨time, queued, rfl⟩) soon
  have close : w.frame = .close := by rw [frame, head, drained]
  have last : w.isLast = true := Write.isLast_iff.mpr (.inl close)
  refine ⟨w, written, close, since, ?_⟩
  simp [after, afterWrite, last]

/-- A text is written as it comes, a ping when a period has passed after it, and the close frame when the queue is closed. -/
example : writes ⟨512, 60, 54, 10, 256⟩ ⟨[(3, "a")], some 70, fun _ => ⟨1, true⟩, fun _ => false⟩ 6 =
    [⟨.text "a", 3, 4, true⟩, ⟨.ping [], 58, 59, true⟩, ⟨.close, 70, 71, true⟩] := by
  decide

/-- What lets a writer come to the end of its queue: some time between pings, a sink that takes every write in time, and a
choice that does not prefer the ping for ever. -/
structure Fair (settings : Settings) (script : Script) : Prop where
  period : 0 < settings.pingPeriod
  sink : ∀ k, (script.sink k).succeeds = true ∧ (script.sink k).takes ≤ settings.writeWait
  choice : ∀ k, ∃ m, k ≤ m ∧ script.pingFirst m = false

/-- An idle writer has taken from its queue what came next. -/
inductive Takes (d d' : Delivery) : Prop
  | text {time : Instant} {text : String} {rest : List (Instant × String)} (queued : d.texts = (time, text) :: rest)
      (idle : d'.writer.phase = .idle) (left : d'.texts = rest)
  | close (empty : d.texts = []) (ended : d'.writer.hasEnded = true)

/-- What has become of an idle writer when its next write is over. -/
inductive Proceeds (settings : Settings) (script : Script) (d d' : Delivery) : Prop
  | pinged (idle : d'.writer.phase = .idle) (texts : d'.texts = d.texts) (attempts : d'.attempts = d.attempts + 1)
      (tick : d.writer.tick + settings.pingPeriod ≤ d'.writer.tick)
      (first : ∀ time, d.queued? script = some time → d.writer.tick < time ∨ script.pingFirst d.attempts = true)
  | took (takes : Takes d d')

theorem Takes.of_texts {d₀ d d' : Delivery} (takes : Takes d d') (same : d.texts = d₀.texts) : Takes d₀ d' := by
  cases takes with
  | text queued idle left => exact .text (same.symm.trans queued) idle left
  | close empty ended => exact .close (same.symm.trans empty) ended

theorem queued?_of_texts {d₀ d : Delivery} (same : d.texts = d₀.texts) : d.queued? script = d₀.queued? script := by
  rw [queued?, queued?, same]

section AfterWrite
variable {d : Delivery} {texts : List (Instant × String)} {w : Write}

theorem idle_afterWrite (other : w.frame ≠ .close) (completed : w.completed = true) :
    (d.afterWrite settings texts w).writer.phase = .idle := by
  have more : w.isLast = false := Write.isLast_eq_false_iff.mpr ⟨other, completed⟩
  simp [afterWrite, more]

/-- A ping puts the next one off by a period at least. -/
theorem tick_afterWrite_of_ping (ping : w.frame = .heartbeat) (due : d.writer.tick ≤ w.since) :
    d.writer.tick + settings.pingPeriod ≤ (d.afterWrite settings texts w).writer.tick := by
  have textless : w.text? = none := by
    rw [Write.text?, ping]
    rfl
  have put : (d.afterWrite settings texts w).writer.tick = Writer.tickAfter settings.pingPeriod d.writer.tick w.since := by
    simp [afterWrite, tickEnded, textless, ping, tickBegun_heartbeat]
  rw [put, Writer.tickAfter]
  split
  · exact Nat.add_le_add_right due _
  · exact Nat.le_refl _

/-- What is ready after a ping is due has been queued after it was due. -/
theorem tick_lt_of_due_lt {time : Instant} (later : d.due < max d.now time) : d.writer.tick < time := by
  refine Nat.lt_of_not_le fun soon => Nat.not_le.mpr later ?_
  exact Nat.max_le.mpr ⟨Nat.le_max_left _ _, Nat.le_trans soon (Nat.le_max_right _ _)⟩

end AfterWrite

section Fair
variable (fair : Fair settings script)
include fair

theorem Fair.proceeds (idle : (steps settings script n).writer.phase = .idle) :
    Proceeds settings script (steps settings script n) (steps settings script (n + 2)) := by
  obtain ⟨w, texts, turn, comes, -, after⟩ := next_of_idle idle
  have completed : w.completed = true := comes.completed.mpr (fair.sink _)
  rw [after]
  have due := turn.tick_le
  generalize frame : w.frame = written at turn
  generalize w.since = since at turn
  cases turn with
  | ping first =>
    have unclosed : w.frame ≠ .close := fun same => by cases frame.symm.trans same
    refine .pinged (idle_afterWrite unclosed completed) rfl rfl (tick_afterWrite_of_ping frame (due frame)) ?_
    intro time queued
    rcases first _ (ready?_iff.mpr ⟨time, queued, rfl⟩) with later | ⟨-, chosen⟩
    · exact .inl (tick_lt_of_due_lt later)
    · exact .inr chosen
  | take known first =>
    rcases left : (steps settings script n).texts with _ | ⟨⟨time, text⟩, rest⟩
    · have close : w.frame = .close := by rw [frame, head, left]
      refine .took (.close left ?_)
      simp [afterWrite, Write.isLast, close, Writer.hasEnded]
    · have unclosed : w.frame ≠ .close := by
        rw [frame, head, left]
        exact fun same => by cases same
      exact .took (.text left (idle_afterWrite unclosed completed) rfl)

/-- What the queue has is taken, or else so many pings are written, each of which puts the next one off. -/
theorem Fair.takes_or_pings (idle : (steps settings script n).writer.phase = .idle) (j : Nat) :
    (∃ m, Takes (steps settings script n) (steps settings script m)) ∨
      let d := steps settings script (n + 2 * j)
      d.writer.phase = .idle ∧ d.texts = (steps settings script n).texts ∧
        d.attempts = (steps settings script n).attempts + j ∧ j ≤ d.writer.tick := by
  induction j with
  | zero => exact .inr ⟨idle, rfl, rfl, Nat.zero_le _⟩
  | succ j ih =>
    rcases ih with taken | ⟨idle', texts, attempts, tick⟩
    · exact .inl taken
    cases fair.proceeds idle' with
    | took takes => exact .inl ⟨_, takes.of_texts texts⟩
    | pinged still same next later =>
      refine .inr ⟨still, same.trans texts, ?_, ?_⟩
      · exact next.trans (congrArg (· + 1) attempts)
      · exact Nat.le_trans (Nat.add_le_add tick fair.period) later

/-- What the queue has is taken in the end. -/
theorem Fair.exists_takes (idle : (steps settings script n).writer.phase = .idle) {time : Instant}
    (queued : (steps settings script n).queued? script = some time) :
    ∃ m, Takes (steps settings script n) (steps settings script m) := by
  -- After so many pings the next one is due when what the queue has is ready, and it is not chosen.
  obtain ⟨k, late, unchosen⟩ := fair.choice ((steps settings script n).attempts + time)
  obtain ⟨j, rfl⟩ := Nat.exists_eq_add_of_le (Nat.le_of_add_right_le late)
  have past : time ≤ j := Nat.le_of_add_le_add_left late
  rcases fair.takes_or_pings idle j with taken | ⟨idle', texts, attempts, tick⟩
  · exact taken
  cases fair.proceeds idle' with
  | took takes => exact ⟨_, takes.of_texts texts⟩
  | pinged _ _ _ _ first =>
    rw [← queued?_of_texts texts] at queued
    rcases first time queued with before | chosen
    · exact absurd before (Nat.not_lt.mpr (Nat.le_trans past tick))
    · rw [attempts, unchosen] at chosen
      cases chosen

theorem Fair.exists_emptied (idle : (steps settings script n).writer.phase = .idle) :
    ∃ m, (steps settings script m).writer.phase = .idle ∧ (steps settings script m).texts = [] := by
  generalize left : (steps settings script n).texts = texts
  induction texts generalizing n with
  | nil => exact ⟨n, idle, left⟩
  | cons first rest ih =>
    have queued : (steps settings script n).queued? script = some first.1 := by rw [queued?, left]
    obtain ⟨m, takes⟩ := fair.exists_takes idle queued
    cases takes with
    | text texts idle' left' =>
      rw [left] at texts
      cases texts
      exact ih idle' left'
    | close empty =>
      rw [left] at empty
      cases empty

/-- With a fair choice and a sink that does not fail, a writer writes all texts of its queue. -/
theorem Fair.writes_all_texts : ∃ n, (writes settings script n).filterMap (·.text?) = script.texts.map (·.2) := by
  obtain ⟨n, idle, empty⟩ := fair.exists_emptied (show (steps settings script 0).writer.phase = .idle from rfl)
  have served := (wrote_steps settings script n).served.texts_eq
  rw [empty, List.map_nil, List.append_nil, begun, writing?, idle, Option.toList_none, List.append_nil,
    List.filterMap_map] at served
  exact ⟨n, served.symm⟩

/-- If its queue is closed besides, it ends with the close frame behind them. -/
theorem Fair.ends_with_close {time : Instant} (closing : script.closing = some time) : ∃ n before w,
    writes settings script n = before ++ [w] ∧ before.filterMap (·.text?) = script.texts.map (·.2) ∧ w.frame = .close ∧
      w.completed = true ∧ (steps settings script n).writer.phase = .ended w.till := by
  obtain ⟨m, idle, empty⟩ := fair.exists_emptied (show (steps settings script 0).writer.phase = .idle from rfl)
  have queued : (steps settings script m).queued? script = some time := by rw [queued?, empty, closing]
  obtain ⟨n, takes⟩ := fair.exists_takes idle queued
  cases takes with
  | text texts =>
    rw [empty] at texts
    cases texts
  | close _ ended =>
    have wrote := wrote_steps settings script n
    obtain ⟨before, w, split, last, phase⟩ := wrote.last_of_ended ended
    have completed : w.completed = true :=
      wrote.completed fair.sink (split ▸ List.mem_append_right _ List.mem_cons_self)
    have close : w.frame = .close := (Write.isLast_iff.mp last).resolve_right (by simp [completed])
    obtain ⟨-, -, all, -⟩ := wrote.closed split close
    exact ⟨n, before, w, split, all, close, completed, phase⟩

end Fair

end HelpDesk.Delivery
