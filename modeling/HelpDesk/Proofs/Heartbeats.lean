import HelpDesk.Proofs.WrittenFrames

/-! When a writer writes. A write begins a period after the one before it at the latest, since a ping is due then; and
no ping begins before a period has passed without a text. -/

namespace HelpDesk.Delivery

/-- Since when nothing has been written: the end of the last write, or the start. -/
def restsSince (ws : List Write) : Instant :=
  (ws.getLast?.map (·.till)).getD 0

theorem restsSince_snoc (ws : List Write) (w : Write) : restsSince (ws ++ [w]) = w.till := by
  simp [restsSince]

/-- A write of the frame may begin at the instant, when these are over. -/
structure Paced (settings : Settings) (before : List Write) (frame : SocketFrame) (since : Instant) : Prop where
  later : restsSince before ≤ since
  prompt : since ≤ restsSince before + settings.pingPeriod
  ping : frame = .heartbeat → settings.pingPeriod ≤ since ∧
    ∀ v ∈ before, v.text?.isSome → v.completed = true → v.till + settings.pingPeriod ≤ since

/-- When the next ping of a writer is due, seen from the writes that are over. -/
structure Ticks (settings : Settings) (d : Delivery) (ws : List Write) : Prop where
  first : settings.pingPeriod ≤ d.writer.tick
  texts : ∀ v ∈ ws, v.text?.isSome → v.completed = true → v.till + settings.pingPeriod ≤ d.writer.tick
  paced : ∀ before w later, ws = before ++ w :: later → Paced settings before w.frame w.since
  idle : d.writer.phase = .idle → d.now = restsSince ws ∧ d.writer.tick ≤ restsSince ws + settings.pingPeriod
  writing : ∀ frame since, d.writer.phase = .writing frame since →
    Paced settings ws frame since ∧ d.writer.tick ≤ since + settings.pingPeriod

variable {settings : Settings} {script : Script} {d d' : Delivery} {ws : List Write}

/-- A ping that is due puts the next one off, but by no more than a period. -/
theorem tickBegun_bounds (settings : Settings) {tick since : Instant} {frame : SocketFrame}
    (due : frame = .heartbeat → tick ≤ since) :
    tick ≤ tickBegun settings tick frame since ∧
      tickBegun settings tick frame since ≤ max tick (since + settings.pingPeriod) := by
  by_cases ping : frame = .heartbeat
  · subst ping
    have due := due rfl
    rw [tickBegun_heartbeat, Writer.tickAfter]
    unfold Instant at *
    split <;> omega
  · rw [tickBegun_of_ne _ _ _ ping]
    exact ⟨Nat.le_refl _, Nat.le_max_left _ _⟩

theorem tickEnded_of_text {tick : Instant} {w : Write} (text : w.text?.isSome) (completed : w.completed = true) :
    tickEnded settings tick w = w.till + settings.pingPeriod := by
  simp [tickEnded, text, completed]

/-- A text puts the next ping off to a period from its end. -/
theorem tickEnded_bounds {tick : Instant} {w : Write} (due : tick ≤ w.till + settings.pingPeriod) :
    tick ≤ tickEnded settings tick w ∧ tickEnded settings tick w ≤ w.till + settings.pingPeriod := by
  unfold tickEnded
  split
  · exact ⟨due, Nat.le_refl _⟩
  · exact ⟨Nat.le_refl _, due⟩

theorem Ticks.start (settings : Settings) (script : Script) : Ticks settings (start settings script) [] := by
  refine ⟨?_, List.forall_mem_nil _, ?_, ?_, ?_⟩
  · exact Nat.le_add_left _ _
  · intro before w later split
    simp at split
  · intro _
    exact ⟨rfl, Nat.le_refl _⟩
  · intro frame since writing
    cases writing

theorem Ticks.next {w : Option Write} (ticks : Ticks settings d ws) (does : Does settings script d d' w) :
    Ticks settings d' (ws ++ w.toList) := by
  obtain ⟨first, texts, paced, idle, writing⟩ := ticks
  cases does with
  | rests ended => simpa using ⟨first, texts, paced, idle, writing⟩
  | @begins frame since rest waits turn =>
    obtain ⟨now, tick⟩ := idle waits
    have later := turn.later
    have prompt := turn.prompt
    obtain ⟨lower, upper⟩ := tickBegun_bounds settings turn.tick_le
    rw [Option.toList_none, List.append_nil]
    refine ⟨Nat.le_trans first lower, ?_, paced, ?_, ?_⟩
    · exact fun v there text completed => Nat.le_trans (texts v there text completed) lower
    · intro same
      cases same
    · intro frame' since' same
      cases same
      rw [due, now] at prompt
      rw [now] at later
      refine ⟨⟨later, ?_, fun ping => ?_⟩, ?_⟩
      · exact Nat.le_trans prompt (Nat.max_le.mpr ⟨Nat.le_add_right _ _, tick⟩)
      · exact ⟨Nat.le_trans first (turn.tick_le ping), fun v there text completed =>
          Nat.le_trans (texts v there text completed) (turn.tick_le ping)⟩
      · have late : restsSince ws + settings.pingPeriod ≤ since + settings.pingPeriod := Nat.add_le_add_right later _
        exact Nat.le_trans upper (Nat.max_le.mpr ⟨Nat.le_trans tick late, Nat.le_refl _⟩)
  | @ends w goes comes =>
    obtain ⟨pace, tick⟩ := writing _ _ goes
    have lasts : w.since ≤ w.till := by
      rw [comes.till]
      exact Nat.le_add_right _ _
    obtain ⟨lower, upper⟩ := tickEnded_bounds (Nat.le_trans tick (Nat.add_le_add_right lasts settings.pingPeriod))
    rw [Option.toList_some]
    refine ⟨Nat.le_trans first lower, ?_, ?_, ?_, ?_⟩
    · intro v there text completed
      rcases List.mem_append.mp there with there | there
      · exact Nat.le_trans (texts v there text completed) lower
      · rw [List.mem_singleton.mp there] at text completed ⊢
        exact Nat.le_of_eq (tickEnded_of_text text completed).symm
    · intro before v later split
      rcases split_snoc split with ⟨rfl, rfl, rfl⟩ | ⟨rest, rfl, earlier⟩
      · exact pace
      · exact paced before v rest earlier
    · intro _
      rw [restsSince_snoc]
      exact ⟨rfl, upper⟩
    · intro frame since same
      dsimp only at same
      split at same <;> cases same

theorem ticks_steps (settings : Settings) (script : Script) (n : Nat) :
    Ticks settings (steps settings script n) (writes settings script n) := by
  induction n with
  | zero => exact .start settings script
  | succ n ih => exact ih.next (does_step settings script (steps settings script n))

theorem Does.of_idle {w : Option Write} (does : Does settings script d d' w) (idle : d.writer.phase = .idle) :
    w = none ∧ ∃ frame since texts, Turn script d frame since texts ∧
      d' = ⟨since, ⟨tickBegun settings d.writer.tick frame since, .writing frame since⟩, texts, d.attempts, d.log⟩ := by
  cases does with
  | begins _ turn => exact ⟨rfl, _, _, _, turn, rfl⟩
  | ends writing => cases idle.symm.trans writing
  | rests ended => cases idle.symm.trans ended

theorem Does.of_writing {w : Option Write} {frame : SocketFrame} {since : Instant} (does : Does settings script d d' w)
    (writing : d.writer.phase = .writing frame since) : ∃ v, w = some v ∧ v.frame = frame ∧ v.since = since ∧
      v.ComesOf settings (script.sink d.attempts) ∧
      d' = ⟨v.till, ⟨tickEnded settings d.writer.tick v, if v.isLast then .ended v.till else .idle⟩, d.texts,
        d.attempts + 1, if v.completed then (v.till, v.frame) :: d.log else d.log⟩ := by
  cases does with
  | begins idle => cases writing.symm.trans idle
  | rests ended => cases writing.symm.trans ended
  | @ends v goes comes =>
    cases writing.symm.trans goes
    exact ⟨v, rfl, rfl, rfl, comes, rfl⟩

theorem Does.nothing {w : Option Write} (does : Does settings script d d' w)
    (still : ∀ frame since, d.writer.phase ≠ .writing frame since) : w = none := by
  cases does with
  | begins | rests => rfl
  | ends writing => exact absurd writing (still _ _)

/-- With nothing in the queue, and the queue not closed, only a ping is begun. -/
theorem Begins.ping_of_quiet {since : Instant} {frame : SocketFrame} {texts rest : List (Instant × String)}
    (begins : Begins script since texts frame rest)
    (unqueued : ∀ time text rest, texts = (time, text) :: rest → since < time)
    (unclosed : texts = [] → ∀ time, script.closing = some time → since < time) : frame = .heartbeat := by
  cases begins with
  | ping => rfl
  | text queued => exact absurd queued (Nat.not_le.mpr (unqueued _ _ _ rfl))
  | close closing closed => exact absurd closed (Nat.not_le.mpr (unclosed rfl _ closing))

section Next
variable {n : Nat}

theorem writes_succ (settings : Settings) (script : Script) (n : Nat) : ∃ w,
    Does settings script (steps settings script n) (steps settings script (n + 1)) w ∧
      writes settings script (n + 1) = writes settings script n ++ w.toList :=
  ⟨_, does_step settings script (steps settings script n), rfl⟩

/-- What becomes of an idle writer with its next write, when these texts are left in its queue. -/
def afterWrite (d : Delivery) (settings : Settings) (texts : List (Instant × String)) (w : Write) : Delivery where
  now := w.till
  writer :=
    ⟨tickEnded settings (tickBegun settings d.writer.tick w.frame w.since) w, if w.isLast then .ended w.till else .idle⟩
  texts
  attempts := d.attempts + 1
  log := if w.completed then (w.till, w.frame) :: d.log else d.log

/-- An idle writer begins to write with the next step, and the write is over with the one after it. -/
theorem next_of_idle (idle : (steps settings script n).writer.phase = .idle) :
    ∃ w texts, Turn script (steps settings script n) w.frame w.since texts ∧
      w.ComesOf settings (script.sink (steps settings script n).attempts) ∧
      writes settings script (n + 2) = writes settings script n ++ [w] ∧
      steps settings script (n + 2) = (steps settings script n).afterWrite settings texts w := by
  obtain ⟨first, does, begun⟩ := writes_succ settings script n
  obtain ⟨second, ends, written⟩ := writes_succ settings script (n + 1)
  obtain ⟨rfl, frame, since, texts, turn, writing⟩ := does.of_idle idle
  rw [writing] at ends
  obtain ⟨w, rfl, rfl, rfl, comes, after⟩ := ends.of_writing rfl
  refine ⟨w, texts, turn, comes, ?_, after⟩
  rw [written, begun, Option.toList_none, List.append_nil, Option.toList_some]

/-- A writer that goes on is two steps from the end of its next write at most. -/
theorem exists_next (going : (steps settings script n).writer.hasEnded = false) :
    ∃ w, writes settings script (n + 2) = writes settings script n ++ [w] := by
  cases phase : (steps settings script n).writer.phase with
  | idle =>
    obtain ⟨w, -, -, -, written, -⟩ := next_of_idle phase
    exact ⟨w, written⟩
  | ended when => simp [Writer.hasEnded, phase] at going
  | writing frame since =>
    obtain ⟨first, does, written⟩ := writes_succ settings script n
    obtain ⟨second, rests, same⟩ := writes_succ settings script (n + 1)
    obtain ⟨w, rfl, -, -, -, after⟩ := does.of_writing phase
    have still (frame : SocketFrame) (since : Instant) :
        (steps settings script (n + 1)).writer.phase ≠ .writing frame since := by
      rw [after]
      dsimp only
      split <;> simp
    cases rests.nothing still
    exact ⟨w, by rw [same, written, Option.toList_none, List.append_nil, Option.toList_some]⟩

end Next

/-- A write is over a period, and the longest time of a write, after the one before it at the latest. -/
theorem till_le {n : Nat} {before later : List Write} {w : Write}
    (split : writes settings script n = before ++ w :: later) :
    w.till ≤ restsSince before + (settings.pingPeriod + settings.writeWait) := by
  have pace := (ticks_steps settings script n).paced before w later split
  have comes := (wrote_steps settings script n).outcomes before.length w (by simp [split])
  calc w.till = w.since + min (script.sink before.length).takes settings.writeWait := comes.till
    _ ≤ restsSince before + settings.pingPeriod + settings.writeWait :=
      Nat.add_le_add pace.prompt (Nat.min_le_right _ _)
    _ = restsSince before + (settings.pingPeriod + settings.writeWait) := Nat.add_assoc _ _ _

theorem ended_of_uncompleted {n : Nat} {before later : List Write} {w : Write}
    (split : writes settings script n = before ++ w :: later) (uncompleted : w.completed = false) :
    (steps settings script n).writer.phase = .ended w.till := by
  have reached := (wrote_steps settings script n).reached
  rw [split] at reached
  exact (reached.stops (Write.isLast_iff.mpr (.inr uncompleted))).2.1

/-- A write that would take too long is the last one, and ends with the writer when its time is over. -/
theorem ended_of_late {n k : Nat} {w : Write} (found : (writes settings script n)[k]? = some w)
    (late : settings.writeWait < (script.sink k).takes) :
    w.completed = false ∧ (steps settings script n).writer.phase = .ended (w.since + settings.writeWait) := by
  have comes := (wrote_steps settings script n).outcomes k w found
  have uncompleted : w.completed = false := by
    cases completed : w.completed with
    | false => rfl
    | true => exact absurd (comes.completed.mp completed).2 (Nat.not_le.mpr late)
  obtain ⟨before, later, split⟩ := List.append_of_mem (List.mem_of_getElem? found)
  have ended := ended_of_uncompleted split uncompleted
  rw [comes.till, Nat.min_eq_right (Nat.le_of_lt late)] at ended
  exact ⟨uncompleted, ended⟩

/-- Whatever comes to its queue and whatever its sink does: a writer begins no ping before a period has passed from the
start, and from the end of each text that it has written. As long as it has not ended, there is a next write, which is over
a period and the longest time of a write after the one before it, or after the start, at the latest, and either comes to
its end or ends the writer; and it is a ping if nothing comes to the queue within that period. No write that comes to its
end takes longer than it may; one that would take longer ends, and the writer with it, when that time has passed. -/
theorem heartbeat_bounds (settings : Settings) (script : Script) (n : Nat) :
    let d := steps settings script n
    let ws := writes settings script n
    (∀ before w later, ws = before ++ w :: later → w.frame = .ping [] → settings.pingPeriod ≤ w.since ∧
      ∀ v ∈ before, v.text?.isSome → v.completed = true → v.till + settings.pingPeriod ≤ w.since) ∧
    (d.writer.hasEnded = false → ∃ w, writes settings script (n + 2) = ws ++ [w] ∧ restsSince ws ≤ w.since ∧
      w.till ≤ restsSince ws + (settings.pingPeriod + settings.writeWait) ∧
      (w.completed = true ∨ (steps settings script (n + 2)).writer.phase = .ended w.till)) ∧
    (d.writer.phase = .idle →
      (∀ time text rest, d.texts = (time, text) :: rest → restsSince ws + settings.pingPeriod < time) →
      (d.texts = [] → ∀ time, script.closing = some time → restsSince ws + settings.pingPeriod < time) →
      ∃ w, writes settings script (n + 2) = ws ++ [w] ∧ w.frame = .ping [] ∧
        w.till ≤ restsSince ws + (settings.pingPeriod + settings.writeWait)) ∧
    (∀ (k : Nat) (w : Write), ws[k]? = some w →
      (w.completed = true → w.till ≤ w.since + settings.writeWait) ∧
      (settings.writeWait < (script.sink k).takes →
        w.completed = false ∧ d.writer.phase = .ended (w.since + settings.writeWait))) := by
  intro d ws
  have ticks : Ticks settings d ws := ticks_steps settings script n
  have wrote : Wrote settings script d ws := wrote_steps settings script n
  refine ⟨fun before w later split => (ticks.paced before w later split).ping, fun going => ?_,
    fun idle unqueued unclosed => ?_, fun k w found => ⟨fun completed => ?_, ended_of_late found⟩⟩
  · obtain ⟨w, written⟩ := exists_next going
    have later := ((ticks_steps settings script (n + 2)).paced ws w [] written).later
    refine ⟨w, written, later, till_le written, ?_⟩
    cases completed : w.completed with
    | true => exact .inl rfl
    | false => exact .inr (ended_of_uncompleted written completed)
  · obtain ⟨w, texts, turn, -, written, -⟩ := next_of_idle idle
    obtain ⟨now, tick⟩ := ticks.idle idle
    have soon : w.since ≤ restsSince ws + settings.pingPeriod :=
      Nat.le_trans turn.prompt (Nat.max_le.mpr ⟨now ▸ Nat.le_add_right _ _, tick⟩)
    refine ⟨w, written, turn.begins.ping_of_quiet ?_ ?_, till_le written⟩
    · exact fun time text rest next => Nat.lt_of_le_of_lt soon (unqueued time text rest next)
    · exact fun none time closing => Nat.lt_of_le_of_lt soon (unclosed none time closing)
  · rw [(wrote.outcomes k w found).till]
    exact Nat.add_le_add_left (Nat.min_le_right _ _) _

end HelpDesk.Delivery
