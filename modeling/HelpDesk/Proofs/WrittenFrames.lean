import HelpDesk.Proofs.WriterSteps
import Mathlib.Data.List.Forall2

/-! What a writer writes to its socket. Its texts are the first ones of its queue, in order; between them there are pings, and
behind all of them the close frame, if the queue was closed. The first write that does not come to its end, or is of the
close frame, is its last. -/

namespace HelpDesk.Delivery
variable {settings : Settings} {script : Script} {d d' : Delivery}

/-- The write that is going on, and since when. -/
def writing? (d : Delivery) : Option (Instant × SocketFrame) :=
  match d.writer.phase with
  | .writing frame since => some (since, frame)
  | .idle | .ended _ => none

/-- The writes that have begun, in order: those that are over, and the one that is going on. -/
def begun (d : Delivery) (ws : List Write) : List (Instant × SocketFrame) :=
  ws.map (fun w => (w.since, w.frame)) ++ d.writing?.toList

theorem length_begun_le (d : Delivery) (ws : List Write) : (d.begun ws).length ≤ ws.length + 1 := by
  rw [begun, List.length_append, List.length_map]
  exact Nat.add_le_add_left Option.length_toList_le _

/-- These writes have begun, one after the other, and these texts are left in the queue. -/
inductive Served (script : Script) : List (Instant × SocketFrame) → List (Instant × String) → Prop
  | start : Served script [] script.texts
  | next {begun : List (Instant × SocketFrame)} {since : Instant} {frame : SocketFrame} {texts rest : List (Instant × String)}
      (served : Served script begun texts) (begins : Begins script since texts frame rest) :
      Served script (begun ++ [(since, frame)]) rest

section Served
variable {begun before : List (Instant × SocketFrame)} {texts rest : List (Instant × String)} {since : Instant}
  {frame : SocketFrame}

theorem Served.of_snoc (served : Served script (before ++ [(since, frame)]) rest) :
    ∃ texts, Served script before texts ∧ Begins script since texts frame rest := by
  generalize whole : before ++ [(since, frame)] = begun at served
  cases served with
  | start => simp at whole
  | next served begins =>
    obtain ⟨rfl, last⟩ := List.append_inj' whole rfl
    cases last
    exact ⟨_, served, begins⟩

/-- The texts that have been taken from the queue are its first ones, and each was queued when it was taken. -/
theorem Served.taken (served : Served script begun texts) : ∃ taken, script.texts = taken ++ texts ∧
    List.Forall₂ (fun entry write => write.2 = .text entry.2 ∧ entry.1 ≤ write.1) taken
      (begun.filter (·.2.text?.isSome)) := by
  induction served with
  | start => exact ⟨[], rfl, .nil⟩
  | next served begins ih =>
    obtain ⟨taken, split, all⟩ := ih
    rw [List.filter_append]
    cases begins with
    | ping | close => exact ⟨taken, split, by simpa [SocketFrame.text?, SocketFrame.heartbeat] using all⟩
    | @text time text rest queued =>
      refine ⟨taken ++ [(time, text)], by simpa using split, List.rel_append all (.cons ⟨rfl, queued⟩ .nil)⟩

theorem Served.texts_eq (served : Served script begun texts) :
    script.texts.map (·.2) = begun.filterMap (·.2.text?) ++ texts.map (·.2) := by
  induction served with
  | start => rfl
  | next served begins ih =>
    rw [ih, List.filterMap_append, List.append_assoc]
    cases begins <;> rfl

theorem Served.kinds (served : Served script begun texts) {write : Instant × SocketFrame} (there : write ∈ begun) :
    write.2.text?.isSome ∨ write.2 = .ping [] ∨ write.2 = .close := by
  induction served with
  | start => cases there
  | next served begins ih =>
    rcases List.mem_append.mp there with there | there
    · exact ih there
    · rw [List.mem_singleton.mp there]
      cases begins with
      | ping => exact .inr (.inl rfl)
      | text => exact .inl rfl
      | close => exact .inr (.inr rfl)

end Served

/-- How far the writer has come: it goes on, or the last of its writes was the last that there is. -/
inductive Reached : Writer.Phase → List Write → Prop
  | going {phase : Writer.Phase} {ws : List Write} (going : ∀ when, phase ≠ .ended when)
      (more : ∀ w ∈ ws, w.isLast = false) : Reached phase ws
  | stopped {before : List Write} {w : Write} (more : ∀ v ∈ before, v.isLast = false) (last : w.isLast = true) :
      Reached (.ended w.till) (before ++ [w])

/-- What the writes that are over tell of a writer at work. -/
structure Wrote (settings : Settings) (script : Script) (d : Delivery) (ws : List Write) : Prop where
  attempts : d.attempts = ws.length
  log : d.log.reverse = (ws.filter (·.completed)).map fun w => (w.till, w.frame)
  outcomes : ∀ (k : Nat) (w : Write), ws[k]? = some w → w.ComesOf settings (script.sink k)
  served : Served script (d.begun ws) d.texts
  reached : Reached d.writer.phase ws

theorem Wrote.start (settings : Settings) (script : Script) : Wrote settings script (start settings script) [] := by
  refine ⟨rfl, rfl, ?_, .start, .going ?_ (List.forall_mem_nil _)⟩
  · intro k w found
    cases found
  · intro when same
    cases same

theorem Wrote.next {ws : List Write} {w : Option Write} (wrote : Wrote settings script d ws)
    (does : Does settings script d d' w) : Wrote settings script d' (ws ++ w.toList) := by
  obtain ⟨attempts, log, outcomes, served, reached⟩ := wrote
  cases does with
  | rests ended => simpa using ⟨attempts, log, outcomes, served, reached⟩
  | @begins frame since texts idle turn =>
    have more : ∀ w ∈ ws, w.isLast = false := by
      rw [idle] at reached
      cases reached with
      | going going more => exact more
    have before : d.begun ws = ws.map fun w => (w.since, w.frame) := by simp [begun, writing?, idle]
    rw [before] at served
    rw [Option.toList_none, List.append_nil]
    exact ⟨attempts, log, outcomes, served.next turn.begins, .going (fun when same => by cases same) more⟩
  | @ends w writing comes =>
    have more : ∀ w ∈ ws, w.isLast = false := by
      rw [writing] at reached
      cases reached with
      | going going more => exact more
    have before : d.begun ws = (ws ++ [w]).map fun w => (w.since, w.frame) := by simp [begun, writing?, writing]
    rw [before] at served
    rw [Option.toList_some]
    refine ⟨by simp [attempts], ?_, ?_, ?_, ?_⟩
    · rw [List.filter_append, List.map_append, ← log]
      cases completed : w.completed <;> simp [completed]
    · intro k v found
      rw [List.getElem?_append] at found
      split at found
      · exact outcomes k v found
      · next past =>
        rw [attempts] at comes
        obtain ⟨bound, same⟩ := List.getElem?_eq_some_iff.mp found
        rw [List.length_singleton] at bound
        have last : k = ws.length := by omega
        subst last
        simpa [← same] using comes
    · have after (phase : Writer.Phase) (still : ∀ frame since, phase ≠ .writing frame since)
          (tick now : Instant) (log : List (Instant × SocketFrame)) :
          begun ⟨now, ⟨tick, phase⟩, d.texts, d.attempts + 1, log⟩ (ws ++ [w]) =
            (ws ++ [w]).map fun w => (w.since, w.frame) := by
        cases phase with
        | writing frame since => exact absurd rfl (still frame since)
        | idle | ended => simp [begun, writing?]
      rw [after _ (by split <;> simp)]
      exact served
    · cases last : w.isLast with
      | true => simpa using Reached.stopped more last
      | false =>
        refine .going (by simp) fun v there => ?_
        rcases List.mem_append.mp there with there | there
        · exact more v there
        · rwa [List.mem_singleton.mp there]

theorem wrote_steps (settings : Settings) (script : Script) (n : Nat) :
    Wrote settings script (steps settings script n) (writes settings script n) := by
  induction n with
  | zero => exact .start settings script
  | succ n ih => exact ih.next (does_step settings script (steps settings script n))

theorem Does.length_begun {w : Option Write} (does : Does settings script d d' w) (ws : List Write)
    (going : d'.writer.hasEnded = false) : d.writer.hasEnded = false ∧
      (ws ++ w.toList).length + (d'.begun (ws ++ w.toList)).length = ws.length + (d.begun ws).length + 1 := by
  cases does with
  | rests ended => simp [Writer.hasEnded, ended] at going
  | begins idle => simp [Writer.hasEnded, begun, writing?, idle, Nat.add_assoc]
  | @ends w writing =>
    cases last : w.isLast with
    | true => simp [Writer.hasEnded, last] at going
    | false =>
      simp only [Writer.hasEnded, begun, writing?, writing, Bool.false_eq_true, if_false, Option.toList_some,
        Option.toList_none, List.length_append, List.length_map, List.length_singleton, List.length_nil, true_and]
      omega

/-- A writer that goes on ends a write with every other step. -/
theorem length_begun (settings : Settings) (script : Script) (n : Nat)
    (going : (steps settings script n).writer.hasEnded = false) :
    (writes settings script n).length + ((steps settings script n).begun (writes settings script n)).length = n := by
  induction n with
  | zero => rfl
  | succ n ih =>
    obtain ⟨went, grown⟩ := (does_step settings script (steps settings script n)).length_begun
      (writes settings script n) going
    rw [ih went] at grown
    exact grown

/-- A part of a list and one more: the part that is split off ends where the list does, or before. -/
theorem split_snoc {α : Type} {list before later : List α} {last x : α} (split : list ++ [last] = before ++ x :: later) :
    (later = [] ∧ before = list ∧ x = last) ∨ ∃ rest, later = rest ++ [last] ∧ list = before ++ x :: rest := by
  rcases List.eq_nil_or_concat' later with rfl | ⟨rest, y, rfl⟩
  · obtain ⟨rfl, same⟩ := List.append_inj' split rfl
    cases same
    exact .inl ⟨rfl, rfl, rfl⟩
  · have split' : list ++ [last] = (before ++ x :: rest) ++ [y] := by simpa using split
    obtain ⟨rfl, same⟩ := List.append_inj' split' rfl
    cases same
    exact .inr ⟨rest, rfl, rfl⟩

section Reached
variable {phase : Writer.Phase} {before later ws : List Write} {w : Write}

theorem Reached.stops (reached : Reached phase (before ++ w :: later)) (last : w.isLast = true) :
    later = [] ∧ phase = .ended w.till ∧ ∀ v ∈ before, v.isLast = false := by
  generalize whole : before ++ w :: later = ws at reached
  have goes {list rest : List Write} (more : ∀ v ∈ list, v.isLast = false) : list ≠ before ++ w :: rest := by
    rintro rfl
    have goes := more w (List.mem_append_right _ List.mem_cons_self)
    exact absurd (last.symm.trans goes) (by decide)
  cases reached with
  | going going more => exact absurd whole.symm (goes more)
  | stopped more =>
    rcases split_snoc whole.symm with ⟨rfl, rfl, rfl⟩ | ⟨rest, -, earlier⟩
    · exact ⟨rfl, rfl, more⟩
    · exact absurd earlier (goes more)

theorem Reached.ended_iff (reached : Reached phase ws) (when : Instant) :
    phase = .ended when ↔ ∃ before w, ws = before ++ [w] ∧ w.isLast = true ∧ w.till = when := by
  constructor
  · rintro rfl
    cases reached with
    | going going => exact absurd rfl (going when)
    | @stopped before w more last => exact ⟨before, w, rfl, last, rfl⟩
  · rintro ⟨before, w, rfl, last, rfl⟩
    exact (reached.stops last).2.1

/-- All writes but the last one have come to their end. -/
theorem Reached.filter_completed (reached : Reached phase ws) : ws.filter (·.completed) <+: ws := by
  have completed {list : List Write} (more : ∀ w ∈ list, w.isLast = false) : list.filter (·.completed) = list :=
    List.filter_eq_self.mpr fun w there => (Write.isLast_eq_false_iff.mp (more w there)).2
  cases reached with
  | going going more => exact ⟨[], by rw [completed more, List.append_nil]⟩
  | @stopped before w more last =>
    rw [List.filter_append, completed more]
    refine (List.prefix_append_right_inj before).mpr ?_
    cases done : w.completed with
    | true => exact ⟨[], by simp [done]⟩
    | false => exact ⟨[w], by simp [done]⟩

end Reached

namespace Wrote
variable {ws : List Write} (wrote : Wrote settings script d ws)
include wrote

/-- The texts that are written are the first ones of the queue, each begun when it was queued. -/
theorem taken : ∃ taken, taken <+: script.texts ∧
    List.Forall₂ (fun entry w => w.frame = .text entry.2 ∧ entry.1 ≤ w.since) taken (ws.filter (·.text?.isSome)) := by
  obtain ⟨taken, split, all⟩ := wrote.served.taken
  rw [begun, List.filter_append, List.filter_map] at all
  have first := List.forall₂_take_append _ _ _ all
  rw [List.forall₂_map_right_iff] at first
  exact ⟨_, ( List.take_prefix _ taken).trans ⟨d.texts, split.symm⟩, first⟩

theorem kinds {w : Write} (there : w ∈ ws) : w.text?.isSome ∨ w.frame = .ping [] ∨ w.frame = .close := by
  have begun : (w.since, w.frame) ∈ d.begun ws := List.mem_append_left _ (List.mem_map_of_mem there)
  exact wrote.served.kinds begun

theorem texts_first : d.log.reverse.filterMap (·.2.text?) <+: script.texts.map (·.2) := by
  have recorded : d.log.reverse.filterMap (·.2.text?) = (ws.filter (·.completed)).filterMap (·.text?) := by
    rw [wrote.log, List.filterMap_map]
    rfl
  have begun : ws.filterMap (·.text?) <+: (d.begun ws).filterMap (·.2.text?) := by
    rw [Delivery.begun, List.filterMap_append, List.filterMap_map]
    exact List.prefix_append _ _
  rw [recorded, wrote.served.texts_eq]
  exact ((wrote.reached.filter_completed.filterMap _).trans begun).trans (List.prefix_append _ _)

theorem closed {before later : List Write} {w : Write} (split : ws = before ++ w :: later) (close : w.frame = .close) :
    later = [] ∧ (∀ v ∈ before, v.completed = true) ∧ before.filterMap (·.text?) = script.texts.map (·.2) ∧
      ∃ time, script.closing = some time ∧ time ≤ w.since := by
  subst split
  obtain ⟨rfl, ended, more⟩ := wrote.reached.stops (Write.isLast_iff.mpr (.inl close))
  have served := wrote.served
  have begun : d.begun (before ++ [w]) = before.map (fun w => (w.since, w.frame)) ++ [(w.since, .close)] := by
    simp [Delivery.begun, writing?, ended, close]
  rw [begun] at served
  obtain ⟨texts, earlier, begins⟩ := served.of_snoc
  have all := earlier.texts_eq
  rw [List.filterMap_map] at all
  generalize d.texts = rest at begins
  cases begins with
  | close closing closed =>
    rw [List.map_nil, List.append_nil] at all
    exact ⟨rfl, fun v there => (Write.isLast_eq_false_iff.mp (more v there)).2, all.symm, _, closing, closed⟩

/-- Whatever is written after a write, that write is not the last. -/
theorem more {before : List Write} {v w : Write} (split : ws = before ++ [w]) (there : v ∈ before) : v.isLast = false := by
  obtain ⟨first, rest, rfl⟩ := List.append_of_mem there
  have reached := wrote.reached
  rw [split, List.append_assoc, List.cons_append] at reached
  cases last : v.isLast with
  | false => rfl
  | true => exact absurd (reached.stops last).1 (by simp)

theorem last_of_ended (ended : d.writer.hasEnded = true) :
    ∃ before w, ws = before ++ [w] ∧ w.isLast = true ∧ d.writer.phase = .ended w.till := by
  cases phase : d.writer.phase with
  | idle | writing => simp [Writer.hasEnded, phase] at ended
  | ended when =>
    obtain ⟨before, w, split, last, rfl⟩ := (wrote.reached.ended_iff when).mp phase
    exact ⟨before, w, split, last, rfl⟩

/-- A sink that does not fail takes all writes to their end. -/
theorem completed (reliable : ∀ k, (script.sink k).succeeds = true ∧ (script.sink k).takes ≤ settings.writeWait)
    {w : Write} (there : w ∈ ws) : w.completed = true := by
  obtain ⟨k, found⟩ := List.mem_iff_getElem?.mp there
  exact (wrote.outcomes k w found).completed.mpr (reliable k)

theorem going (unclosed : script.closing = none)
    (reliable : ∀ k, (script.sink k).succeeds = true ∧ (script.sink k).takes ≤ settings.writeWait) :
    d.writer.hasEnded = false := by
  cases ended : d.writer.hasEnded with
  | false => rfl
  | true =>
    obtain ⟨before, w, split, last, -⟩ := wrote.last_of_ended ended
    rcases Write.isLast_iff.mp last with close | uncompleted
    · obtain ⟨-, -, -, time, closing, -⟩ := wrote.closed split close
      cases unclosed.symm.trans closing
    · have completed := wrote.completed reliable (split ▸ List.mem_append_right _ List.mem_cons_self)
      cases uncompleted.symm.trans completed

end Wrote

/-- Whatever comes to its queue, and whatever its sink does: each write of a writer comes of one attempt of its sink, and
those that come to their end are what is recorded. Besides texts there are empty pings and the close frame. The texts are
the first ones of the queue, in order, and each was queued when its write began. The close frame is behind all texts of a
queue that is closed, and nothing is behind it. The writer ends with its first write that is of the close frame or does not
come to its end, and stays as it is from then on; it does not rest before. With a queue that is never closed and a sink
that never fails it goes on. -/
theorem written_frames (settings : Settings) (script : Script) (n : Nat) :
    let d := steps settings script n
    let ws := writes settings script n
    d.log.reverse = (ws.filter (·.completed)).map (fun w => (w.till, w.frame)) ∧
    (∀ (k : Nat) (w : Write), ws[k]? = some w → w.ComesOf settings (script.sink k)) ∧
    (∀ w ∈ ws, w.text?.isSome ∨ w.frame = .ping [] ∨ w.frame = .close) ∧
    (∃ taken, taken <+: script.texts ∧ List.Forall₂ (fun entry w => w.frame = .text entry.2 ∧ entry.1 ≤ w.since) taken
      (ws.filter (·.text?.isSome))) ∧
    d.log.reverse.filterMap (·.2.text?) <+: script.texts.map (·.2) ∧
    (∀ before w later, ws = before ++ w :: later → w.frame = .close → later = [] ∧ (∀ v ∈ before, v.completed = true) ∧
      before.filterMap (·.text?) = script.texts.map (·.2) ∧
      ∃ time, script.closing = some time ∧ time ≤ w.since) ∧
    (∀ when, d.writer.phase = .ended when ↔
      ∃ before w, ws = before ++ [w] ∧ (w.frame = .close ∨ w.completed = false) ∧ w.till = when) ∧
    (∀ before w, ws = before ++ [w] → ∀ v ∈ before, v.frame ≠ .close ∧ v.completed = true) ∧
    (d.writer.hasEnded = true → ∀ m, n ≤ m → steps settings script m = d ∧ writes settings script m = ws) ∧
    (d.writer.hasEnded = false → n ≤ 2 * ws.length + 1) ∧
    (script.closing = none →
      (∀ k, (script.sink k).succeeds = true ∧ (script.sink k).takes ≤ settings.writeWait) → d.writer.hasEnded = false) := by
  intro d ws
  have wrote : Wrote settings script d ws := wrote_steps settings script n
  have ended (when : Instant) : d.writer.phase = .ended when ↔
      ∃ before w, ws = before ++ [w] ∧ (w.frame = .close ∨ w.completed = false) ∧ w.till = when := by
    simpa only [Write.isLast_iff] using wrote.reached.ended_iff when
  refine ⟨wrote.log, wrote.outcomes, fun w => wrote.kinds, wrote.taken, wrote.texts_first,
    fun before w later => wrote.closed, ended, fun before w split v there => ?_,
    fun stopped m => steps_of_ended stopped, fun going => ?_, fun unclosed reliable => ?_⟩
  · exact Write.isLast_eq_false_iff.mp (wrote.more split there)
  · have paired := length_begun settings script n going
    have one := length_begun_le (steps settings script n) (writes settings script n)
    show n ≤ 2 * (writes settings script n).length + 1
    omega
  · exact wrote.going unclosed reliable

end HelpDesk.Delivery
