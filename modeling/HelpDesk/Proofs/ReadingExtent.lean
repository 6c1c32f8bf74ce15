import HelpDesk.Socket.Reader
import Mathlib.Data.List.Chain

/-! How far a reader reads: everything up to the first item that is an end, or up to the deadline, which is so long after
the last pong. -/

namespace HelpDesk

namespace Inbound

/-- Is nothing read after it? -/
def isLast : Inbound → Bool
  | frame .close | failure | finish => true
  | frame (.text _) | frame (.binary _) | frame (.ping _) | frame (.pong _) => false

def isPong : Inbound → Bool
  | frame (.pong _) => true
  | frame (.text _) | frame (.binary _) | frame (.ping _) | frame .close | failure | finish => false

def text? : Inbound → Option String
  | frame (.text text) => some text
  | frame (.binary _) | frame (.ping _) | frame (.pong _) | frame .close | failure | finish => none

end Inbound

namespace Reader
variable {wait : Span} {started now ended : Instant} {item : Inbound} {items read rest : List (Instant × Inbound)}

def texts (items : List (Instant × Inbound)) : List (Instant × String) :=
  items.filterMap fun entry => entry.2.text?.map (entry.1, ·)

/-- When the pongs among these come. -/
def pongs (items : List (Instant × Inbound)) : List Instant :=
  (items.filter (·.2.isPong)).map (·.1)

/-- The last pong among these, or the start. -/
def lastPong (started : Instant) (items : List (Instant × Inbound)) : Instant :=
  (pongs items).getLast?.getD started

/-- All of these are read: none of them is an end, and each comes before the deadline has passed. -/
def Reads (wait : Span) (started : Instant) (read : List (Instant × Inbound)) : Prop :=
  ∀ before now item after, read = before ++ (now, item) :: after →
    item.isLast = false ∧ now ≤ lastPong started before + wait

/-- Why nothing more is read, and since when, with what would come next. -/
inductive Stops (wait : Span) (started : Instant) (read : List (Instant × Inbound)) :
    List (Instant × Inbound) → Instant → Prop
  | last {now : Instant} {item : Inbound} {rest : List (Instant × Inbound)} (last : item.isLast = true)
      (timely : now ≤ lastPong started read + wait) : Stops wait started read ((now, item) :: rest) now
  | silence {rest : List (Instant × Inbound)} (late : ∀ next ∈ rest.head?, lastPong started read + wait < next.1) :
      Stops wait started read rest (lastPong started read + wait)

theorem next?_of_last (last : item.isLast = true) (deadline : Instant) : next? wait now deadline item = none := by
  cases item with
  | frame frame => cases frame <;> simp_all [Inbound.isLast, next?]
  | failure | finish => rfl

theorem next?_of_going (going : item.isLast = false) (deadline : Instant) :
    next? wait now deadline item = some (if item.isPong then now + wait else deadline) := by
  cases item with
  | frame frame => cases frame <;> simp_all [Inbound.isLast, Inbound.isPong, next?]
  | failure | finish => cases going

theorem pongs_append (first last : List (Instant × Inbound)) : pongs (first ++ last) = pongs first ++ pongs last := by
  rw [pongs, List.filter_append, List.map_append]
  rfl

theorem lastPong_cons (started now : Instant) (item : Inbound) (items : List (Instant × Inbound)) :
    lastPong started ((now, item) :: items) = lastPong (if item.isPong then now else started) items := by
  cases pong : item.isPong with
  | true =>
    have first : pongs ((now, item) :: items) = now :: pongs items := by simp [pongs, pong]
    rw [lastPong, first, List.getLast?_cons]
    rfl
  | false =>
    have same : pongs ((now, item) :: items) = pongs items := by simp [pongs, pong]
    rw [lastPong, same]
    rfl

theorem Reads.nil : Reads wait started [] := by
  intro before now item after split
  simp at split

theorem Reads.cons (going : item.isLast = false) (timely : now ≤ started + wait)
    (reads : Reads wait (if item.isPong then now else started) read) : Reads wait started ((now, item) :: read) := by
  intro before now' item' after split
  cases before with
  | nil =>
    cases split
    exact ⟨going, timely⟩
  | cons first before =>
    obtain ⟨rfl, later⟩ := List.cons.inj split
    rw [lastPong_cons]
    exact reads before now' item' after later

theorem Reads.of_cons (reads : Reads wait started ((now, item) :: read)) : item.isLast = false ∧ now ≤ started + wait ∧
    Reads wait (if item.isPong then now else started) read := by
  obtain ⟨going, timely⟩ := reads [] now item read rfl
  refine ⟨going, timely, fun before now' item' after split => ?_⟩
  rw [← lastPong_cons]
  exact reads ((now, item) :: before) now' item' after (by rw [split]; rfl)

theorem Stops.cons (stops : Stops wait (if item.isPong then now else started) read rest ended) :
    Stops wait started ((now, item) :: read) rest ended := by
  cases stops with
  | last last timely =>
    rw [← lastPong_cons] at timely
    exact .last last timely
  | silence late =>
    rw [← lastPong_cons] at late ⊢
    exact .silence late

theorem Stops.of_cons (stops : Stops wait started ((now, item) :: read) rest ended) :
    Stops wait (if item.isPong then now else started) read rest ended := by
  cases stops with
  | last last timely =>
    rw [lastPong_cons] at timely
    exact .last last timely
  | silence late =>
    rw [lastPong_cons] at late ⊢
    exact .silence late

theorem extent_of_nil (stops : Stops wait started [] rest ended) : extent wait (started + wait) rest = ⟨[], ended⟩ := by
  cases stops with
  | last last timely =>
    have timely : ended ≤ started + wait := timely
    rw [extent, if_neg (Nat.not_lt.mpr timely), next?_of_last last]
  | silence late =>
    cases rest with
    | nil => rfl
    | cons next rest =>
      have late : started + wait < next.1 := late next rfl
      simp only [extent, late, if_true]
      rfl

theorem after_eq (now : Instant) (item : Inbound) (rest : Extent) :
    rest.after now item = ⟨texts [(now, item)] ++ rest.texts, rest.ended⟩ := by
  cases item with
  | frame frame => cases frame <;> rfl
  | failure | finish => rfl

/-- What is read, and when the reading ends, is given by where it stops. -/
theorem extent_eq (reads : Reads wait started read) (stops : Stops wait started read rest ended) :
    extent wait (started + wait) (read ++ rest) = ⟨texts read, ended⟩ := by
  induction read generalizing started with
  | nil => exact extent_of_nil stops
  | cons entry read ih =>
    obtain ⟨now, item⟩ := entry
    obtain ⟨going, timely, reads⟩ := reads.of_cons
    have later := ih reads stops.of_cons
    have deadline : (if item.isPong then now + wait else started + wait) =
        (if item.isPong then now else started) + wait := by
      cases item.isPong <;> rfl
    rw [List.cons_append, extent, if_neg (Nat.not_lt.mpr timely), next?_of_going going, deadline]
    dsimp only
    rw [later, after_eq, texts, texts, ← List.filterMap_append]
    rfl

/-- A peer without a pong is cut off when the reader has waited for one since the start. -/
theorem Stops.ended_of_pongless (stops : Stops wait started read rest ended) (pongless : pongs read = [])
    (unended : ∀ entry ∈ rest, entry.2.isLast = true → started + wait < entry.1) : ended = started + wait := by
  have start : lastPong started read = started := by
    rw [lastPong, pongless]
    rfl
  cases stops with
  | silence late => rw [start]
  | @last now item rest last timely =>
    rw [start] at timely
    exact absurd timely (Nat.not_le.mpr (unended _ List.mem_cons_self last))

/-- A peer with pongs that are less than the wait apart is not cut off by the deadline as long as they come. -/
theorem Stops.last_of_pongs (stops : Stops wait started read rest ended)
    (sorted : ((read ++ rest).map (·.1)).Pairwise (· ≤ ·))
    (lively : (started :: pongs (read ++ rest)).IsChain fun earlier later => later < earlier + wait)
    (more : pongs rest ≠ []) : ∃ item later, rest = (ended, item) :: later ∧ item.isLast = true := by
  cases stops with
  | @last now item rest last timely => exact ⟨item, rest, rfl, last⟩
  | silence late =>
    exfalso
    obtain ⟨pong, others, split⟩ := List.exists_cons_of_ne_nil more
    rw [pongs_append, split, ← List.cons_append, List.isChain_append] at lively
    have close : pong < lastPong started read + wait := by
      refine lively.2.2 _ ?_ pong rfl
      rw [lastPong, List.getLast?_cons]
      rfl
    have comes : pong ∈ rest.map (·.1) := by
      have there : pong ∈ pongs rest := by simp [split]
      exact (List.Sublist.map _ List.filter_sublist).subset there
    cases rest with
    | nil => cases comes
    | cons next rest =>
      have late : lastPong started read + wait < next.1 := late next rfl
      have first : next.1 ≤ pong := by
        rw [List.map_append, List.pairwise_append] at sorted
        rcases List.mem_cons.mp comes with rfl | later
        · exact Nat.le_refl _
        · exact (List.pairwise_cons.mp sorted.2.1).1 _ later
      exact absurd (Nat.lt_of_lt_of_le late first) (Nat.not_lt.mpr (Nat.le_of_lt close))

end Reader

end HelpDesk
