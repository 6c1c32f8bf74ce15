import HelpDesk.Proofs.Executions

/-! Programs that end after so many requests, whatever the replies are. A task with such a program has come to its end when
it has had as many turns, whatever the others do. -/

namespace HelpDesk

/-- Is it a turn of the task? -/
def Turn.isOf (task : Nat) : Turn → Bool
  | .task number _ => number == task
  | .receive _ | .endReceiving _ => false

namespace Program
variable {α β : Type}

/-- Whatever the replies are, the program ends after so many requests at the latest. -/
inductive Within : Nat → Program α → Prop
  | done (n : Nat) (value : α) : Within n (.done value)
  | ask {n : Nat} {request : Request} {next : request.Reply → Program α} (later : ∀ reply, Within n (next reply)) :
      Within (n + 1) (.ask request next)

theorem Within.mono {n m : Nat} {program : Program α} (within : program.Within n) (more : n ≤ m) : program.Within m := by
  induction within generalizing m with
  | done n value => exact .done m value
  | @ask n request next later ih =>
    obtain ⟨k, rfl⟩ : ∃ k, m = k + 1 := ⟨m - 1, by omega⟩
    exact .ask fun reply => ih reply (Nat.le_of_succ_le_succ more)

theorem Within.bind {n m : Nat} {program : Program α} {next : α → Program β} (first : program.Within n)
    (last : ∀ value, (next value).Within m) : (program.bind next).Within (m + n) := by
  induction first with
  | done n value => exact (last value).mono (Nat.le_add_right m n)
  | ask later ih => exact .ask ih

theorem within_broadcast (room : ConversationId) (frame : Frame) : (broadcast room frame).Within 1 := by
  unfold broadcast
  split
  · exact .ask fun _ => .done _ _
  · exact .done _ _

theorem within_sendTo (room : ConversationId) (session : SessionId) (frame : Frame) :
    (sendTo room session frame).Within 1 := by
  unfold sendTo
  split
  · exact .ask fun _ => .done _ _
  · exact .done _ _

end Program

theorem Lifecycle.within_messageStored (current : Conversation) (party : Identity) :
    (messageStored current party).Within 2 := by
  have moves (id : ConversationId) (status : Status) (assignee : Option UserId) : (move id status assignee).Within 2 := by
    refine .ask fun reply => ?_
    rcases reply with error | moved
    · exact .done _ _
    · exact (Program.within_broadcast _ _).bind fun _ => .done 0 _
  unfold messageStored openIfPending
  split
  · refine (moves _ _ _).bind fun result => (?_ : Program.Within 0 _)
    rcases result with (_ | _ | _ | _) | opened <;> exact .done _ _
  · exact .done _ _

namespace Connection
variable (c : Connection)

theorem within_refuse : c.refuse.Within 1 :=
  (Program.within_sendTo _ _ _).bind fun _ => .done 0 _

theorem within_deliver (current : Conversation) (content : String) : (c.deliver current content).Within 4 := by
  refine .ask fun reply => ?_
  rcases reply with (_ | id | _ | _) | m
  · exact .done _ _
  · exact c.within_refuse.mono (by decide)
  · exact .done _ _
  · exact .done _ _
  · exact (Lifecycle.within_messageStored _ _).bind fun _ => (Program.within_broadcast _ _).bind fun _ => .done 0 _

/-- Whatever happens to it, a text takes no more than five requests. -/
theorem within_handleText (settings : Settings) (text : String) : (c.handleText settings text).Within 5 := by
  unfold handleText
  split
  · exact .done _ _
  · split
    · exact .done _ _
    · split
      · exact .done _ _
      · refine .ask fun reply => ?_
        rcases reply with error | current
        · exact .done _ _
        · dsimp only [Program.bind]
          split
          · exact c.within_refuse.mono (by decide)
          · exact c.within_deliver current _

end Connection

namespace Execution
variable {α : Type} {x y : Execution α} {turns : List Turn} {log : List Occurrence} {n : Nat}

theorem tasks_of_other {turn : Turn} {program : Program α} (other : turn.isOf n = false)
    (there : x.tasks[n]? = some program) : (x.next turn).2.tasks[n]? = some program := by
  cases turn with
  | receive | endReceiving => exact there
  | task number now =>
    have apart : number ≠ n := by simpa [Turn.isOf] using other
    simp only [next]
    split
    · exact (List.getElem?_set_ne apart).trans there
    · exact there
    · exact there

theorem tasks_of_done {value : α} (there : x.tasks[n]? = some (.done value)) (turn : Turn) :
    (x.next turn).2.tasks[n]? = some (.done value) := by
  obtain ⟨later, after, path⟩ := next_path (o := (x.next turn).1) (u := (x.next turn).2) rfl there
  rw [path.of_idle.2] at after
  exact after

theorem tasks_of_own {turn : Turn} {request : Request} {rest : request.Reply → Program α} (own : turn.isOf n = true)
    (there : x.tasks[n]? = some (.ask request rest)) : ∃ reply, (x.next turn).2.tasks[n]? = some (rest reply) := by
  cases turn with
  | receive | endReceiving => cases own
  | task number now =>
    obtain rfl : number = n := by simpa [Turn.isOf] using own
    simp only [next, there]
    exact ⟨_, List.getElem?_set_self (List.getElem?_eq_some_iff.mp there).1⟩

/-- A task that gets as many turns as it can need has come to its end. -/
theorem value_of_within {k : Nat} {program : Program α} (within : program.Within k)
    (there : x.tasks[n]? = some program) (runs : x.run turns = (log, y)) (enough : k ≤ turns.countP (·.isOf n)) :
    ∃ value, y.value? n = some value := by
  induction turns generalizing x log program k with
  | nil =>
    cases runs
    cases within with
    | done _ value => exact ⟨value, by rw [value?, there]; rfl⟩
    | ask later => cases enough
  | cons turn turns ih =>
    cases runs
    cases own : turn.isOf n with
    | false =>
      rw [List.countP_cons_of_neg (by simp [own])] at enough
      exact ih within (tasks_of_other own there) rfl enough
    | true =>
      rw [List.countP_cons_of_pos own] at enough
      cases within with
      | done _ value => exact ih (.done 0 value) (tasks_of_done there turn) rfl (Nat.zero_le _)
      | ask later =>
        obtain ⟨reply, after⟩ := tasks_of_own own there
        exact ih (later reply) after rfl (Nat.le_of_succ_le_succ enough)

end Execution

end HelpDesk
