import HelpDesk.Proofs.ConnectionTexts

/-! Pages of a conversation, read one after the other while anybody's requests are carried out in between. A conversation's
messages are those that were created in it, in that order, and more of them only come at the end; so a page that was full
stays as it was read, and the pages add up to what is there when the last of them is read. -/

namespace HelpDesk.Store

/-- The message that is created by a request. -/
def Entry.posted? (s : Store) (e : Entry) : Option Message :=
  match s.perform e.clock e.fresh e.call with
  | .ok (answer, _) => Request.posted? (.store e.call) (.ok answer)
  | .error _ => none

/-- The messages that are created by a run, in order. -/
def posted (s : Store) : List Entry → List Message
  | [] => []
  | e :: es => (e.posted? s).toList ++ (s.next e).posted es

theorem messages_next (s : Store) (e : Entry) : (s.next e).messages = s.messages ++ (e.posted? s).toList := by
  unfold next Entry.posted?
  cases performed : s.perform e.clock e.fresh e.call with
  | error error => exact (List.append_nil _).symm
  | ok result => exact messages_of_perform performed

theorem messages_after (s : Store) (es : List Entry) : (s.after es).messages = s.messages ++ s.posted es := by
  induction es generalizing s with
  | nil => exact (List.append_nil _).symm
  | cons e es ih => rw [after_cons, ih, messages_next, posted, List.append_assoc]

theorem history_after (s : Store) (es : List Entry) (id : ConversationId) :
    (s.after es).history id = s.history id ++ (s.posted es).filter (·.conversation == id) := by
  rw [history, messages_after, List.filter_append]
  rfl

theorem history_prefix (s : Store) (es : List Entry) (id : ConversationId) : s.history id <+: (s.after es).history id := by
  rw [history_after]
  exact List.prefix_append _ _

/-- The messages of a conversation in a store that was empty are those that were created in it. -/
theorem history_of_run (es : List Entry) (id : ConversationId) :
    (after {} es).history id = (posted {} es).filter (·.conversation == id) :=
  history_after {} es id

/-- A request that creates a message generates its identifier. -/
theorem Entry.generated_posted (s : Store) (e : Entry) :
    ((e.posted? s).toList.map (·.id.uuid)).Sublist e.generated := by
  obtain ⟨clock, fresh, call⟩ := e
  unfold Entry.posted?
  cases performed : s.perform clock fresh call with
  | error error => exact List.nil_sublist _
  | ok result =>
    obtain ⟨answer, t⟩ := result
    cases performed_of_ok performed with
    | posted => simp [Request.posted?, Entry.generated, Call.creates, append, List.range_succ]
    | created vacant row opening => simp [Request.posted?, Entry.generated, Call.creates, opening, List.range_succ]
    | got | foundActive | listedActive | listedMessages | moved | alreadyOpen => exact List.nil_sublist _

theorem generated_of_posted (s : Store) (es : List Entry) :
    ((s.posted es).map (·.id.uuid)).Sublist (es.flatMap Entry.generated) := by
  induction es generalizing s with
  | nil => exact List.Sublist.refl _
  | cons e es ih =>
    rw [posted, List.map_append, List.flatMap_cons]
    exact (e.generated_posted s).append (ih _)

theorem nodup_messages {es : List Entry} (fresh : Fresh {} es) : ((after {} es).messages.map (·.id)).Nodup := by
  have generated : (es.flatMap Entry.generated).Nodup := fresh
  have distinct := generated.sublist (generated_of_posted {} es)
  rw [messages_after, List.nil_append]
  rw [List.nodup_iff_pairwise_ne, List.pairwise_map] at distinct ⊢
  exact distinct.imp fun different same => different (congrArg (·.uuid) same)

/-- Reads the pages of a conversation from one on, until one of them is not full. Before each page the requests of the next
list are carried out. None if they all are and the last page is yet to come, or if a page cannot be read. -/
def readPages (id : ConversationId) (size : Nat) : (s : Store) → (number : Nat) → List (List Entry) → Option (List (List Message))
  | _, _, [] => none
  | s, number, es :: later =>
    match (s.after es).listMessages id size (number * size) with
    | .error _ => none
    | .ok page =>
      if page.length < size then some [page]
      else ((s.after es).readPages id size (number + 1) later).map (page :: ·)

theorem listMessages_eq {s : Store} {id : ConversationId} {c : Conversation} (stored : s.get? id = some c) (limit offset : Int) :
    s.listMessages id limit offset = .ok (((s.history id).drop (max offset 0).toNat).take (max limit 0).toNat) := by
  have negative (n : Int) : (max n 0).toNat = n.toNat := by omega
  rw [negative, negative, listMessages, stored]

theorem page_eq {s : Store} {id : ConversationId} {c : Conversation} (stored : s.get? id = some c) (size number : Nat) :
    s.listMessages id size (number * size) = .ok (((s.history id).drop (number * size)).take size) := by
  rw [listMessages, stored]
  rfl

section Reading
variable {s : Store} {id : ConversationId} {c : Conversation} {size number : Nat} {es : List Entry}
  {gaps : List (List Entry)} {pages : List (List Message)}

/-- A page that is not the last is full, and the reader goes on. -/
theorem readPages_cons (stored : s.get? id = some c) (es : List Entry) (gaps : List (List Entry)) :
    s.readPages id size number (es :: gaps) =
      let page := (((s.after es).history id).drop (number * size)).take size
      if page.length < size then some [page]
      else ((s.after es).readPages id size (number + 1) gaps).map (page :: ·) := by
  obtain ⟨d, there, -⟩ := row_after stored es
  rw [readPages, page_eq there]

theorem full_iff {α : Type} {xs : List α} (positive : 0 < size) :
    ¬ ((xs.drop (number * size)).take size).length < size ↔ (number + 1) * size ≤ xs.length := by
  rw [List.length_take, List.length_drop, Nat.add_one_mul]
  omega

/-- A full page stays what it is. -/
theorem page_of_prefix {α : Type} {xs ys : List α} (grows : xs <+: ys) (full : (number + 1) * size ≤ xs.length) :
    (xs.drop (number * size)).take size = (ys.drop (number * size)).take size := by
  obtain ⟨more, rfl⟩ := grows
  rw [Nat.add_one_mul] at full
  rw [List.drop_append_of_le_length (by omega), List.take_append_of_le_length (by rw [List.length_drop]; omega)]

/-- The pages from one on are what is there in the end, less what was on the pages before. -/
theorem flatten_readPages (positive : 0 < size) (stored : s.get? id = some c)
    (read : s.readPages id size number gaps = some pages) :
    pages.flatten = ((s.after (gaps.take pages.length).flatten).history id).drop (number * size) := by
  induction gaps generalizing s c number pages with
  | nil => cases read
  | cons es gaps ih =>
    obtain ⟨d, there, -⟩ := row_after stored es
    rw [readPages_cons stored] at read
    dsimp only at read
    split at read
    next short =>
      obtain rfl := Option.some.inj read
      have all : (((s.after es).history id).drop (number * size)).length ≤ size := by
        rw [List.length_take] at short
        omega
      simpa using List.take_of_length_le all
    next full =>
      obtain ⟨later, rest, rfl⟩ := Option.map_eq_some_iff.mp read
      have grows := history_prefix (s.after es) (gaps.take later.length).flatten id
      rw [List.flatten_cons, ih there rest, page_of_prefix grows ((full_iff positive).mp full), Nat.add_one_mul,
        ← List.drop_drop, List.take_append_drop, List.length_cons, List.take_succ_cons, List.flatten_cons, after_append]

/-- Reading goes on as long as there is enough for the next page. -/
theorem readPages_eq_none_iff (positive : 0 < size) (stored : s.get? id = some c) :
    s.readPages id size number gaps = none ↔ ∀ k < gaps.length,
      (number + k + 1) * size ≤ ((s.after (gaps.take (k + 1)).flatten).history id).length := by
  induction gaps generalizing s c number with
  | nil => simp [readPages]
  | cons es gaps ih =>
    obtain ⟨d, there, -⟩ := row_after stored es
    rw [readPages_cons stored]
    dsimp only
    split
    next short =>
      have first : ¬ (number + 1) * size ≤ ((s.after es).history id).length :=
        mt (full_iff positive).mpr (not_not_intro short)
      refine iff_of_false (by simp) fun enough => first ?_
      simpa using enough 0 (Nat.succ_pos _)
    next full =>
      have first := (full_iff positive).mp full
      rw [Option.map_eq_none_iff, ih there, List.length_cons, Nat.forall_lt_succ_left]
      simp only [List.take_succ_cons, List.flatten_cons, after_append, List.take_zero, List.flatten_nil, after_nil,
        Nat.add_zero, first, true_and]
      refine forall₂_congr fun k _ => ?_
      rw [Nat.add_assoc number 1 k, Nat.add_comm 1 k]

/-- Each page was read in its turn. -/
theorem page_of_readPages (stored : s.get? id = some c) (read : s.readPages id size number gaps = some pages) {k : Nat}
    {page : List Message} (there : pages[k]? = some page) :
    page = (((s.after (gaps.take (k + 1)).flatten).history id).drop ((number + k) * size)).take size := by
  induction gaps generalizing s c number pages k with
  | nil => cases read
  | cons es gaps ih =>
    obtain ⟨d, row, -⟩ := row_after stored es
    rw [readPages_cons stored] at read
    dsimp only at read
    split at read
    next short =>
      obtain rfl := Option.some.inj read
      cases k with
      | zero => simpa using there.symm
      | succ k => cases there
    next full =>
      obtain ⟨later, rest, rfl⟩ := Option.map_eq_some_iff.mp read
      cases k with
      | zero => simpa using there.symm
      | succ k =>
        rw [ih row rest there, List.take_succ_cons, List.flatten_cons, after_append, Nat.add_assoc number, Nat.add_comm 1]

end Reading

end HelpDesk.Store
