import HelpDesk.Proofs.ReadAccess
import HelpDesk.Proofs.StorePages

/-! Paging through a conversation, at the store and over HTTP. -/

namespace HelpDesk

namespace Http

/-- A request of the caller for a page of a conversation's messages. -/
structure Request.Pages (r : Request) (caller : Identity) (id : ConversationId) (page : Page) : Prop where
  method : r.method = "GET"
  route : ∃ segment, Route.ofPath? (pathOf r.target) = some (.messages segment) ∧ pathId segment = .ok id
  caller : r.caller = .ok caller
  query : Page.ofQuery? (queryOf r.target) = some page

/-- Staff, the system and the owner see a conversation. -/
def Sees (caller : Identity) (c : Conversation) : Prop :=
  c.owner = caller.user ∨ caller.role.opensConversations = true

variable {h : Hub} {caller : Identity} {id : ConversationId}

theorem run_visible (reliable : h.Reliable) {c : Conversation} (stored : h.store.get? id = some c) (sees : Sees caller c) :
    ∃ k : Hub, k.Reliable ∧ k.store = h.store ∧ h.run (visibleConversation id caller) = (.ok c, k) := by
  obtain ⟨k, working, store, run⟩ := reliable.run_read (.get id) rfl _
  refine ⟨k, working, store, run.trans ?_⟩
  have shown : (!c.isOwnedBy caller.user && !caller.role.opensConversations) = false := by
    rcases sees with own | opens <;> simp [Conversation.isOwnedBy, *]
  simp only [Store.perform, Store.get, stored, Except.map, shown]
  rfl

theorem run_unknown (reliable : h.Reliable) (caller : Identity) (unknown : h.store.get? id = none) :
    (h.run (visibleConversation id caller)).1 = .error .notFound := by
  obtain ⟨k, -, -, run⟩ := reliable.run_read (.get id) rfl _
  refine (congrArg Prod.fst run).trans ?_
  simp only [Store.perform, Store.get, unknown]
  rfl

theorem Route.run_page (reliable : h.Reliable) {c : Conversation} (stored : h.store.get? id = some c) (sees : Sees caller c)
    (page : Page) : (h.run (Route.showMessages caller id page)).1 = .json 200 (Message.codec.list.write
      (((h.store.history id).drop page.effectiveOffset.toNat).take page.effectiveLimit.toNat)) := by
  obtain ⟨k, working, store, visible⟩ := run_visible reliable stored sees
  obtain rfl := Store.get?_id stored
  show (h.run ((visibleConversation c.id caller).bind _)).1 = _
  rw [Hub.run_bind, visible]
  obtain ⟨_, -, -, run⟩ := working.run_read (.listMessages c.id page.effectiveLimit page.effectiveOffset) rfl _
  refine (congrArg Prod.fst run).trans ?_
  simp only [Store.perform, Store.listMessages, store, stored]
  rfl

theorem Route.run_page_unknown (reliable : h.Reliable) (unknown : h.store.get? id = none) (page : Page) :
    (h.run (Route.showMessages caller id page)).1 = .error .notFound := by
  have absent := run_unknown reliable caller unknown
  show (h.run ((visibleConversation id caller).bind _)).1 = _
  rw [Hub.run_bind, absent]
  rfl

/-- A request for a page goes to the route of the messages. -/
theorem Request.Pages.run {r : Request} {page : Page} (pages : r.Pages caller id page) (database : DatabaseHealth) :
    (h.run (respond database r)).1 = .answer (h.run (Route.showMessages caller id page)).1 := by
  obtain ⟨segment, path, names⟩ := pages.route
  have get : (r.method == "OPTIONS") = false ∧ (Route.messages segment).accepts r.method = true ∧
      (r.method == "HEAD") = false := by
    rw [pages.method]
    exact ⟨rfl, rfl, rfl⟩
  simp only [respond, get, path, Route.respond, Route.withCaller, Route.withRead, pages.caller, names, pages.query,
    Option.elim_some, Bool.false_eq_true, if_false, if_true, Hub.run_map, Response.forMethod]

/-- A page of at most 200 messages is answered as it is. -/
theorem Request.Pages.run_page {r : Request} {size number : Nat} (pages : r.Pages caller id ⟨some size, some (number * size)⟩)
    (positive : 1 ≤ size) (small : size ≤ 200) (reliable : h.Reliable) {c : Conversation} (stored : h.store.get? id = some c)
    (sees : Sees caller c) (database : DatabaseHealth) : (h.run (respond database r)).1 =
      .answer (.json 200 (Message.codec.list.write (((h.store.history id).drop (number * size)).take size))) := by
  rw [pages.run, Route.run_page reliable stored sees]
  have limit : (Page.effectiveLimit ⟨some size, some (number * size)⟩).toNat = size := by
    simp only [Page.effectiveLimit, Option.getD_some]
    omega
  have offset : (Page.effectiveOffset ⟨some size, some (number * size)⟩).toNat = number * size := by
    simp only [Page.effectiveOffset, Option.getD_some, ← Int.natCast_mul]
    omega
  rw [limit, offset]

end Http

/-- Whatever has been carried out, a page of a conversation is a part of the messages that were created in it, in that order:
those that are left without the offset, up to the limit. Over HTTP a limit is from 1 to 200, and 50 if none is given. There
are no pages of a conversation that is not there. Pages of one size that are read until one of them is not full add up to
all that was created in the conversation when the last one was read, whatever is carried out between two of them. Reading
ends when so much is there no more. -/
theorem paging_complete (earlier : List Store.Entry) (id : ConversationId) :
    let s := Store.after {} earlier
    let said (es : List Store.Entry) := (Store.posted {} es).filter (·.conversation == id)
    (s.get? id = none → (∀ limit offset, s.listMessages id limit offset = .error (.notFound id)) ∧
      ∀ h : Hub, h.Reliable → h.store = s → ∀ (r : Http.Request) caller page database, r.Pages caller id page →
        (h.run (Http.respond database r)).1 = .answer (.error .notFound)) ∧
    ∀ c, s.get? id = some c →
      (∀ limit offset, s.listMessages id limit offset =
        .ok (((said earlier).drop (max offset 0).toNat).take (max limit 0).toNat)) ∧
      (∀ h : Hub, h.Reliable → h.store = s → ∀ (r : Http.Request) caller page database, r.Pages caller id page →
        Http.Sees caller c → (h.run (Http.respond database r)).1 = .answer (.json 200 (Message.codec.list.write
          (((said earlier).drop (max 0 (page.offset.getD 0)).toNat).take (max 1 (min 200 (page.limit.getD 50))).toNat)))) ∧
      ∀ (size : Nat) (gaps : List (List Store.Entry)), 1 ≤ size →
        let during (k : Nat) := earlier ++ (gaps.take k).flatten
        (s.readPages id size 0 gaps = none ↔ ∀ k < gaps.length, (k + 1) * size ≤ (said (during (k + 1))).length) ∧
        ∀ pages, s.readPages id size 0 gaps = some pages →
          pages.flatten = (Store.after {} (during pages.length)).history id ∧
          pages.flatten = said (during pages.length) ∧
          (Store.Fresh {} (during pages.length) → (pages.flatten.map (·.id)).Nodup) ∧
          (size ≤ 200 → ∀ k page, pages[k]? = some page → ∀ h : Hub, h.Reliable →
            h.store = Store.after {} (during (k + 1)) → ∀ (r : Http.Request) caller database,
              r.Pages caller id ⟨some size, some (k * size)⟩ → Http.Sees caller c →
                (h.run (Http.respond database r)).1 = .answer (.json 200 (Message.codec.list.write page))) := by
  intro s said
  have history (es : List Store.Entry) : (Store.after {} es).history id = said es := Store.history_of_run es id
  refine ⟨fun unknown => ⟨fun limit offset => ?_, fun h reliable store r caller page database pages => ?_⟩,
    fun c stored => ⟨fun limit offset => ?_, fun h reliable store r caller page database pages sees => ?_,
      fun size gaps positive => ?_⟩⟩
  · rw [Store.listMessages, unknown]
  · rw [pages.run, Http.Route.run_page_unknown reliable (store ▸ unknown)]
  · rw [Store.listMessages_eq stored, history]
  · rw [pages.run, Http.Route.run_page reliable (store ▸ stored) sees, store, history]
    rfl
  intro during
  have after (k : Nat) : s.after (gaps.take k).flatten = Store.after {} (during k) := (Store.after_append _ _ _).symm
  constructor
  · rw [Store.readPages_eq_none_iff positive stored]
    simp only [after, history, Nat.zero_add]
  · intro pages read
    have all : pages.flatten = (Store.after {} (during pages.length)).history id := by
      rw [Store.flatten_readPages positive stored read, after, Nat.zero_mul, List.drop_zero]
    refine ⟨all, all.trans (history _), fun fresh => ?_, fun small k page there h reliable store r caller database asks sees => ?_⟩
    · rw [all]
      exact (Store.nodup_messages fresh).sublist (List.filter_sublist.map _)
    · obtain ⟨d, row, follows⟩ := Store.row_after stored (gaps.take (k + 1)).flatten
      rw [after, ← store] at row
      rw [asks.run_page positive small reliable row (sees.imp_left follows.owner.trans),
        Store.page_of_readPages stored read there, after, Nat.zero_add, store]

/-- Between two pages a message comes to each of two conversations, and the one that is read is opened. The second page has
what has come to this one; the other party finds no page of a conversation that is not there. -/
theorem paging_complete_of_opened :
    let customer : Identity := ⟨⟨.ofNat 1001⟩, .user⟩
    let guest : Identity := ⟨⟨.ofNat 1002⟩, .guest⟩
    let id : ConversationId := ⟨.ofNat 10⟩
    let other : ConversationId := ⟨.ofNat 30⟩
    let absent : ConversationId := ⟨.ofNat 40⟩
    let say (party : Identity) (id : ConversationId) (content : String) : Store.Call :=
      .createMessage ⟨id, party.user, content, false, false⟩
    let earlier : List Store.Entry := [.at 1 (.start customer "a" "b"), .at 2 (say customer id "c"), .at 3 (.start guest "a" "d")]
    let gaps : List (List Store.Entry) :=
      [[], [.at 4 (say guest other "e"), .at 5 (.setStatus id .opened none), .at 6 (say customer id "f")], []]
    let hub : Hub :=
      { settings := .default, store := .after {} (earlier ++ gaps.flatten), clock := ⟨9, 0⟩, mint := fun n => .ofNat (n + 70) }
    let get (party : Identity) (id : ConversationId) (query : String) : Http.Request :=
      .ofParty party "GET" ("/api/v1/conversations/" ++ toString id ++ "/messages" ++ query) [] ""
    ∃ first second, (Store.after {} earlier).readPages id 2 0 gaps = some [first, second] ∧
      (first ++ second).map (·.content) = ["b", "c", "f"] ∧ ((first ++ second).map (·.id)).Nodup ∧
      hub.store.history id = first ++ second ∧
      (hub.run (Http.respond .memory (get customer id "?limit=2&offset=2"))).1 =
        .answer (.json 200 (Message.codec.list.write second)) ∧
      (hub.run (Http.respond .memory (get guest absent "?limit=-1"))).1 = .answer (.error .notFound) := by
  intro customer guest id other absent say earlier gaps hub get
  have reliable : hub.Reliable := ⟨rfl, fun _ _ there => by cases there⟩
  have facts : (∃ c ∈ (Store.after {} earlier).get? id, c.owner = customer.user) ∧ hub.store.get? absent = none ∧
      Store.Fresh {} (earlier ++ gaps.flatten) ∧
      ∃ pages ∈ (Store.after {} earlier).readPages id 2 0 gaps, pages.map (·.map (·.content)) = [["b", "c"], ["f"]] := by
    decide +kernel
  have second : (get customer id "?limit=2&offset=2").Pages customer id ⟨some 2, some 2⟩ :=
    ⟨rfl, ⟨(toString id).toList, by decide +kernel⟩, by decide +kernel, by decide +kernel⟩
  have nothing : (get guest absent "?limit=-1").Pages guest absent ⟨some (-1), none⟩ :=
    ⟨rfl, ⟨(toString absent).toList, by decide +kernel⟩, by decide +kernel, by decide +kernel⟩
  obtain ⟨⟨c, stored, owner⟩, unknown, fresh, pages, read, contents⟩ := facts
  obtain ⟨first, rest, rfl, one, tail⟩ := List.map_eq_cons_iff.mp contents
  obtain ⟨last, none, rfl, two, done⟩ := List.map_eq_cons_iff.mp tail
  obtain rfl := List.map_eq_nil_iff.mp done
  obtain ⟨-, there⟩ := paging_complete earlier id
  obtain ⟨-, -, paged⟩ := there c stored
  obtain ⟨all, -, distinct, shown⟩ := (paged 2 gaps (by decide)).2 _ read
  have flat : [first, last].flatten = first ++ last := by simp
  rw [flat] at all distinct
  refine ⟨first, last, read, by rw [List.map_append, one, two]; rfl, distinct fresh, all.symm, ?_, ?_⟩
  · exact shown (by decide) 1 last rfl hub reliable rfl _ customer .memory second (.inl owner)
  · exact ((paging_complete (earlier ++ gaps.flatten) absent).1 unknown).2 hub reliable rfl _ guest _ .memory nothing

end HelpDesk
