import HelpDesk.Proofs.FailedRequests

/-! What customers are shown of the store. A request for a conversation or for its messages writes nothing, and what a user
or a guest is answered is a function of what this party owns. So nothing else that is stored can be told from the answers,
not even whether there is a conversation of a given identifier. -/

namespace HelpDesk

namespace Hub
variable {β : Type}

theorem callStore_untouched {h : Hub} (undisturbed : h.Undisturbed) {call : Store.Call} (reads : call.reads = true) :
    h.Untouched (h.callStore call).2 := by
  have carries := callStore_carries undisturbed.orderly call
  generalize h.callStore call = outcome at carries
  cases carries with
  | failed error untouched | read _ answer untouched => exact untouched
  | wrote writes k => cases writes <;> cases reads

/-- A program that first looks at what is stored goes on with that, in a hub with the same store. -/
theorem Reliable.run_read {h : Hub} (reliable : h.Reliable) (call : Store.Call) (reads : call.reads = true)
    (next : Except StoreError call.Answer → Program β) :
    ∃ k : Hub, k.Reliable ∧ k.store = h.store ∧ h.run ((Program.store call).bind next) =
      k.run (next ((h.store.perform h.readings h.fresh call).map Prod.fst)) := by
  have untouched := callStore_untouched reliable.undisturbed reads
  refine ⟨(h.callStore call).2, untouched.inherits.reliable reliable, untouched.store, ?_⟩
  rw [Program.run_store_bind, reliable.callStore]

end Hub

namespace Store
variable {s t : Store} {user : UserId}

/-- The conversation of an identifier, with its messages, if there is one and the user owns it. -/
def own? (s : Store) (user : UserId) (id : ConversationId) : Option (Conversation × List Message) :=
  ((s.get? id).filter (·.isOwnedBy user)).map fun c => (c, s.history c.id)

/-- Two stores have the same conversations of the user, and the same messages of these in the same order. -/
structure Agrees (user : UserId) (s t : Store) : Prop where
  rows : ∀ c, c.owner = user → (s.get? c.id = some c ↔ t.get? c.id = some c)
  messages : ∀ c, c.owner = user → s.get? c.id = some c → s.history c.id = t.history c.id

theorem agrees_iff : Agrees user s t ↔ ∀ c ∈ s.conversations ++ t.conversations, c.owner = user →
    (s.get? c.id = some c ↔ t.get? c.id = some c) ∧ (s.get? c.id = some c → s.history c.id = t.history c.id) := by
  refine ⟨fun agrees c _ owner => ⟨agrees.rows c owner, agrees.messages c owner⟩, fun agree => ⟨?_, ?_⟩⟩
  · intro c owner
    by_cases there : c ∈ s.conversations ++ t.conversations
    · exact (agree c there owner).1
    · rw [List.mem_append, not_or] at there
      exact iff_of_false (fun stored => there.1 (mem_of_get? stored)) fun stored => there.2 (mem_of_get? stored)
  · exact fun c owner stored => (agree c (List.mem_append_left _ (mem_of_get? stored)) owner).2 stored

instance : Decidable (Agrees user s t) :=
  decidable_of_iff _ agrees_iff.symm

theorem own?_eq_some_iff {id : ConversationId} {c : Conversation} {history : List Message} :
    s.own? user id = some (c, history) ↔ c.id = id ∧ c.owner = user ∧ s.get? c.id = some c ∧ s.history c.id = history := by
  simp only [own?, Option.map_eq_some_iff, Option.filter_eq_some_iff, Conversation.isOwnedBy, beq_iff_eq, Prod.mk.injEq]
  constructor
  · rintro ⟨_, ⟨stored, owner⟩, rfl, same⟩
    obtain rfl := get?_id stored
    exact ⟨rfl, owner, stored, same⟩
  · rintro ⟨rfl, owner, stored, same⟩
    exact ⟨c, ⟨stored, owner⟩, rfl, same⟩

theorem own?_eq_none {id : ConversationId} (foreign : ∀ c, s.get? id = some c → c.owner ≠ user) : s.own? user id = none := by
  refine Option.eq_none_iff_forall_ne_some.mpr fun found own => ?_
  obtain ⟨rfl, owner, stored, -⟩ := own?_eq_some_iff.mp own
  exact foreign _ stored owner

theorem Agrees.own? (agrees : Agrees user s t) (id : ConversationId) : s.own? user id = t.own? user id := by
  refine Option.ext fun found => ?_
  obtain ⟨c, history⟩ := found
  rw [own?_eq_some_iff, own?_eq_some_iff]
  refine and_congr_right fun _ => and_congr_right fun owner => ?_
  rw [← agrees.rows c owner]
  exact and_congr_right fun stored => by rw [agrees.messages c owner stored]

end Store

namespace Http

/-- The segment of the path that names a conversation, in a request that is to show it or its messages. -/
def Request.shown? (r : Request) : Option (List Char) :=
  match Route.ofPath? (pathOf r.target) with
  | some (.conversation segment) | some (.messages segment) => some segment
  | _ => none

section Shown
variable {h k : Hub} {caller : Identity}

/-- A customer sees a conversation as its owner, or not at all. -/
theorem run_visibleConversation (reliable : h.Reliable) (customer : caller.role.opensConversations = false)
    (id : ConversationId) : ∃ k : Hub, k.Reliable ∧ k.store = h.store ∧
      h.run (visibleConversation id caller) = ((h.store.own? caller.user id).elim (.error .notFound) (.ok ·.1), k) := by
  obtain ⟨k, working, store, run⟩ := reliable.run_read (.get id) rfl _
  refine ⟨k, working, store, run.trans ?_⟩
  simp only [Store.perform, Store.get, Store.own?]
  cases h.store.get? id with
  | none => rfl
  | some c =>
    simp only [Except.map, Option.filter_some, customer, Bool.not_false, Bool.and_true]
    cases c.isOwnedBy caller.user <;> rfl

theorem Route.run_showConversation (reliable : h.Reliable) (customer : caller.role.opensConversations = false)
    (id : ConversationId) : (h.run (Route.showConversation caller id)).1 =
      (h.store.own? caller.user id).elim (.error .notFound) fun own => .json 200 (Conversation.codec.write own.1) := by
  obtain ⟨k, -, -, visible⟩ := run_visibleConversation reliable customer id
  show (h.run ((visibleConversation id caller).bind _)).1 = _
  rw [Hub.run_bind, visible]
  cases h.store.own? caller.user id <;> rfl

theorem Route.run_showMessages (reliable : h.Reliable) (customer : caller.role.opensConversations = false)
    (id : ConversationId) (page : Page) : (h.run (Route.showMessages caller id page)).1 =
      (h.store.own? caller.user id).elim (.error .notFound) fun own => .json 200 (Message.codec.list.write
        ((own.2.drop page.effectiveOffset.toNat).take page.effectiveLimit.toNat)) := by
  obtain ⟨k, working, store, visible⟩ := run_visibleConversation reliable customer id
  show (h.run ((visibleConversation id caller).bind _)).1 = _
  rw [Hub.run_bind, visible]
  cases own : h.store.own? caller.user id with
  | none => rfl
  | some found =>
    obtain ⟨c, history⟩ := found
    obtain ⟨-, -, stored, rfl⟩ := Store.own?_eq_some_iff.mp own
    obtain ⟨_, -, -, run⟩ := working.run_read (.listMessages c.id page.effectiveLimit page.effectiveOffset) rfl _
    refine (congrArg Prod.fst run).trans ?_
    simp only [Store.perform, Store.listMessages, store, stored]
    rfl

theorem Request.route_of_shown {r : Request} {segment : List Char} (shown : r.shown? = some segment) :
    ∃ route, Route.ofPath? (pathOf r.target) = some route ∧
      (route = .conversation segment ∨ route = .messages segment) := by
  unfold Request.shown? at shown
  split at shown
  · next path =>
    cases shown
    exact ⟨_, path, .inl rfl⟩
  · next path =>
    cases shown
    exact ⟨_, path, .inr rfl⟩
  · cases shown

theorem Route.run_withRead {α : Type} {read : Except Rejection α} {next : α → Program Response}
    (same : ∀ value, read = .ok value → (h.run (next value)).1 = (k.run (next value)).1) :
    (h.run (Route.withRead read next)).1 = (k.run (Route.withRead read next)).1 := by
  cases read with
  | error rejection => rfl
  | ok value => exact same value rfl

section Pair
variable (reliable : h.Reliable) (reliable' : k.Reliable) (customer : caller.role.opensConversations = false)
  {r : Request} (known : r.caller = .ok caller) {segment : List Char}
  (same : ∀ id, pathId segment = .ok id → h.store.own? caller.user id = k.store.own? caller.user id)
  (database database' : DatabaseHealth)
include reliable reliable' customer known same

theorem Route.run_respond {route : Route} (shows : route = .conversation segment ∨ route = .messages segment) :
    (h.run (route.respond database r)).1 = (k.run (route.respond database' r)).1 := by
  rcases shows with rfl | rfl
  · simp only [Route.respond, Route.withCaller, known]
    refine Route.run_withRead fun id path => ?_
    rw [Hub.run_map, Hub.run_map, Route.run_showConversation reliable customer,
      Route.run_showConversation reliable' customer, same id path]
  · simp only [Route.respond, Route.withCaller, known]
    refine Route.run_withRead fun id path => Route.run_withRead fun page _ => ?_
    rw [Hub.run_map, Hub.run_map, Route.run_showMessages reliable customer, Route.run_showMessages reliable' customer,
      same id path]

/-- What a customer is answered depends on what it owns under the identifier that it asks for. -/
theorem run_respond (shown : r.shown? = some segment) :
    (h.run (Http.respond database r)).1 = (k.run (Http.respond database' r)).1 := by
  obtain ⟨route, path, shows⟩ := Request.route_of_shown shown
  simp only [Http.respond, path]
  split
  · rfl
  · split
    · rw [Hub.run_map, Hub.run_map, Route.run_respond reliable reliable' customer known same database database' shows]
    · rfl

end Pair

end Shown

end Http

/-- Users and guests who ask for a conversation or for its messages are answered alike by any two hubs whose stores work and
agree on what the party owns, whatever else is stored there or not, and whatever path and page they ask for. A conversation
of somebody else is answered as one that does not exist, even where the stores agree on nothing. -/
theorem customers_see_only_their_own {h k : Hub} (reliable : h.Reliable) (reliable' : k.Reliable) {r : Http.Request}
    {caller : Identity} (known : r.caller = .ok caller) (customer : caller.role = .user ∨ caller.role = .guest)
    {segment : List Char} (shown : r.shown? = some segment) (database database' : Http.DatabaseHealth) :
    (Store.Agrees caller.user h.store k.store →
      (h.run (Http.respond database r)).1 = (k.run (Http.respond database' r)).1) ∧
    ∀ id c, Http.pathId segment = .ok id → h.store.get? id = some c → c.owner ≠ caller.user → k.store.get? id = none →
      (h.run (Http.respond database r)).1 = (k.run (Http.respond database' r)).1 := by
  have limited : caller.role.opensConversations = false := by
    rcases customer with role | role <;> rw [role] <;> rfl
  refine ⟨fun agrees => ?_, fun id c path stored foreign absent => ?_⟩
  · exact Http.run_respond reliable reliable' limited known (fun id _ => agrees.own? id) database database' shown
  · refine Http.run_respond reliable reliable' limited known (fun other path' => ?_) database database' shown
    obtain rfl : id = other := Except.ok.inj (path.symm.trans path')
    rw [Store.own?_eq_none fun d row => ?_, Store.own?_eq_none fun d row => ?_]
    · cases absent.symm.trans row
    · cases stored.symm.trans row
      exact foreign

/-- A guest has the second page of its messages, and finds no trace of a conversation that only one of the stores has. -/
theorem customers_see_only_their_own_of_pages :
    let guest : Identity := ⟨⟨.ofNat 1001⟩, .guest⟩
    let own : Conversation := ⟨⟨.ofNat 1⟩, guest.user, none, "a", .pending, ⟨1, 0⟩, ⟨1, 0⟩⟩
    let foreign : Conversation := { own with id := ⟨.ofNat 2⟩, owner := ⟨.ofNat 1002⟩ }
    let said (n : Nat) (c : Conversation) : Message := ⟨⟨.ofNat n⟩, c.id, c.owner, "b", false, false, ⟨n, 0⟩⟩
    let store : Store := ⟨[foreign, own], [said 3 own, said 4 foreign, said 5 own]⟩
    let hub : Hub := { settings := .default, store, clock := ⟨9, 0⟩, mint := fun n => .ofNat (n + 10) }
    let other : Hub := { hub with clock := ⟨8, 0⟩, store := ⟨[own], [said 3 own, said 5 own]⟩ }
    let get (c : Conversation) (rest : String) : Http.Request :=
      .ofParty guest "GET" ("/api/v1/conversations/" ++ toString c.id ++ rest) [] ""
    let page := get own "/messages?limit=1&offset=1"
    (hub.run (Http.respond .memory page)).1.failed = false ∧
      (hub.run (Http.respond .memory page)).1 = (other.run (Http.respond .healthy page)).1 ∧
      (hub.run (Http.respond .memory (get foreign ""))).1 = (other.run (Http.respond .healthy (get foreign ""))).1 := by
  intro guest own foreign said store hub other get page
  have reliable : hub.Reliable := ⟨rfl, fun _ _ there => by cases there⟩
  have reliable' : other.Reliable := ⟨rfl, fun _ _ there => by cases there⟩
  have facts : (hub.run (Http.respond .memory page)).1.failed = false ∧ Store.Agrees guest.user hub.store other.store ∧
      page.caller = .ok guest ∧ (get foreign "").caller = .ok guest ∧ page.shown?.isSome ∧
      (get foreign "").shown? = some (toString foreign.id).toList ∧
      Http.pathId (toString foreign.id).toList = .ok foreign.id ∧
      hub.store.get? foreign.id = some foreign ∧ foreign.owner ≠ guest.user ∧ other.store.get? foreign.id = none := by
    decide +kernel
  obtain ⟨answered, agrees, known, known', shown, shown', path, stored, owner, absent⟩ := facts
  obtain ⟨segment, shown⟩ := Option.isSome_iff_exists.mp shown
  refine ⟨answered, ?_, ?_⟩
  · exact (customers_see_only_their_own reliable reliable' known (.inr rfl) shown .memory .healthy).1 agrees
  · exact (customers_see_only_their_own reliable reliable' known' (.inr rfl) shown' .memory .healthy).2
      foreign.id foreign path stored owner absent

end HelpDesk
