import HelpDesk.Hub
import HelpDesk.Proofs.RegistryRuns
import HelpDesk.Proofs.StoreHistory

/-! What a request to the hub is to the registry and to the store. To the registry it is at most one event. To the
store it is nothing, if it fails; else it is one request with identifiers that were not handed out before, and then
perhaps somebody else's. -/

namespace HelpDesk

def Request.event? : Request → Option (Registry.Event Parcel)
  | rooms command => some (.command command)
  | join room session identity capacity holding => some (.join room session identity capacity holding)
  | store _ | roomCount => none

namespace Hub

/-- The store of one hub has become that of another by some requests, whose identifiers were minted meanwhile. -/
structure Reaches (h : Hub) (es : List Store.Entry) (k : Hub) : Prop where
  store : k.store = h.store.after es
  mint : k.mint = h.mint
  minted : h.minted ≤ k.minted
  generated : es.flatMap Store.Entry.generated = (List.range (k.minted - h.minted)).map h.fresh

theorem Reaches.refl (h : Hub) : h.Reaches [] h :=
  ⟨rfl, rfl, Nat.le_refl _, by simp⟩

theorem Reaches.of_same {h k : Hub} (store : k.store = h.store) (mint : k.mint = h.mint) (minted : k.minted = h.minted) :
    h.Reaches [] k :=
  ⟨store, mint, Nat.le_of_eq minted.symm, by simp [minted]⟩

theorem Reaches.trans {h k l : Hub} {first last : List Store.Entry} (a : h.Reaches first k) (b : k.Reaches last l) :
    h.Reaches (first ++ last) l := by
  refine ⟨?_, b.mint.trans a.mint, Nat.le_trans a.minted b.minted, ?_⟩
  · rw [b.store, a.store, Store.after_append]
  · have split : l.minted - h.minted = (k.minted - h.minted) + (l.minted - k.minted) := by
      have := a.minted
      have := b.minted
      omega
    rw [List.flatMap_append, a.generated, b.generated, split, List.range_add, List.map_append, List.map_map]
    congr 1
    apply List.map_congr_left
    intro n _
    have shift : k.minted + n = h.minted + (k.minted - h.minted + n) := by
      have := a.minted
      omega
    simp only [fresh, Function.comp_apply, a.mint, shift]

/-- No identifier that is minted from one hub to another is minted twice or is that of a stored conversation. -/
def Distinct (h k : Hub) : Prop :=
  (h.store.conversations.map (·.id.uuid) ++ (List.range (k.minted - h.minted)).map h.fresh).Nodup

theorem Reaches.fresh {h k : Hub} {es : List Store.Entry} (reaches : h.Reaches es k) (distinct : h.Distinct k) :
    Store.Fresh h.store es := by
  rw [Store.Fresh, reaches.generated]
  exact distinct

theorem Reaches.distinct_left {h k l : Hub} {first last : List Store.Entry} (a : h.Reaches first k)
    (b : k.Reaches last l) (distinct : h.Distinct l) : h.Distinct k := by
  rw [Distinct, ← a.generated]
  exact ((a.trans b).fresh distinct).left

theorem Reaches.distinct_right {h k l : Hub} {first last : List Store.Entry} (a : h.Reaches first k)
    (b : k.Reaches last l) (distinct : h.Distinct l) : k.Distinct l := by
  rw [Distinct, ← b.generated, a.store]
  exact ((a.trans b).fresh distinct).after

theorem Reaches.grows {h k : Hub} {es : List Store.Entry} (reaches : h.Reaches es k) (distinct : h.Distinct k) :
    Store.Grows h.store k.store := by
  rw [reaches.store]
  exact Store.Grows.after (reaches.fresh distinct)

theorem Reaches.row {h k : Hub} {es : List Store.Entry} (reaches : h.Reaches es k) {id : ConversationId} {c : Conversation}
    (stored : h.store.get? id = some c) : ∃ d, k.store.get? id = some d ∧ Store.Follows c d := by
  rw [reaches.store]
  exact Store.row_after stored es

def entry (h : Hub) (call : Store.Call) : Store.Entry :=
  ⟨h.readings, h.fresh, call⟩

/-- Whatever failures are to come, nobody moves a conversation behind the back of a request. -/
def Undisturbed (h : Hub) : Prop :=
  ∀ method, ∀ fault ∈ h.faults method, ∀ status, fault ≠ some (.overtaken status)

/-- The store does not fail. -/
def Reliable (h : Hub) : Prop :=
  h.reachable = true ∧ ∀ method, ∀ fault ∈ h.faults method, fault = none

theorem Reliable.undisturbed {h : Hub} (reliable : h.Reliable) : h.Undisturbed := by
  intro method fault there status same
  cases (reliable.2 method fault there).symm.trans same

/-- What fails in one hub fails in another still, if it has not failed meanwhile. -/
structure Inherits (h k : Hub) : Prop where
  reachable : k.reachable = h.reachable
  faults : ∀ method, k.faults method ⊆ h.faults method

theorem Inherits.refl (h : Hub) : h.Inherits h :=
  ⟨rfl, fun _ => List.Subset.refl _⟩

/-- How a request to the store goes: it fails, it is carried out, or it is carried out and overtaken. -/
inductive Goes (h : Hub) (call : Store.Call) : Except StoreError call.Answer × Hub → Prop
  | failed (error : StoreError) (faults : Store.Method → List (Option Fault)) (inherits : h.Inherits { h with faults })
      (unreliable : ¬ h.Reliable) : Goes h call (.error error, { h with faults })
  | performed (faults : Store.Method → List (Option Fault)) (inherits : h.Inherits { h with faults }) :
      Goes h call (({ h with faults } : Hub).perform call)
  | overtaken (status : Status) (faults : Store.Method → List (Option Fault)) (inherits : h.Inherits { h with faults })
      (disturbed : ¬ h.Undisturbed) {answer : call.Answer} {k : Hub}
      (performed : ({ h with faults } : Hub).perform call = (.ok answer, k)) :
      Goes h call (.ok answer, k.moveIfPossible call.subject status)

/-- A request to the store uses up the next fault of its kind, if there is one. -/
theorem nextFault_inherits (h : Hub) (method : Store.Method) :
    ∃ faults, h.nextFault method = ((h.nextFault method).1, { h with faults }) ∧ h.Inherits { h with faults } ∧
      ∀ fault, (h.nextFault method).1 = some fault → some fault ∈ h.faults method := by
  simp only [nextFault]
  split
  · exact ⟨h.faults, rfl, .refl h, fun fault none => by cases none⟩
  · next first rest found =>
    refine ⟨_, rfl, ⟨rfl, fun m => ?_⟩, ?_⟩
    · by_cases same : m = method
      · subst same
        simp [found]
      · simp [same]
    · rintro fault rfl
      simp [found]

theorem callStore_goes (h : Hub) (call : Store.Call) : Goes h call (h.callStore call) := by
  cases reachable : h.reachable with
  | false =>
    simp only [callStore, reachable, Bool.not_false, if_true]
    refine .failed _ h.faults (.refl h) fun reliable => ?_
    cases reachable.symm.trans reliable.1
  | true =>
    obtain ⟨faults, same, inherits, next⟩ := h.nextFault_inherits call.method
    simp only [callStore, reachable, Bool.not_true, Bool.false_eq_true, if_false]
    rw [same]
    rcases found : (h.nextFault call.method).1 with _ | failure | status
    · exact .performed faults inherits
    · refine .failed _ faults inherits fun reliable => ?_
      cases reliable.2 call.method _ (next _ found)
    · have disturbed : ¬ h.Undisturbed := fun undisturbed => undisturbed call.method _ (next _ found) status rfl
      have carried : Goes h call (({ h with faults } : Hub).perform call) := .performed faults inherits
      dsimp only
      rcases performed : Hub.perform _ call with ⟨error | answer, k⟩
      · rw [performed] at carried
        exact carried
      · exact .overtaken status faults inherits disturbed performed

/-- To be carried out is the same whatever faults are to come. -/
theorem perform_faults (h : Hub) (faults : Store.Method → List (Option Fault)) (call : Store.Call) :
    ({ h with faults } : Hub).perform call = ((h.perform call).1, { (h.perform call).2 with faults }) := by
  have fresh : ({ h with faults } : Hub).fresh = h.fresh := rfl
  have readings : ({ h with faults } : Hub).readings = h.readings := rfl
  simp only [perform, fresh, readings]
  cases h.store.perform h.readings h.fresh call <;> rfl

/-- What becomes of a request to the store. -/
inductive Called (h : Hub) (call : Store.Call) : Except StoreError call.Answer × Hub → Prop
  /-- it fails -/
  | failed (error : StoreError) (l : Hub) (same : h.Reaches [] l) (registry : l.registry = h.registry) :
      Called h call (.error error, l)
  /-- it is carried out, which comes to `k`, and perhaps there are others -/
  | carried (answer : call.Answer) (k l : Hub)
      (performed : h.store.perform h.readings h.fresh call = .ok (answer, k.store))
      (reaches : h.Reaches [h.entry call] k) (others : List Store.Entry) (overtaken : k.Reaches others l)
      (registry : l.registry = h.registry) : Called h call (.ok answer, l)

theorem moveIfPossible_reaches (h : Hub) (id : ConversationId) (status : Status) :
    h.Reaches [h.entry (.setStatus id status none)] (h.moveIfPossible id status) := by
  have generated : [h.entry (.setStatus id status none)].flatMap Store.Entry.generated =
      (List.range (h.minted - h.minted)).map h.fresh := by
    simp [Store.Entry.generated, entry, Store.Call.creates]
  simp only [moveIfPossible]
  cases moved : h.store.setStatus h.clock id status none with
  | ok result => exact ⟨by simp [Store.next, entry, Store.perform, moved], rfl, Nat.le_refl _, generated⟩
  | error error => exact ⟨by simp [Store.next, entry, Store.perform, moved], rfl, Nat.le_refl _, generated⟩

theorem moveIfPossible_registry (h : Hub) (id : ConversationId) (status : Status) :
    (h.moveIfPossible id status).registry = h.registry := by
  simp only [moveIfPossible]
  cases h.store.setStatus h.clock id status none <;> rfl

theorem perform_called (h : Hub) (call : Store.Call) : Called h call (h.perform call) := by
  simp only [perform]
  cases performed : h.store.perform h.readings h.fresh call with
  | error error => exact .failed error h (.refl h) rfl
  | ok result =>
    obtain ⟨answer, store⟩ := result
    have reaches : h.Reaches [h.entry call] { h with store, minted := h.minted + call.creates } := by
      refine ⟨?_, rfl, Nat.le_add_right _ _, ?_⟩
      · simp [Store.next, entry, performed]
      · simp [Store.Entry.generated, entry]
    exact .carried answer _ _ performed reaches [] (.refl _) rfl

theorem Called.of_faults {h : Hub} {faults : Store.Method → List (Option Fault)} {call : Store.Call}
    {outcome : Except StoreError call.Answer × Hub} (called : Called { h with faults } call outcome) :
    Called h call outcome := by
  have start : h.Reaches [] { h with faults } := .of_same rfl rfl rfl
  cases called with
  | failed error l same registry => exact .failed error l (start.trans same) registry
  | carried answer k l performed reaches others overtaken registry =>
    exact .carried answer k l performed (start.trans reaches) others overtaken registry

theorem callStore_called (h : Hub) (call : Store.Call) : Called h call (h.callStore call) := by
  have goes := h.callStore_goes call
  generalize h.callStore call = outcome at goes
  cases goes with
  | failed error faults => exact (Called.failed error _ (.refl _) rfl : Called { h with faults } call _).of_faults
  | performed faults => exact (perform_called _ call).of_faults
  | overtaken status faults inherits disturbed performed =>
    have called := perform_called { h with faults } call
    rw [performed] at called
    cases called with
    | carried _ _ _ performed reaches others further registry =>
      have more := further.trans (moveIfPossible_reaches _ call.subject status)
      have registry' := (moveIfPossible_registry _ call.subject status).trans registry
      exact (Called.carried _ _ _ performed reaches _ more registry').of_faults

/-- To the registry, a request is at most one event. -/
theorem answer_registry (h : Hub) (request : Request) :
    (h.answer request).2.registry = h.registry.after request.event?.toList := by
  cases request with
  | store call =>
    have called := h.callStore_called call
    show (h.callStore call).2.registry = h.registry
    generalize h.callStore call = outcome at called
    cases called with
    | failed error l same registry => exact registry
    | carried answer k l performed reaches others overtaken registry => exact registry
  | rooms command => rfl
  | join room session identity capacity holding => rfl
  | roomCount => rfl

theorem answer_reaches (h : Hub) (request : Request) : ∃ es, h.Reaches es (h.answer request).2 := by
  cases request with
  | store call =>
    have called := h.callStore_called call
    show ∃ es, h.Reaches es (h.callStore call).2
    generalize h.callStore call = outcome at called
    cases called with
    | failed error l same registry => exact ⟨[], same⟩
    | carried answer k l performed reaches others overtaken registry => exact ⟨_, reaches.trans overtaken⟩
  | rooms command => exact ⟨[], .of_same rfl rfl rfl⟩
  | join room session identity capacity holding => exact ⟨[], .of_same rfl rfl rfl⟩
  | roomCount => exact ⟨[], .refl h⟩

/-- A conversation that is read is stored like that. -/
theorem row_of_got {h : Hub} {id : ConversationId} {c : Conversation}
    (got : (h.answer (.store (.get id))).1 = (.ok c : Except StoreError Conversation)) : h.store.get? id = some c := by
  have called := h.callStore_called (.get id)
  change (h.callStore (.get id)).1 = _ at got
  generalize h.callStore (.get id) = outcome at called got
  cases called with
  | failed error l same registry => cases got
  | carried answer k l performed reaches others overtaken registry =>
    generalize k.store = t at performed
    cases Store.performed_of_ok performed with
    | got stored =>
      cases got
      exact stored

end Hub

end HelpDesk
