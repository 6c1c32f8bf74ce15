import HelpDesk.Status
import HelpDesk.Proofs.LetterCases
import HelpDesk.Proofs.TextSizes

/-! Which texts name a role or a status. They are lower-cased in full, which turns some characters beyond ASCII into ASCII
letters, one of them into two characters, and looks at what stands beside a sigma. None of this lets a look-alike through:
the accepted texts are the names in any ASCII letter case. -/

namespace HelpDesk

namespace Text
variable {c : Char} {s name : String}

/-- The same text but for the case of ASCII letters. -/
def SameLetters (s t : String) : Prop :=
  s.toList.map Char.toLower = t.toList.map Char.toLower

instance (s t : String) : Decidable (SameLetters s t) :=
  inferInstanceAs (Decidable (_ = _))

theorem Plain.toLower_eq (plain : Plain c) : c.toLower = c := by
  have small : 'a'.val ≤ c.val := of_decide_eq_true (Bool.and_eq_true_iff.mp plain.1).1
  unfold Char.toLower
  split
  next capital =>
    have bounds : 97 ≤ c.toNat ∧ c.toNat ≤ 90 := ⟨UInt32.le_iff_toNat_le.mp small, UInt32.le_iff_toNat_le.mp capital.2⟩
    omega
  next => rfl

theorem sameLetters_iff (plain : ∀ c ∈ name.toList, Plain c) : SameLetters s name ↔ lowerCase s = name := by
  have small : name.toList.map Char.toLower = name.toList :=
    (List.map_congr_left fun c there => (plain c there).toLower_eq).trans (List.map_id _)
  rw [lowerCase_eq_iff plain, SameLetters, small]

theorem not_blank_of_toLower (plain : Plain c.toLower) : isBlank c = false := by
  have table : ∀ n < 128, Plain (Char.ofNat n).toLower → isBlank (Char.ofNat n) = false := by
    decide +kernel
  have blank := table _ (plain_of_toLower plain)
  rw [Char.ofNat_toNat] at blank
  exact blank plain

/-- A text without blanks has none at its ends. -/
theorem trimmed_of_blankless (blankless : ∀ c ∈ s.toList, isBlank c = false) : Trimmed s where
  first c there := blankless c (List.mem_of_mem_head? there)
  last c there := blankless c (List.mem_of_getLast? there)

end Text

section Names
open Text
variable {α : Type} {read : String → Option α} {names : List (String × α)}

/-- A reader accepts the names in any ASCII letter case and no look-alike, though it compares them with the text as it is
after full Unicode lower-casing. -/
structure ReadsNames (read : String → Option α) (names : List (String × α)) : Prop where
  compares : ∀ s v, read s = some v ↔ (lowerCase s, v) ∈ names
  reads : ∀ s v, read s = some v ↔ ∃ name, (name, v) ∈ names ∧ SameLetters s name
  refuses_beyond_ascii : ∀ s, (∃ c ∈ s.toList, 128 ≤ c.toNat) → read s = none
  refuses_padded : ∀ s, ¬ Trimmed s → read s = none

theorem ReadsNames.of_plain {name : α → String} (listed : ∀ s v, (s, v) ∈ names ↔ name v = s)
    (plain : ∀ v, ∀ c ∈ (name v).toList, Plain c) (compares : ∀ s v, read s = some v ↔ name v = lowerCase s) :
    ReadsNames read names := by
  have letters : ∀ s v, read s = some v → ∀ c ∈ s.toList, Plain c.toLower := by
    intro s v found
    have lowered := ((compares s v).mp found).symm
    exact plain_letters (plain v) ((lowerCase_eq_iff (plain v)).mp lowered)
  refine ⟨fun s v => ?_, fun s v => ?_, fun s other => ?_, fun s padded => ?_⟩
  · rw [compares, listed]
  · rw [compares, eq_comm, ← sameLetters_iff (plain v)]
    simp only [listed, exists_eq_left']
  · obtain ⟨c, there, beyond⟩ := other
    refine Option.eq_none_iff_forall_ne_some.mpr fun v found => ?_
    have ascii := plain_of_toLower (letters s v found c there)
    omega
  · refine Option.eq_none_iff_forall_ne_some.mpr fun v found => padded ?_
    exact trimmed_of_blankless fun c there => not_blank_of_toLower (letters s v found c there)

end Names

def Role.names : List (String × Role) :=
  [("user", .user), ("guest", .guest), ("admin", .admin), ("superadmin", .superadmin), ("system", .system)]

def Status.names : List (String × Status) :=
  [("pending", .pending), ("open", .opened), ("closed", .closed)]

theorem Role.mem_names_iff (s : String) (role : Role) : (s, role) ∈ names ↔ role.toString = s := by
  cases role <;> simp [names, toString, eq_comm]

theorem Status.mem_names_iff (s : String) (status : Status) : (s, status) ∈ names ↔ status.toString = s := by
  cases status <;> simp [names, toString, eq_comm]

theorem Role.readsNames : ReadsNames ofString? names :=
  .of_plain mem_names_iff plain_toString fun _ _ => ofName?_eq_some_iff

theorem Status.readsNames : ReadsNames ofString? names :=
  .of_plain mem_names_iff plain_toString fun _ _ => ofName?_eq_some_iff

/-- Roles and statuses are read from their names in any ASCII letter case, and from nothing else. -/
theorem names_admit_no_lookalikes :
    ReadsNames Role.ofString? Role.names ∧ ReadsNames Status.ofString? Status.names :=
  ⟨Role.readsNames, Status.readsNames⟩

/-- Names in mixed case, and with a dotted capital I, a long s, a sigma, a Cyrillic o and a blank. -/
theorem names_admit_no_lookalikes_of_dotted_capital :
    Role.ofString? "SuperADMIN" = some .superadmin ∧ Role.ofString? "ADMİN" = none ∧ Role.ofString? "ſystem" = none ∧
    Status.ofString? "ClosED" = some .closed ∧ Status.ofString? "CLOΣED" = none ∧ Status.ofString? "оpen" = none ∧
    Status.ofString? "open\u2003" = none := by
  obtain ⟨roles, statuses⟩ := names_admit_no_lookalikes
  exact ⟨(roles.reads _ _).mpr ⟨"superadmin", by decide, by decide⟩,
    roles.refuses_beyond_ascii _ ⟨'İ', by decide, by decide⟩, roles.refuses_beyond_ascii _ ⟨'ſ', by decide, by decide⟩,
    (statuses.reads _ _).mpr ⟨"closed", by decide, by decide⟩,
    statuses.refuses_beyond_ascii _ ⟨'Σ', by decide, by decide⟩, statuses.refuses_beyond_ascii _ ⟨'о', by decide, by decide⟩,
    statuses.refuses_padded _ (by decide)⟩

end HelpDesk
