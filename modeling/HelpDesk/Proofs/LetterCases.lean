import HelpDesk.Identity
import HelpDesk.Status
import Mathlib.Data.String.Basic
import Mathlib.Data.List.Basic

/-! Names in any letter case. Texts are lower-cased in full before they are compared with names, but no character beyond ASCII
becomes a small ASCII letter other than `k`, or only with a mark that is none. So a text is taken for a name without that
letter exactly if it is the name but for the case of ASCII letters. -/

namespace HelpDesk

namespace Text
variable {c : Char} {s name : String}

/-- A small ASCII letter that is the small letter of no character beyond ASCII. -/
def Plain (c : Char) : Prop :=
  c.isLower = true ∧ c ≠ 'k'

instance (c : Char) : Decidable (Plain c) :=
  inferInstanceAs (Decidable (_ ∧ _))

theorem plain_of_all (all : s.toList.all (fun c => decide (Plain c)) = true) : ∀ c ∈ s.toList, Plain c :=
  fun c there => of_decide_eq_true (List.all_eq_true.mp all c there)

theorem Plain.ascii (plain : Plain c) : c.toNat < 128 := by
  have small : c.val ≤ 'z'.val := of_decide_eq_true (Bool.and_eq_true_iff.mp plain.1).2
  exact Nat.lt_of_le_of_lt (UInt32.le_iff_toNat_le.mp small) (by decide)

/-- Only the first run of capitals covers ASCII characters. -/
theorem LetterRun.find?_of_ascii {n : Nat} (ascii : n < 128) :
    capitals.find? (·.covers n) = (capitals.take 1).find? (·.covers n) := by
  have table : ∀ run ∈ capitals.drop 1, 128 ≤ run.first := by
    decide +kernel
  have beyond : (capitals.drop 1).find? (·.covers n) = none := by
    refine List.find?_eq_none.mpr fun run there reached => ?_
    simp only [covers, Bool.and_eq_true, decide_eq_true_eq] at reached
    have first := table run there
    omega
  have parts := congrArg (List.find? (·.covers n)) (List.take_append_drop 1 capitals)
  rw [← parts, List.find?_append, beyond, Option.or_none]

theorem lowerChar_of_ascii (ascii : c.toNat < 128) : lowerChar c = [c.toLower] := by
  have table : ∀ n < 128, ((LetterRun.capitals.take 1).find? (·.covers n)).elim n (·.lower n) =
      (Char.ofNat n).toLower.toNat := by
    decide +kernel
  have lowered := table _ ascii
  rw [Char.ofNat_toNat] at lowered
  rw [lowerChar, if_neg (by omega), LetterRun.find?_of_ascii ascii]
  split
  next run found =>
    rw [found, Option.elim_some] at lowered
    rw [lowered, Char.ofNat_toNat]
  next absent =>
    rw [absent, Option.elim_none] at lowered
    rw [← Char.toNat_inj.mp lowered]

/-- A number of at least 128 is that of no character, or of one beyond ASCII. -/
theorem not_plain_ofNat {n : Nat} (beyond : 128 ≤ n) : ¬ Plain (Char.ofNat n) := by
  intro plain
  have ascii := plain.ascii
  by_cases valid : n.isValidChar
  · have same : (Char.ofNat n).toNat = n := by
      rw [Char.ofNat, dif_pos valid]
      rfl
    omega
  · rw [Char.ofNat, dif_neg valid] at plain
    exact absurd plain.1 (by decide)

/-- A run of capitals is that of ASCII, or its small letters are beyond ASCII; or it is the sign for kelvins. -/
theorem LetterRun.not_plain {run : LetterRun} {n : Nat} (there : run ∈ capitals) (covers : run.covers n = true)
    (beyond : 128 ≤ n) : ¬ Plain (Char.ofNat (run.lower n)) := by
  have table : ∀ run ∈ capitals,
      run.last < 128 ∨ 128 ≤ run.first + run.shift ∨ run.first = run.last ∧ run.lower run.first = 'k'.toNat := by
    decide +kernel
  simp only [LetterRun.covers, Bool.and_eq_true, decide_eq_true_eq] at covers
  obtain ⟨⟨first, last⟩, -⟩ := covers
  rcases table run there with ascii | high | ⟨single, kelvin⟩
  · omega
  · apply not_plain_ofNat
    unfold LetterRun.lower
    omega
  · obtain rfl : n = run.first := by omega
    rw [kelvin, Char.ofNat_toNat]
    exact fun plain => plain.2 rfl

/-- What becomes a plain letter is an ASCII character. -/
theorem ascii_of_plain (plain : ∀ d ∈ lowerChar c, Plain d) : c.toNat < 128 := by
  by_contra beyond
  unfold lowerChar at plain
  split at plain
  next => exact absurd (plain (Char.ofNat 0x307) (by simp)) (by decide)
  next =>
    split at plain
    next run found =>
      have covers := List.find?_some found
      exact LetterRun.not_plain (List.mem_of_find?_eq_some found) covers (by omega) (plain _ List.mem_cons_self)
    next => exact beyond (plain c List.mem_cons_self).ascii

theorem plain_of_toLower (plain : Plain c.toLower) : c.toNat < 128 := by
  unfold Char.toLower at plain
  split at plain
  next capital =>
    have bounds : 65 ≤ c.toNat ∧ c.toNat ≤ 90 := by
      simpa [UInt32.le_iff_toNat_le] using capital
    omega
  next => exact plain.ascii

/-- Whatever stands beside it, the small letter of a capital sigma is beyond ASCII. -/
theorem not_plain_lowerSigma (before after : List Char) : ¬ Plain (lowerSigma before after) := by
  unfold lowerSigma
  split <;> decide

theorem lowerFrom_of_ascii (before : List Char) {cs : List Char} (ascii : ∀ c ∈ cs, c.toNat < 128) :
    lowerFrom before cs = cs.map Char.toLower := by
  induction cs generalizing before with
  | nil => rfl
  | cons c after ih =>
    obtain ⟨first, others⟩ := List.forall_mem_cons.mp ascii
    have other : c ≠ 'Σ' := by
      rintro rfl
      exact absurd first (by decide)
    simp only [lowerFrom, if_neg other, lowerChar_of_ascii first, ih _ others]
    rfl

theorem ascii_of_lowerFrom {before cs : List Char} (plain : ∀ d ∈ lowerFrom before cs, Plain d) :
    ∀ c ∈ cs, c.toNat < 128 := by
  induction cs generalizing before with
  | nil => simp
  | cons c after ih =>
    simp only [lowerFrom, List.forall_mem_append] at plain
    obtain ⟨first, others⟩ := plain
    refine List.forall_mem_cons.mpr ⟨?_, ih others⟩
    split at first
    next => exact absurd (first _ List.mem_cons_self) (not_plain_lowerSigma before after)
    next => exact ascii_of_plain first

/-- Each character of such a text is a plain letter in one case or the other. -/
theorem plain_letters (plain : ∀ c ∈ name.toList, Plain c) (same : s.toList.map Char.toLower = name.toList) :
    ∀ c ∈ s.toList, Plain c.toLower :=
  fun _ there => plain _ (same ▸ List.mem_map_of_mem there)

theorem lowerCase_eq_iff (plain : ∀ c ∈ name.toList, Plain c) :
    lowerCase s = name ↔ s.toList.map Char.toLower = name.toList := by
  rw [← String.toList_inj, lowerCase, String.toList_ofList]
  constructor
  · intro same
    rw [← lowerFrom_of_ascii [] (ascii_of_lowerFrom (same ▸ plain)), same]
  · intro same
    rw [lowerFrom_of_ascii [] fun c there => plain_of_toLower (plain_letters plain same c there), same]

end Text

/-- Values that are found by their names are found by nothing else. -/
theorem find?_name_eq_some_iff {α : Type} {values : List α} {name : α → String} {s : String} {v : α}
    (found : ∀ v, values.find? (name · == name v) = some v) : values.find? (name · == s) = some v ↔ name v = s := by
  constructor
  · intro there
    have named := List.find?_some there
    exact beq_iff_eq.mp named
  · rintro rfl
    exact found v

namespace Role
variable {role : Role} {s : String}

theorem ofName?_eq_some_iff : ofName? s = some role ↔ role.toString = s :=
  find?_name_eq_some_iff fun role => by cases role <;> decide

theorem plain_toString (role : Role) : ∀ c ∈ role.toString.toList, Text.Plain c :=
  Text.plain_of_all (by cases role <;> decide)

/-- A text is read as a role exactly if it is the role's name but for the case of ASCII letters. -/
theorem ofString?_eq_some_iff : ofString? s = some role ↔ s.toList.map Char.toLower = role.toString.toList := by
  rw [ofString?, ofName?_eq_some_iff, eq_comm, Text.lowerCase_eq_iff role.plain_toString]

end Role

namespace Status
variable {status : Status} {s : String}

theorem ofName?_eq_some_iff : ofName? s = some status ↔ status.toString = s :=
  find?_name_eq_some_iff fun status => by cases status <;> decide

theorem plain_toString (status : Status) : ∀ c ∈ status.toString.toList, Text.Plain c :=
  Text.plain_of_all (by cases status <;> decide)

end Status

end HelpDesk
