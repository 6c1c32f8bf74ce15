import HelpDesk.Proofs.TextSizes
import Mathlib.Data.List.TakeWhile

/-! What trimming leaves of a text. It is the one part that begins and ends with no blank and has nothing but blanks
around it, so a text that is trimmed stays as it is, and nothing is left of a text exactly if it is blank. -/

namespace HelpDesk.Text

/-- Nothing but blanks. -/
def Blank (s : String) : Prop :=
  ∀ c ∈ s.toList, isBlank c = true

instance (s : String) : Decidable (Blank s) :=
  List.decidableBAll _ s.toList

theorem dropWhile_blanks {blanks : List Char} (blank : ∀ c ∈ blanks, isBlank c = true) (cs : List Char) :
    (blanks ++ cs).dropWhile isBlank = cs.dropWhile isBlank := by
  rw [List.dropWhile_append, List.dropWhile_eq_nil_iff.mpr blank, List.isEmpty_nil, if_pos rfl]

theorem dropWhile_of_head {cs : List Char} (first : ∀ c ∈ cs.head?, isBlank c = false) : cs.dropWhile isBlank = cs := by
  cases cs with
  | nil => rfl
  | cons c cs => simp [first c rfl]

/-- A text begins with blanks, and goes on with what is left without them. -/
theorem exists_blanks (cs : List Char) :
    ∃ blanks, (∀ c ∈ blanks, isBlank c = true) ∧ cs = blanks ++ cs.dropWhile isBlank :=
  ⟨cs.takeWhile isBlank, fun _ there => List.mem_takeWhile_imp there, List.takeWhile_append_dropWhile.symm⟩

theorem trimChars_parts (cs : List Char) : ∃ before after,
    (∀ c ∈ before ++ after, isBlank c = true) ∧ cs = before ++ trimChars cs ++ after := by
  obtain ⟨before, first, front⟩ := exists_blanks cs
  obtain ⟨after, last, back⟩ := exists_blanks (cs.dropWhile isBlank).reverse
  refine ⟨before, after.reverse, ?_, ?_⟩
  · intro c there
    rcases List.mem_append.mp there with early | late
    · exact first c early
    · exact last c (List.mem_reverse.mp late)
  · have reversed := congrArg List.reverse back
    rw [List.reverse_reverse, List.reverse_append] at reversed
    rw [List.append_assoc, trimChars, ← reversed]
    exact front

theorem trimChars_of_parts {before cs after : List Char} (blank : ∀ c ∈ before ++ after, isBlank c = true)
    (first : ∀ c ∈ cs.head?, isBlank c = false) (last : ∀ c ∈ cs.getLast?, isBlank c = false) :
    trimChars (before ++ cs ++ after) = cs := by
  have early : ∀ c ∈ before, isBlank c = true := fun c there => blank c (List.mem_append_left _ there)
  have late : ∀ c ∈ after, isBlank c = true := fun c there => blank c (List.mem_append_right _ there)
  have late' : ∀ c ∈ after.reverse, isBlank c = true := fun c there => late c (List.mem_reverse.mp there)
  rw [trimChars, List.append_assoc, dropWhile_blanks early]
  cases cs with
  | nil => simp [List.dropWhile_eq_nil_iff.mpr late]
  | cons c cs =>
    have front : ((c :: cs) ++ after).dropWhile isBlank = (c :: cs) ++ after := by
      rw [List.cons_append, List.dropWhile_cons_of_neg (by simp [first c rfl])]
    rw [front, List.reverse_append, dropWhile_blanks late', dropWhile_of_head, List.reverse_reverse]
    rwa [List.head?_reverse]

/-- The trimmed text is the only part that can be called so. -/
theorem trim_eq_iff {s t : String} : trim s = t ↔ Trimmed t ∧ ∃ before after,
    s.toList = before ++ t.toList ++ after ∧ ∀ c ∈ before ++ after, isBlank c = true := by
  constructor
  · rintro rfl
    obtain ⟨before, after, blank, parts⟩ := trimChars_parts s.toList
    exact ⟨trimmed_trim s, before, after, by rw [toList_trim]; exact parts, blank⟩
  · rintro ⟨trimmed, before, after, parts, blank⟩
    rw [trim, parts, trimChars_of_parts blank trimmed.first trimmed.last, String.ofList_toList]

theorem trim_of_trimmed {s : String} (trimmed : Trimmed s) : trim s = s :=
  trim_eq_iff.mpr ⟨trimmed, [], [], by simp, by simp⟩

theorem trim_trim (s : String) : trim (trim s) = trim s :=
  trim_of_trimmed (trimmed_trim s)

theorem trim_eq_empty_iff {s : String} : trim s = "" ↔ Blank s := by
  rw [trim_eq_iff]
  constructor
  · rintro ⟨-, before, after, parts, blank⟩ c there
    rw [parts] at there
    exact blank c (by simpa using there)
  · exact fun blank => ⟨⟨by simp, by simp⟩, s.toList, [], by simp, by rwa [List.append_nil]⟩

theorem isEmpty_trim {s : String} : (trim s).isEmpty = true ↔ Blank s := by
  rw [String.isEmpty_iff, trim_eq_empty_iff]

theorem blank_trim {s : String} : Blank (trim s) ↔ Blank s := by
  rw [← trim_eq_empty_iff, trim_trim, trim_eq_empty_iff]

end HelpDesk.Text
