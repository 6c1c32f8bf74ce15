import HelpDesk.Intake
import HelpDesk.Proofs.ReaderLaws
import Mathlib.Data.String.Basic

/-! How much the texts take up that are read from others. Escapes are never shorter than what they stand for, and trimming
only takes away, so that what is made of a text of a client is no longer than that. -/

namespace HelpDesk

namespace Text

/-- Is there no blank at either end? -/
structure Trimmed (s : String) : Prop where
  first : ∀ c ∈ s.toList.head?, isBlank c = false
  last : ∀ c ∈ s.toList.getLast?, isBlank c = false

theorem trimmed_iff {s : String} :
    s.toList.head?.any isBlank = false ∧ s.toList.getLast?.any isBlank = false ↔ Trimmed s := by
  have blank_free (end? : Option Char) : end?.any isBlank = false ↔ ∀ c ∈ end?, isBlank c = false := by
    cases end? <;> simp
  rw [blank_free, blank_free]
  exact ⟨fun ends => ⟨ends.1, ends.2⟩, fun trimmed => ⟨trimmed.first, trimmed.last⟩⟩

instance (s : String) : Decidable (Trimmed s) :=
  decidable_of_iff _ trimmed_iff

theorem not_blank_of_dropWhile (cs : List Char) {c : Char} (first : c ∈ (cs.dropWhile isBlank).head?) :
    isBlank c = false := by
  have stopped := List.head?_dropWhile_not isBlank cs
  rw [Option.mem_def.mp first] at stopped
  exact stopped

theorem isPrefix_trimChars (cs : List Char) : trimChars cs <+: cs.dropWhile isBlank := by
  have dropped := List.dropWhile_suffix isBlank (l := (cs.dropWhile isBlank).reverse)
  rw [← List.reverse_prefix, List.reverse_reverse] at dropped
  exact dropped

theorem isInfix_trimChars (cs : List Char) : trimChars cs <:+: cs :=
  (isPrefix_trimChars cs).isInfix.trans (List.dropWhile_suffix isBlank).isInfix

theorem trimmed_trim (s : String) : Trimmed (trim s) where
  first c there := by
    rw [toList_trim] at there
    obtain ⟨rest, parts⟩ := isPrefix_trimChars s.toList
    obtain ⟨others, same⟩ := List.head?_eq_some_iff.mp there
    refine not_blank_of_dropWhile s.toList ?_
    rw [← parts, same]
    rfl
  last c there := by
    rw [toList_trim, trimChars, List.getLast?_reverse] at there
    exact not_blank_of_dropWhile _ there

/-- A text that is kept: there is something in it, and no blank at either end. -/
structure Proper (s : String) : Prop where
  nonempty : s ≠ ""
  trimmed : Trimmed s

instance (s : String) : Decidable (Proper s) :=
  decidable_of_iff (s ≠ "" ∧ Trimmed s) ⟨fun both => ⟨both.1, both.2⟩, fun proper => ⟨proper.nonempty, proper.trimmed⟩⟩

theorem proper_trim {s : String} (full : ¬ (trim s).isEmpty = true) : Proper (trim s) :=
  ⟨fun blank => full (String.isEmpty_iff.mpr blank), trimmed_trim s⟩

theorem size_trim_le (s : String) : (trim s).utf8ByteSize ≤ s.utf8ByteSize := by
  rw [trim, String.utf8ByteSize_ofList, ← String.utf8Len_toList s]
  exact String.utf8Len_le_of_infix (isInfix_trimChars s.toList)

end Text

namespace Json

/-- How many bytes there are to read. A byte that is no part of a character is one. -/
def Input.size (input : Input) : Nat :=
  String.utf8Len (input.map fun item => item.getD ' ')

@[simp] theorem Input.size_some (c : Char) (rest : Input) : Input.size (some c :: rest) = c.utf8Size + rest.size := by
  simp [Input.size, Nat.add_comm]

theorem Input.size_inputOf (s : String) : (inputOf s).size = s.utf8ByteSize := by
  simp [Input.size, inputOf, Function.comp_def]

theorem Input.size_le_of_suffix {input rest : Input} (left : rest <:+ input) : rest.size ≤ input.size :=
  String.utf8Len_le_of_suffix (left.map _)

theorem lasting_size (bound : Nat) : Lasting fun input => input.size ≤ bound :=
  fun _ _ left within => (Input.size_le_of_suffix left).trans within

/-- At least so many bytes were read of a character that is not complete yet. -/
def TextState.credit : TextState → Nat
  | .plain | .pair _ => 0
  | .escape | .pairEscape _ => 1
  | .code _ left _ => 5 - left

theorem TextState.size_escaped {c d : Char} (escaped : escaped? c = some d) : d.utf8Size = 1 := by
  simp only [escaped?] at escaped
  repeat' split at escaped
  all_goals first | (obtain rfl := Option.some.inj escaped; rfl) | cases escaped

/-- No character takes up more than was read for it. -/
theorem TextState.size_step {state next : TextState} {c : Char} {made : Option Char}
    (step : state.step c = some (next, made)) :
    String.utf8Len made.toList + next.credit ≤ state.credit + c.utf8Size := by
  have one := c.utf8Size_pos
  cases state with
  | plain =>
    simp only [TextState.step] at step
    split at step
    · cases step
      simp only [credit, Option.toList_none, String.utf8Len_nil]
      omega
    · split at step
      · cases step
      · cases step
        simp [credit]
  | escape =>
    simp only [TextState.step] at step
    split at step
    · cases step
      simp only [credit, Option.toList_none, String.utf8Len_nil]
      omega
    · obtain ⟨d, escaped, same⟩ := Option.map_eq_some_iff.mp step
      cases same
      have short := size_escaped escaped
      simp only [credit, Option.toList_some, String.utf8Len_cons, String.utf8Len_nil]
      omega
  | code high left value =>
    cases left with
    | zero =>
      obtain ⟨d, -, coded⟩ := Option.bind_eq_some_iff.mp step
      have wide : String.utf8Len made.toList + next.credit ≤ 4 := by
        cases high with
        | none =>
          simp only [ofCode] at coded
          split at coded
          · cases coded
          · split at coded <;> cases coded
            · exact Nat.zero_le 4
            · simpa [credit] using Char.utf8Size_le_four _
        | some high =>
          simp only [ofCode] at coded
          split at coded <;> cases coded
          simpa [credit] using Char.utf8Size_le_four _
      exact wide.trans (by simp only [credit]; omega)
    | succ left =>
      obtain ⟨d, -, same⟩ := Option.map_eq_some_iff.mp step
      cases same
      simp only [credit, Option.toList_none, String.utf8Len_nil]
      omega
  | pair high =>
    simp only [TextState.step] at step
    split at step <;> cases step
    simp only [credit, Option.toList_none, String.utf8Len_nil]
    omega
  | pairEscape high =>
    simp only [TextState.step] at step
    split at step <;> cases step
    simp only [credit, Option.toList_none, String.utf8Len_nil]
    omega

theorem size_textFrom {state : TextState} {done cs : List Char} {input rest : Input}
    (read : textFrom state done input = .ok (cs, rest)) :
    String.utf8Len cs + rest.size ≤ String.utf8Len done + state.credit + input.size := by
  induction input generalizing state done with
  | nil => cases read
  | cons item others ih =>
    cases item with
    | none => cases read
    | some c =>
      rw [Input.size_some]
      simp only [textFrom] at read
      split at read
      · obtain ⟨rfl, rfl⟩ := Prod.mk.inj (Except.ok.inj read)
        rw [String.utf8Len_reverse]
        omega
      · split at read
        next next d made =>
          have rest := ih read
          have one := TextState.size_step made
          simp only [Option.toList_some, String.utf8Len_cons, String.utf8Len_nil] at rest one
          omega
        next next made =>
          have rest := ih read
          have one := TextState.size_step made
          simp only [Option.toList_none, String.utf8Len_nil] at one
          omega
        next => cases read

theorem Codec.yields_text (bound : Nat) :
    Codec.text.Yields (fun input => input.size ≤ bound) fun s => s.utf8ByteSize ≤ bound := by
  intro input s rest within read
  have trimmed := lasting_size bound (skipSpace_suffix input) within
  simp only [Codec.text, Codec.spelled, readText, admit?] at read
  split at read
  next v left quoted =>
    obtain ⟨rfl, rfl⟩ := Prod.mk.inj (Except.ok.inj read)
    split at quoted
    next inside opened =>
      rw [opened, Input.size_some] at trimmed
      simp only [readQuoted] at quoted
      split at quoted
      next cs others inner =>
        obtain ⟨rfl, rfl⟩ := Prod.mk.inj (Except.ok.inj quoted)
        have short := size_textFrom inner
        simp only [TextState.credit, String.utf8Len_nil] at short
        refine ⟨?_, show others.size ≤ bound by omega⟩
        show (String.ofList cs).utf8ByteSize ≤ bound
        rw [String.utf8ByteSize_ofList]
        omega
      next => cases quoted
    next => cases quoted
  next => cases read

end Json

/-- What a client may say with a text of so many bytes. -/
theorem InboundFrame.content_short {text content : String} (meant : content? text = some content) :
    Text.Proper content ∧ content.utf8ByteSize ≤ text.utf8ByteSize := by
  obtain ⟨frame, decoded, trimmed⟩ := Option.bind_eq_some_iff.mp meant
  have read : frame.content.utf8ByteSize ≤ text.utf8ByteSize := by
    simp only [Json.Codec.decode?] at decoded
    split at decoded
    next v rest read =>
      split at decoded
      · obtain rfl := Option.some.inj decoded
        obtain ⟨⟨record, left⟩, inside, same⟩ := Json.map_ok read
        cases same
        have fields : Json.Fields.Yields (fun input => input.size ≤ text.utf8ByteSize)
            (.cons "content" Json.Codec.text .never .nil) _ _ :=
          .cons (Json.Codec.yields_text _) (fun _ none => by cases none) (fun _ none => by cases none) .nil
        have whole := Json.Codec.yields_record (Json.lasting_size text.utf8ByteSize) fields
        exact (whole (Json.Input.size_inputOf text).le inside).1.1
      · cases decoded
    next => cases decoded
  dsimp only at trimmed
  split at trimmed
  · cases trimmed
  · next full =>
    obtain rfl := Option.some.inj trimmed
    exact ⟨Text.proper_trim full, (Text.size_trim_le _).trans read⟩

namespace Intake

/-- The content of the opening message and the label of a conversation, as they may be stored. -/
structure Fit (content label : String) : Prop where
  message : Text.Proper content
  size : content.utf8ByteSize ≤ maxContentBytes
  name : Text.Proper label
  length : label.length ≤ maxLabelChars

theorem proper_labelOf (given : Option String) : Text.Proper (labelOf given) := by
  have default : Text.Proper Conversation.defaultLabel := by decide
  cases given with
  | none => exact default
  | some given =>
    simp only [labelOf, Option.map_some]
    split
    · exact default
    · next full => exact Text.proper_trim full

theorem fit_of_check {raw : String} {given : Option String} {content label : String}
    (checked : check raw given = .ok (content, label)) : Fit content label := by
  simp only [check] at checked
  split at checked
  · cases checked
  · next full =>
    split at checked
    · cases checked
    · next small =>
      split at checked
      · cases checked
      · next short =>
        obtain ⟨rfl, rfl⟩ := Prod.mk.inj (Except.ok.inj checked)
        exact ⟨Text.proper_trim full, Nat.le_of_not_lt small, proper_labelOf given, Nat.le_of_not_lt short⟩

end Intake

end HelpDesk
