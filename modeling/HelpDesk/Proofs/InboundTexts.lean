import HelpDesk.Frame
import HelpDesk.Proofs.TextRecords
import HelpDesk.Proofs.TrimmedTexts

/-! The one kind of text that clients send: which texts have a content, and what it is. -/

namespace HelpDesk
open Json

namespace Json

theorem decode?_map {α β : Type} (codec : Codec α) (back : β → α) (forth : α → β) (s : String) :
    (codec.map back forth).decode? s = (codec.decode? s).map forth := by
  simp only [Codec.decode?, Codec.map]
  cases codec.read (inputOf s) with
  | error fault => rfl
  | ok read =>
    dsimp only [Except.map]
    split <;> rfl

end Json

namespace InboundFrame
variable {s text content : String}

theorem decode?_eq_some_iff : codec.decode? text = some ⟨s⟩ ↔
    ∃ p : Padded, p.text = text.toList ∧ (ObjectText "content" s p.core ∨ ArrayText s p.core) := by
  rw [← decode?_record_iff, codec, decode?_map, Option.map_eq_some_iff]
  constructor
  · rintro ⟨⟨t, ⟨⟩⟩, decoded, same⟩
    obtain rfl := InboundFrame.mk.inj same
    exact decoded
  · exact fun decoded => ⟨(s, ()), decoded, rfl⟩

theorem content?_of_decode? (decoded : codec.decode? text = some ⟨s⟩) :
    content? text = if Text.Blank s then none else some (Text.trim s) := by
  rw [content?, decoded, Option.bind_some]
  exact if_congr Text.isEmpty_trim rfl rfl

theorem content?_eq_some_iff : content? text = some content ↔
    ∃ s, codec.decode? text = some ⟨s⟩ ∧ Text.trim s = content ∧ Text.Proper content := by
  constructor
  · intro meant
    obtain ⟨⟨s⟩, decoded, kept⟩ := Option.bind_eq_some_iff.mp meant
    dsimp only at kept
    split at kept
    next => cases kept
    next full =>
      obtain rfl := Option.some.inj kept
      exact ⟨s, decoded, rfl, Text.proper_trim full⟩
  · rintro ⟨s, decoded, rfl, proper⟩
    rw [content?_of_decode? decoded, if_neg (mt Text.trim_eq_empty_iff.mpr proper.nonempty)]

/-- An object begins with its bracket, so a text that begins with another token is none. -/
theorem not_object {p : Padded} {c : Char} {cs : List Char} (whole : p.text = c :: cs) (solid : isSpace c = false)
    (other : c ≠ '\x7b') : ¬ ObjectText "content" s p.core := by
  intro object
  obtain ⟨before, m, after, -, -, core⟩ := object.parts
  obtain ⟨lead, _, trail, spaces⟩ := p
  obtain rfl : _ = _ := core
  cases lead with
  | nil => exact other (List.cons.inj whole).1.symm
  | cons d lead =>
    obtain rfl : d = c := (List.cons.inj whole).1
    have space := spaces d List.mem_cons_self
    rw [solid] at space
    cases space

end InboundFrame

/-- A text has a content exactly if it is, but for blanks around it, an object with one member of that name and others of
other names, or an array of one string. The content is the string without the blanks at its ends, of which something is
left. So no other value and nothing that is followed by more has a content, but an array can have one. -/
theorem inbound_content_iff (text content : String) : InboundFrame.content? text = some content ↔
    Text.Proper content ∧ ∃ (s : String) (p : Padded), p.text = text.toList ∧
      (ObjectText "content" s p.core ∨ ArrayText s p.core) ∧
      ∃ before after, s.toList = before ++ content.toList ++ after ∧ ∀ c ∈ before ++ after, Text.isBlank c = true := by
  rw [InboundFrame.content?_eq_some_iff]
  simp only [InboundFrame.decode?_eq_some_iff, Text.trim_eq_iff]
  constructor
  · rintro ⟨s, ⟨p, whole, isText⟩, ⟨-, trims⟩, proper⟩
    exact ⟨proper, s, p, whole, isText, trims⟩
  · rintro ⟨proper, s, p, whole, isText, trims⟩
    exact ⟨s, ⟨p, whole, isText⟩, ⟨proper.trimmed, trims⟩, proper⟩

/-- An array that is taken for an object. -/
theorem inbound_content_of_array : InboundFrame.content? "[\"hello\"]" = some "hello" ∧
    ¬ ∃ (s : String) (p : Padded), p.text = "[\"hello\"]".toList ∧ ObjectText "content" s p.core := by
  refine ⟨by decide +kernel, ?_⟩
  rintro ⟨s, p, whole, object⟩
  exact InboundFrame.not_object (whole.trans (by decide : _ = '[' :: "\"hello\"]".toList)) (by decide) (by decide) object

/-- However the string and the other members are written, and whatever values they have: the content of an object is its
string without the blanks at its ends, or none if there is nothing else in it. -/
theorem inbound_object_content {text s : String} {p : Padded} (whole : p.text = text.toList)
    (object : ObjectText "content" s p.core) :
    (Text.Blank s → InboundFrame.content? text = none) ∧
    (¬ Text.Blank s → ∃ before content after, s.toList = before ++ content.toList ++ after ∧
      (∀ c ∈ before ++ after, Text.isBlank c = true) ∧ Text.Proper content ∧ InboundFrame.content? text = some content) := by
  have decoded : InboundFrame.codec.decode? text = some ⟨s⟩ := InboundFrame.decode?_eq_some_iff.mpr ⟨p, whole, .inl object⟩
  have content := InboundFrame.content?_of_decode? decoded
  refine ⟨fun blank => content.trans (if_pos blank), fun full => ?_⟩
  obtain ⟨trimmed, before, after, parts, blank⟩ := Text.trim_eq_iff.mp (Eq.refl (Text.trim s))
  have proper : Text.Proper (Text.trim s) := ⟨mt Text.trim_eq_empty_iff.mp full, trimmed⟩
  exact ⟨before, Text.trim s, after, parts, blank, proper, content.trans (if_neg full)⟩

/-- The name of the content and its one visible character are written with escapes, the latter as a pair; another member comes
before, with a value that holds an object and half of a pair. -/
theorem inbound_object_content_of_escapes :
    InboundFrame.content? " \x7b\"a\":[-1.5e+3,\x7b\"b\":\"\\ud800\"\x7d],\"conten\\u0074\" :\"\\ud83d\\uDE00\\t\"\x7d" = some "😀" := by
  let bare (core : List Char) : Padded := ⟨[], core, [], by simp [Spaces]⟩
  have raw (c : Char) (plain : 0x20 ≤ c.toNat ∧ c ≠ '"' ∧ c ≠ '\\') : Raw c := ⟨plain.1, plain.2.1, plain.2.2⟩
  have digit (value : Nat) (c : Char) (there : "0123456789abcdef".toList[value]? = some c ∨
    "0123456789ABCDEF".toList[value]? = some c) : HexDigit value c := there
  -- the value of the other member
  have half : CodeUnit 0xd800 "\\ud800".toList :=
    .digits (digit 13 'd' (by decide)) (digit 8 '8' (by decide)) (digit 0 '0' (by decide)) (digit 0 '0' (by decide))
  have name : Quoted "\"b\"".toList := ⟨[['b']], by simpa using .raw (raw 'b' (by decide)), by decide⟩
  have broken : Quoted "\"\\ud800\"".toList := ⟨["\\ud800".toList], by simpa using .code half, by decide⟩
  let inner : MemberText := ⟨bare "\"b\"".toList, bare "\"\\ud800\"".toList⟩
  have nested : Value ('\x7b' :: Codec.commas ([inner].map MemberText.text) ++ ['\x7d']) :=
    .object (List.forall_mem_singleton.mpr name) (List.forall_mem_singleton.mpr (.quoted broken))
  have number : Value "-1.5e+3".toList := by
    refine .number (Number.cons_mem_texts.mpr ⟨_, rfl, ?_⟩)
    iterate 6 refine Number.cons_mem_ending.mpr ⟨_, rfl, ?_⟩
    exact (Number.nil_mem_ending _).mpr rfl
  let items : List Padded := [bare "-1.5e+3".toList, bare ('\x7b' :: Codec.commas ([inner].map MemberText.text) ++ ['\x7d'])]
  have array : Value ('[' :: Codec.commas (items.map Padded.text) ++ [']']) :=
    .array (List.forall_mem_cons.mpr ⟨number, List.forall_mem_singleton.mpr nested⟩)
  let other : MemberText := ⟨bare "\"a\"".toList, bare ('[' :: Codec.commas (items.map Padded.text) ++ [']'])⟩
  have first : Literal "a" "\"a\"".toList := ⟨[['a']], by simpa using .raw (raw 'a' (by decide)), by decide⟩
  have isOther : other.IsOther "content" := ⟨⟨"a", first, by decide⟩, array⟩
  -- the content
  have letter : CodeUnit ('t'.toNat) "\\u0074".toList :=
    .digits (digit 0 '0' (by decide)) (digit 0 '0' (by decide)) (digit 7 '7' (by decide)) (digit 4 '4' (by decide))
  have high : CodeUnit 0xd83d "\\ud83d".toList :=
    .digits (digit 13 'd' (by decide)) (digit 8 '8' (by decide)) (digit 3 '3' (by decide)) (digit 13 'd' (by decide))
  have low : CodeUnit 0xde00 "\\uDE00".toList :=
    .digits (digit 13 'D' (by decide)) (digit 14 'E' (by decide)) (digit 0 '0' (by decide)) (digit 0 '0' (by decide))
  have content : Literal "content" "\"conten\\u0074\"".toList := by
    refine ⟨[['c'], ['o'], ['n'], ['t'], ['e'], ['n'], "\\u0074".toList], ?_, by decide⟩
    rw [(by decide : "content".toList = ['c', 'o', 'n', 't', 'e', 'n', 't'])]
    repeat refine .cons (.raw (raw _ (by decide))) ?_
    exact .cons (.code letter) .nil
  have spelled : Literal "😀\t" "\"\\ud83d\\uDE00\\t\"".toList := by
    refine ⟨["\\ud83d".toList ++ "\\uDE00".toList, ['\\', 't']], ?_, by decide⟩
    rw [(by decide : "😀\t".toList = ['😀', '\t'])]
    exact .cons (.pair high low (by decide) (by decide) (by decide)) (.cons (.short (by decide)) .nil)
  let m : MemberText := ⟨⟨[], "\"conten\\u0074\"".toList, [' '], by decide⟩, bare "\"\\ud83d\\uDE00\\t\"".toList⟩
  let p : Padded := ⟨[' '], '\x7b' :: Codec.commas (([other] ++ m :: []).map MemberText.text) ++ ['\x7d'], [], by decide⟩
  have object : ObjectText "content" "😀\t" p.core := .members (by simpa using isOther) ⟨content, spelled⟩
  have whole : p.text =
    " \x7b\"a\":[-1.5e+3,\x7b\"b\":\"\\ud800\"\x7d],\"conten\\u0074\" :\"\\ud83d\\uDE00\\t\"\x7d".toList := by decide +kernel
  obtain ⟨-, full⟩ := inbound_object_content whole object
  obtain ⟨before, visible, after, parts, blank, proper, meant⟩ := full (by decide)
  have trims : Text.trim "😀\t" = visible := Text.trim_eq_iff.mpr ⟨proper.trimmed, before, after, parts, blank⟩
  rw [meant, ← trims]
  decide

end HelpDesk
