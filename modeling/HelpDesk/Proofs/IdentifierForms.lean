import HelpDesk.Proofs.LiteralTexts
import HelpDesk.Proofs.UuidTexts
import Mathlib.Data.Nat.Digits.Lemmas

/-! Which texts are identifiers. Each is 32 hexadecimal digits of either case, and they come alone, in groups with hyphens
between them, in groups and braces, or in groups after the name of their scheme; nothing else is read. -/

namespace HelpDesk.Uuid
variable {u : Uuid} {value n : Nat} {cs digits : List Char}

theorem hexFrom?_eq_some_iff : hexFrom? value cs = some n ↔
    ∃ ds, List.Forall₂ Json.HexDigit ds cs ∧ n = value * 16 ^ cs.length + Nat.ofDigits 16 ds.reverse := by
  induction cs generalizing value with
  | nil =>
    rw [hexFrom?, Option.some.injEq, eq_comm]
    simp
  | cons c cs ih =>
    have shifted (d : Nat) (ds : List Nat) (same : ds.length = cs.length) :
        (16 * value + d) * 16 ^ cs.length + Nat.ofDigits 16 ds.reverse =
          value * 16 ^ (cs.length + 1) + Nat.ofDigits 16 (d :: ds).reverse := by
      rw [Nat.ofDigits_reverse_cons, same]
      ring
    have read : hexFrom? value (c :: cs) = some n ↔
        ∃ d, Text.hexValue? c = some d ∧ hexFrom? (16 * value + d) cs = some n := by
      rw [hexFrom?]
      cases Text.hexValue? c <;> simp
    rw [read]
    constructor
    · rintro ⟨d, digit, rest⟩
      obtain ⟨ds, others, rfl⟩ := ih.mp rest
      exact ⟨d :: ds, .cons (Json.hexValue?_eq_some_iff.mp digit) others, shifted d ds others.length_eq⟩
    · rintro ⟨ds, all, rfl⟩
      cases all with
      | @cons d _ ds _ digit others =>
        exact ⟨d, Json.hexValue?_eq_some_iff.mpr digit, ih.mpr ⟨ds, others, (shifted d ds others.length_eq).symm⟩⟩

/-- The 32 hexadecimal digits of an identifier, the highest first, each of either case. -/
structure Spelled (u : Uuid) (digits : List Char) : Prop where
  length : digits.length = 32
  denotes : ∃ ds, List.Forall₂ Json.HexDigit ds digits ∧ u.bits.toNat = Nat.ofDigits 16 ds.reverse

theorem hexDigits_lt {ds : List Nat} (all : List.Forall₂ Json.HexDigit ds cs) : ∀ d ∈ ds, d < 16 := by
  induction all with
  | nil => simp
  | cons digit _ ih => exact List.forall_mem_cons.mpr ⟨digit.lt, ih⟩

theorem ofNat_eq_iff (fits : n < 2 ^ 128) : ofNat n = u ↔ u.bits.toNat = n := by
  constructor
  · rintro rfl
    exact Nat.mod_eq_of_lt fits
  · rintro rfl
    rw [ofNat, BitVec.ofNat_toNat, BitVec.setWidth_eq]

theorem ofDigits?_eq_some_iff : ofDigits? digits = some u ↔ u.Spelled digits := by
  have fits (whole : digits.length = 32) {ds : List Nat} (all : List.Forall₂ Json.HexDigit ds digits) :
      Nat.ofDigits 16 ds.reverse < 2 ^ 128 := by
    have bound : Nat.ofDigits 16 ds.reverse < 16 ^ ds.reverse.length :=
      Nat.ofDigits_lt_base_pow_length (by decide) fun d there => hexDigits_lt all d (List.mem_reverse.mp there)
    rwa [List.length_reverse, all.length_eq, whole] at bound
  have read : ofDigits? digits = some u ↔ digits.length = 32 ∧ ∃ n, hexFrom? 0 digits = some n ∧ ofNat n = u := by
    simp [ofDigits?]
  rw [read]
  constructor
  · rintro ⟨length, n, digitwise, same⟩
    obtain ⟨ds, all, rfl⟩ := hexFrom?_eq_some_iff.mp digitwise
    rw [Nat.zero_mul, Nat.zero_add] at same
    exact ⟨length, ds, all, (ofNat_eq_iff (fits length all)).mp same⟩
  · rintro ⟨length, ds, all, denoted⟩
    refine ⟨length, _, hexFrom?_eq_some_iff.mpr ⟨ds, all, rfl⟩, ?_⟩
    rw [Nat.zero_mul, Nat.zero_add]
    exact (ofNat_eq_iff (fits length all)).mpr denoted

/-- The groups are those that the digits are cut into, and no other text has them. -/
theorem unhyphenate?_eq_some_iff {first : Nat} {more : List Nat} : unhyphenate? (first :: more) cs = some digits ↔
    cs = hyphenate (first :: more) digits ∧ digits.length = first + more.sum := by
  constructor
  · intro read
    induction more generalizing first cs digits with
    | nil =>
      obtain ⟨whole, rfl⟩ : cs.length = first ∧ cs = digits := by
        simpa [unhyphenate?] using read
      exact ⟨(List.take_of_length_le whole.le).symm, whole⟩
    | cons second more ih =>
      unfold unhyphenate? at read
      split at read
      next rest cut =>
        obtain ⟨others, back, rfl⟩ := Option.map_eq_some_iff.mp read
        obtain ⟨rfl, count⟩ := ih back
        have beyond : (cs.drop first).length = cs.length - first := List.length_drop
        have group : (cs.take first).length = first := by
          rw [cut, List.length_cons] at beyond
          rw [List.length_take]
          omega
        refine ⟨?_, ?_⟩
        · rw [hyphenate, List.take_left' group, List.drop_left' group, ← cut, List.take_append_drop]
          exact List.cons_ne_nil second more
        · rw [List.length_append, group, count, List.sum_cons]
      next => cases read
  · rintro ⟨rfl, whole⟩
    exact unhyphenate?_hyphenate first more digits whole

/-- The four forms of an identifier. The name of the scheme may be in any case, as the digits may. -/
inductive Form (u : Uuid) : List Char → Prop
  | bare {digits : List Char} (spelled : u.Spelled digits) : Form u digits
  | hyphenated {digits : List Char} (spelled : u.Spelled digits) : Form u (hyphenate groups digits)
  | braced {digits : List Char} (spelled : u.Spelled digits) : Form u ('\x7b' :: hyphenate groups digits ++ ['\x7d'])
  | named {scheme digits : List Char} (named : scheme.map Char.toLower = urnScheme) (spelled : u.Spelled digits) :
    Form u (scheme ++ hyphenate groups digits)

theorem ofHyphenated?_eq_some_iff :
    ofHyphenated? cs = some u ↔ ∃ digits, u.Spelled digits ∧ cs = hyphenate groups digits := by
  simp only [ofHyphenated?, Option.bind_eq_some_iff, groups, unhyphenate?_eq_some_iff, ofDigits?_eq_some_iff]
  constructor
  · rintro ⟨digits, ⟨rfl, -⟩, spelled⟩
    exact ⟨digits, spelled, rfl⟩
  · rintro ⟨digits, spelled, rfl⟩
    exact ⟨digits, ⟨rfl, spelled.length⟩, spelled⟩

theorem Spelled.length_hyphenate (spelled : u.Spelled digits) : (hyphenate groups digits).length = 36 := by
  rw [groups, Uuid.length_hyphenate 8 [4, 4, 4, 12] digits spelled.length, spelled.length]
  rfl

theorem ofChars?_eq_some_iff : ofChars? cs = some u ↔ u.Form cs := by
  constructor
  · intro read
    unfold ofChars? at read
    split_ifs at read with bare hyphenated braced braces named scheme
    · exact .bare (ofDigits?_eq_some_iff.mp read)
    · obtain ⟨digits, spelled, rfl⟩ := ofHyphenated?_eq_some_iff.mp read
      exact .hyphenated spelled
    · obtain ⟨digits, spelled, inner⟩ := ofHyphenated?_eq_some_iff.mp read
      cases cs with
      | nil => cases braced
      | cons c rest =>
        obtain rfl : c = '\x7b' := Option.some.inj braces.1
        have filled : rest ≠ [] := by
          rintro rfl
          cases braced
        rw [← List.dropLast_append_getLast? _ braces.2, List.dropLast_cons_of_ne_nil filled]
        rw [List.drop_one, List.tail_cons] at inner
        rw [inner]
        exact .braced spelled
    · obtain ⟨digits, spelled, inner⟩ := ofHyphenated?_eq_some_iff.mp read
      rw [← List.take_append_drop 9 cs, inner]
      exact .named scheme spelled
  · intro form
    cases form with
    | bare spelled =>
      rw [ofChars?, if_pos spelled.length]
      exact ofDigits?_eq_some_iff.mpr spelled
    | hyphenated spelled =>
      rw [ofChars?, spelled.length_hyphenate]
      exact ofHyphenated?_eq_some_iff.mpr ⟨_, spelled, rfl⟩
    | @braced digits spelled =>
      have length : ('\x7b' :: hyphenate groups digits ++ ['\x7d']).length = 38 := by
        simp [spelled.length_hyphenate]
      have inner : (('\x7b' :: hyphenate groups digits ++ ['\x7d']).drop 1).dropLast = hyphenate groups digits := by
        simp
      have braces : ('\x7b' :: hyphenate groups digits ++ ['\x7d']).head? = some '\x7b' ∧
          ('\x7b' :: hyphenate groups digits ++ ['\x7d']).getLast? = some '\x7d' :=
        ⟨rfl, List.getLast?_concat⟩
      rw [ofChars?, length, if_pos braces, inner]
      exact ofHyphenated?_eq_some_iff.mpr ⟨digits, spelled, rfl⟩
    | @named scheme digits same spelled =>
      have nine : scheme.length = 9 := by
        rw [← List.length_map (f := Char.toLower), same]
        decide
      have length : (scheme ++ hyphenate groups digits).length = 45 := by
        rw [List.length_append, nine, spelled.length_hyphenate]
      rw [ofChars?, length, List.take_left' nine, List.drop_left' nine, if_pos same]
      exact ofHyphenated?_eq_some_iff.mpr ⟨digits, spelled, rfl⟩

theorem form_toString (u : Uuid) : u.Form u.toString.toList :=
  ofChars?_eq_some_iff.mp u.ofString?_toString

theorem mem_hyphenate {c : Char} (lengths : List Nat) (cs : List Char) (there : c ∈ hyphenate lengths cs) :
    c = '-' ∨ c ∈ cs := by
  fun_induction hyphenate lengths cs with
  | case1 => cases there
  | case2 n cs => exact .inr (List.mem_of_mem_take there)
  | case3 n ns cs more ih =>
    rcases List.mem_append.mp there with front | back
    · exact .inr (List.mem_of_mem_take front)
    · rcases List.mem_cons.mp back with rfl | rest
      · exact .inl rfl
      · exact (ih rest).imp_right List.mem_of_mem_drop

theorem mem_hexPadded {c : Char} {width : Nat} (there : c ∈ hexPadded width n) : ∃ d < 16, c = Text.hexDigit d := by
  induction width generalizing n with
  | zero => cases there
  | succ width ih =>
    rcases List.mem_append.mp there with front | last
    · exact ih front
    · exact ⟨n % 16, Nat.mod_lt n (by decide), by rw [Text.hexDigit_mod, List.mem_singleton.mp last]⟩

/-- An identifier is written in visible characters. -/
theorem visible_toString (u : Uuid) : ∀ c ∈ u.toString.toList, 32 < c.toNat ∧ c.toNat < 127 := by
  have digits : ∀ d < 16, 32 < (Text.hexDigit d).toNat ∧ (Text.hexDigit d).toNat < 127 := by
    decide
  intro c there
  rw [toString, String.toList_ofList] at there
  rcases mem_hyphenate _ _ there with rfl | digit
  · decide
  · obtain ⟨d, small, rfl⟩ := mem_hexPadded digit
    exact digits d small

end HelpDesk.Uuid
