import HelpDesk.Text.Hexadecimal

/-! Universally unique identifiers: 128-bit numbers, written in five groups of small hexadecimal
digits and read in any of four forms. -/

namespace HelpDesk

structure Uuid where
  bits : BitVec 128
  deriving DecidableEq, Hashable

namespace Uuid

/-- The identifier of all zeros, which no stored thing has. -/
def nil : Uuid := ⟨BitVec.ofNat 128 0⟩

/-- The identifier of the last 128 bits of a number. -/
def ofNat (n : Nat) : Uuid := ⟨BitVec.ofNat 128 n⟩

/-- The last `width` hexadecimal digits of `n`. -/
def hexPadded : (width n : Nat) → List Char
  | 0, _ => []
  | width + 1, n => hexPadded width (n / 16) ++ [Text.hexDigit n]

/-- The number that hexadecimal digits denote, continuing from `value`. -/
def hexFrom? (value : Nat) : List Char → Option Nat
  | [] => some value
  | c :: rest => match Text.hexValue? c with
    | some d => hexFrom? (16 * value + d) rest
    | none => none

def groups : List Nat := [8, 4, 4, 4, 12]

/-- Cuts the digits into groups of the given lengths with hyphens between them. -/
def hyphenate : List Nat → List Char → List Char
  | [], _ => []
  | [n], cs => cs.take n
  | n :: ns, cs => cs.take n ++ '-' :: hyphenate ns (cs.drop n)

/-- The digits of hyphenated groups of the given lengths. -/
def unhyphenate? : List Nat → List Char → Option (List Char)
  | [], cs => if cs.isEmpty then some [] else none
  | [n], cs => if cs.length = n then some cs else none
  | n :: ns, cs => match cs.drop n with
    | '-' :: rest => (unhyphenate? ns rest).map (cs.take n ++ ·)
    | _ => none

/-- The identifier of exactly 32 hexadecimal digits. -/
def ofDigits? (cs : List Char) : Option Uuid :=
  if cs.length = 32 then (hexFrom? 0 cs).map ofNat else none

def ofHyphenated? (cs : List Char) : Option Uuid :=
  (unhyphenate? groups cs).bind ofDigits?

/-- What stands before the hyphenated form of an identifier as a name. -/
def urnScheme : List Char := "urn:uuid:".toList

/-- Reads any of the four forms: digits alone, hyphenated, hyphenated in braces, and hyphenated
as a name in the `urn:uuid:` scheme. -/
def ofChars? (cs : List Char) : Option Uuid :=
  if cs.length = 32 then ofDigits? cs
  else if cs.length = 36 then ofHyphenated? cs
  else if cs.length = 38 then
    if cs.head? = some '\x7b' ∧ cs.getLast? = some '\x7d' then ofHyphenated? (cs.drop 1).dropLast else none
  else if cs.length = 45 then
    if (cs.take 9).map Char.toLower = urnScheme then ofHyphenated? (cs.drop 9) else none
  else none

@[inherit_doc ofChars?]
def ofString? (s : String) : Option Uuid :=
  ofChars? s.toList

/-- The hyphenated form, in small digits. -/
def toChars (u : Uuid) : List Char :=
  hyphenate groups (hexPadded 32 u.bits.toNat)

@[inherit_doc toChars]
def toString (u : Uuid) : String :=
  String.ofList u.toChars

instance : ToString Uuid := ⟨toString⟩

end Uuid

end HelpDesk
