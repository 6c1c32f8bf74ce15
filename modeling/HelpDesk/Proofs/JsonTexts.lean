import HelpDesk.Json.Codec
import Mathlib.Computability.Language

/-! The texts of JSON, as its grammar has them, whoever reads them. A string comes in two ways: with the characters that it
spells, among which there is no half of a pair, or as a text of which only the grammar counts. -/

namespace HelpDesk.Json

/-- The blanks that may stand between two tokens. -/
def Spaces (cs : List Char) : Prop :=
  ∀ c ∈ cs, isSpace c = true

instance (cs : List Char) : Decidable (Spaces cs) :=
  List.decidableBAll _ cs

/-- A text with blanks around it. -/
structure Padded where
  before : List Char
  core : List Char
  after : List Char
  spaces : Spaces (before ++ after)

def Padded.text (p : Padded) : List Char :=
  p.before ++ p.core ++ p.after

section Strings

def HexDigit (value : Nat) (c : Char) : Prop :=
  "0123456789abcdef".toList[value]? = some c ∨ "0123456789ABCDEF".toList[value]? = some c

/-- The escape of a code unit. -/
inductive CodeUnit : Nat → List Char → Prop
  | digits {a b c d : Nat} {w x y z : Char} (first : HexDigit a w) (second : HexDigit b x) (third : HexDigit c y)
      (last : HexDigit d z) : CodeUnit (0x1000 * a + 0x100 * b + 0x10 * c + d) ['\\', 'u', w, x, y, z]

/-- The letters that stand for characters after a backslash. -/
def shorthands : List (Char × Char) :=
  [('"', '"'), ('\\', '\\'), ('/', '/'), ('b', '\x08'), ('f', '\x0c'), ('n', '\n'), ('r', '\r'), ('t', '\t')]

/-- A character that may stand for itself. -/
structure Raw (c : Char) : Prop where
  visible : 0x20 ≤ c.toNat
  quote : c ≠ '"'
  backslash : c ≠ '\\'

/-- What a character may be written as: itself, a shorthand, the escape of its code, or the escapes of two halves. -/
inductive Spelling (c : Char) : List Char → Prop
  | raw (raw : Raw c) : Spelling c [c]
  | short {letter : Char} (stands : (letter, c) ∈ shorthands) : Spelling c ['\\', letter]
  | code {text : List Char} (unit : CodeUnit c.toNat text) : Spelling c text
  | pair {high low : Nat} {first second : List Char} (one : CodeUnit high first) (other : CodeUnit low second)
      (isHigh : 0xD800 ≤ high ∧ high < 0xDC00) (isLow : 0xDC00 ≤ low ∧ low < 0xE000)
      (joined : c.toNat = 0x10000 + 0x400 * (high - 0xD800) + (low - 0xDC00)) : Spelling c (first ++ second)

/-- The text is a string in quotes, and these are its characters. -/
def Literal (s : String) (text : List Char) : Prop :=
  ∃ parts, List.Forall₂ Spelling s.toList parts ∧ text = '"' :: parts.flatten ++ ['"']

/-- A character or an escape, whatever it stands for. -/
inductive Piece : List Char → Prop
  | raw {c : Char} (raw : Raw c) : Piece [c]
  | short {letter c : Char} (stands : (letter, c) ∈ shorthands) : Piece ['\\', letter]
  | code {n : Nat} {text : List Char} (unit : CodeUnit n text) : Piece text

def Quoted (text : List Char) : Prop :=
  ∃ pieces : List (List Char), (∀ piece ∈ pieces, Piece piece) ∧ text = '"' :: pieces.flatten ++ ['"']

end Strings

namespace Number

def digits : Language Char :=
  {cs | ∀ c ∈ cs, c.isDigit = true}

def someDigits : Language Char :=
  {cs | cs ≠ [] ∧ cs ∈ digits}

/-- Any digit but zero. -/
def leading : Language Char :=
  {cs | ∃ c, cs = [c] ∧ c.isDigit = true ∧ c ≠ '0'}

def whole : Language Char :=
  {['0']} + leading * digits

def fraction : Language Char :=
  1 + {['.']} * someDigits

def power : Language Char :=
  (1 + {['+']} + {['-']}) * someDigits

def exponent : Language Char :=
  1 + ({['e']} + {['E']}) * power

/-- The numbers of JSON. -/
def texts : Language Char :=
  (1 + {['-']}) * (whole * (fraction * exponent))

end Number

/-- A member of an object. -/
structure MemberText where
  name : Padded
  value : Padded

def MemberText.text (m : MemberText) : List Char :=
  m.name.text ++ ':' :: m.value.text

/-- The values of JSON, nested to any depth. -/
inductive Value : List Char → Prop
  | word {text : List Char} (one : text ∈ ["null".toList, "true".toList, "false".toList]) : Value text
  | number {text : List Char} (number : text ∈ Number.texts) : Value text
  | quoted {text : List Char} (quoted : Quoted text) : Value text
  | emptyArray {blanks : List Char} (spaces : Spaces blanks) : Value ('[' :: blanks ++ [']'])
  | array {first : Padded} {others : List Padded} (values : ∀ item ∈ first :: others, Value item.core) :
      Value ('[' :: Codec.commas ((first :: others).map Padded.text) ++ [']'])
  | emptyObject {blanks : List Char} (spaces : Spaces blanks) : Value ('\x7b' :: blanks ++ ['\x7d'])
  | object {first : MemberText} {others : List MemberText} (names : ∀ m ∈ first :: others, Quoted m.name.core)
      (values : ∀ m ∈ first :: others, Value m.value.core) :
      Value ('\x7b' :: Codec.commas ((first :: others).map MemberText.text) ++ ['\x7d'])

/-- A member of another name, and any value. -/
def MemberText.IsOther (field : String) (m : MemberText) : Prop :=
  (∃ name, Literal name m.name.core ∧ name ≠ field) ∧ Value m.value.core

/-- A member of the name, with a string for its value. -/
def MemberText.Holds (field : String) (s : String) (m : MemberText) : Prop :=
  Literal field m.name.core ∧ Literal s m.value.core

/-- An object with one member of the name, whose value is the text, and any members of other names. -/
inductive ObjectText (field s : String) : List Char → Prop
  | members {before after : List MemberText} {m : MemberText} (others : ∀ other ∈ before ++ after, other.IsOther field)
      (holds : m.Holds field s) :
      ObjectText field s ('\x7b' :: Codec.commas ((before ++ m :: after).map MemberText.text) ++ ['\x7d'])

/-- An array of the text alone. -/
inductive ArrayText (s : String) : List Char → Prop
  | item {item : Padded} (literal : Literal s item.core) : ArrayText s ('[' :: item.text ++ [']'])

end HelpDesk.Json
