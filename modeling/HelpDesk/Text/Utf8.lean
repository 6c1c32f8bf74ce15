/-! UTF-8. Decoding never fails: a byte that is no part of a well-formed character stands as
`none`, so that a reader can say what such a byte means to it. -/

namespace HelpDesk.Text.Utf8

/-- A byte that can follow the first one of a character. -/
def isTail (b : UInt8) : Bool :=
  0x80 ≤ b.toNat && b.toNat ≤ 0xBF

/-- The six bits that a following byte carries. -/
def tailBits (b : UInt8) : Nat :=
  b.toNat % 64

def two? (a b : UInt8) : Option Char :=
  if 0xC2 ≤ a.toNat && a.toNat ≤ 0xDF && isTail b then
    some (Char.ofNat (a.toNat % 32 * 64 + tailBits b))
  else none

/-- The character of three bytes, if they are one: the shortest form, and no surrogate. -/
def three? (a b c : UInt8) : Option Char :=
  let n := a.toNat % 16 * 4096 + tailBits b * 64 + tailBits c
  if 0xE0 ≤ a.toNat && a.toNat ≤ 0xEF && isTail b && isTail c && 0x800 ≤ n && !(0xD800 ≤ n && n ≤ 0xDFFF) then
    some (Char.ofNat n)
  else none

/-- The character of four bytes, if they are one: the shortest form, and at most `U+10FFFF`. -/
def four? (a b c d : UInt8) : Option Char :=
  let n := a.toNat % 8 * 262144 + tailBits b * 4096 + tailBits c * 64 + tailBits d
  if 0xF0 ≤ a.toNat && a.toNat ≤ 0xF4 && isTail b && isTail c && isTail d && 0x10000 ≤ n && n ≤ 0x10FFFF then
    some (Char.ofNat n)
  else none

/-- The first character of the bytes and how many of them it takes. -/
def first? : List UInt8 → Option (Char × Nat)
  | [] => none
  | a :: rest =>
    if a.toNat < 0x80 then some (Char.ofNat a.toNat, 1)
    else match rest with
      | [] => none
      | b :: rest => (two? a b).map (·, 2) <|> match rest with
        | [] => none
        | c :: rest => (three? a b c).map (·, 3) <|> match rest with
          | [] => none
          | d :: _ => (four? a b c d).map (·, 4)

/-- Decodes onto `done`, which holds what came before, last first. The count is of bytes still to
pass over, being part of the character written last. -/
def decodeOnto (done : List (Option Char)) : Nat → List UInt8 → List (Option Char)
  | _, [] => done.reverse
  | passed + 1, _ :: rest => decodeOnto done passed rest
  | 0, b :: rest => match first? (b :: rest) with
    | some (c, n) => decodeOnto (some c :: done) (n - 1) rest
    | none => decodeOnto (none :: done) 0 rest

def decode (bytes : List UInt8) : List (Option Char) :=
  decodeOnto [] 0 bytes

/-- The text of a byte sequence that is well formed throughout. -/
def decode? (bytes : List UInt8) : Option String :=
  ((decode bytes).mapM id).map String.ofList

end HelpDesk.Text.Utf8
