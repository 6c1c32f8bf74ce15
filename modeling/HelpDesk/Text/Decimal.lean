/-! Whole numbers in decimal text. Reading takes an optional sign and ASCII digits and refuses
everything else, blanks included; writing pads with zeros to a fixed width. -/

namespace HelpDesk.Text

def digit? (c : Char) : Option Nat :=
  if c.isDigit then some (c.toNat - '0'.toNat) else none

/-- The number that a run of digits denotes, continuing from `value`; none if another character occurs. -/
def digitsFrom? (value : Nat) : List Char → Option Nat
  | [] => some value
  | c :: rest => match digit? c with
    | some d => digitsFrom? (10 * value + d) rest
    | none => none

/-- At least one digit, and digits only. -/
def digits? (cs : List Char) : Option Nat :=
  if cs.isEmpty then none else digitsFrom? 0 cs

/-- The least number that does not fit into so many bits. -/
def ceiling (bits : Nat) : Nat :=
  Nat.pow 2 bits

/-- A number that fits into so many bits, possibly with a plus sign. -/
def unsigned? (bits : Nat) (s : String) : Option Nat :=
  let digits := match s.toList with
    | '+' :: rest => rest
    | cs => cs
  (digits? digits).filter (· < ceiling bits)

/-- A number that fits into so many bits beside its sign. The least one is as far from zero as the first that does
not fit above it. -/
def signed? (bits : Nat) (s : String) : Option Int :=
  match s.toList with
  | '-' :: rest => ((digits? rest).filter (· ≤ ceiling bits)).map fun n => -(n : Int)
  | '+' :: rest => ((digits? rest).filter (· < ceiling bits)).map Int.ofNat
  | cs => ((digits? cs).filter (· < ceiling bits)).map Int.ofNat

def digitChar (d : Nat) : Char :=
  Char.ofNat ('0'.toNat + d % 10)

theorem digit?_digitChar : ∀ {d : Nat}, d < 10 → digit? (digitChar d) = some d := by
  decide

/-- The last `width` decimal digits of `n`, zeros in front. -/
def padded : (width n : Nat) → List Char
  | 0, _ => []
  | width + 1, n => padded width (n / 10) ++ [digitChar n]

@[simp] theorem length_padded (width n : Nat) : (padded width n).length = width := by
  induction width generalizing n with
  | zero => rfl
  | succ width ih => simp [padded, ih]

end HelpDesk.Text
