import HelpDesk.Json.Input

/-! JSON numbers. No value of this library is one, so a number is only ever passed over: its grammar
matters, and where it stands for a value of another kind, its size. -/

namespace HelpDesk.Json

inductive NumberState
  | minus
  | zero
  /-- a digit after a leading zero, which nothing can mend -/
  | padded
  | whole
  | point
  | fraction
  | exponent
  | exponentSign
  | exponentDigits
  deriving DecidableEq, Repr

namespace NumberState

def start? (c : Char) : Option NumberState :=
  if c = '-' then some .minus
  else if c = '0' then some .zero
  else if c.isDigit then some .whole
  else none

/-- One character further, or none where the character is no part of the number. -/
def step (state : NumberState) (c : Char) : Option NumberState :=
  match state with
  | .minus => if c = '0' then some .zero else if c.isDigit then some .whole else none
  | .zero =>
    if c.isDigit then some .padded
    else if c = '.' then some .point
    else if c = 'e' ∨ c = 'E' then some .exponent
    else none
  | .padded => none
  | .whole =>
    if c.isDigit then some .whole
    else if c = '.' then some .point
    else if c = 'e' ∨ c = 'E' then some .exponent
    else none
  | .point => if c.isDigit then some .fraction else none
  | .fraction =>
    if c.isDigit then some .fraction
    else if c = 'e' ∨ c = 'E' then some .exponent
    else none
  | .exponent =>
    if c.isDigit then some .exponentDigits
    else if c = '+' ∨ c = '-' then some .exponentSign
    else none
  | .exponentSign => if c.isDigit then some .exponentDigits else none
  | .exponentDigits => if c.isDigit then some .exponentDigits else none

def isComplete : NumberState → Bool
  | .zero | .whole | .fraction | .exponentDigits => true
  | .minus | .padded | .point | .exponent | .exponentSign => false

end NumberState

/-- Reads the rest of a number; `done` is what came before, last first. -/
def numberFrom (state : NumberState) (done : List Char) : Input → Read (List Char)
  | [] => if state.isComplete then .ok (done.reverse, []) else .error .malformed
  | item :: rest => match item.bind fun c => (state.step c).map (·, c) with
    | some (next, c) => numberFrom next (c :: done) rest
    | none => if state.isComplete then .ok (done.reverse, item :: rest) else .error .malformed

/-- The number that digits denote, or `limit` where that is less. -/
def cappedDigits (limit : Nat) (cs : List Char) : Nat :=
  cs.foldl (fun n c => min limit (10 * n + (c.toNat - '0'.toNat))) 0

/-- The least integer that is nearer to `2 ^ 1024` than to any double-precision number. -/
def doubleLimit : Nat :=
  Nat.pow 2 1024 - Nat.pow 2 970

/-- Is a number too large for double precision? The position of its first significant digit tells,
except among numbers of 309 digits. -/
def exceedsDouble (cs : List Char) : Bool :=
  let mantissa := cs.takeWhile fun c => c != 'e' && c != 'E'
  let power := (cs.dropWhile fun c => c != 'e' && c != 'E').drop 1
  let magnitude : Int := cappedDigits 100000000 (power.filter Char.isDigit)
  let exponent := if power.head? = some '-' then -magnitude else magnitude
  let fractionDigits := ((mantissa.dropWhile (· != '.')).drop 1).length
  let digits := (mantissa.filter Char.isDigit).dropWhile (· == '0')
  if digits.isEmpty then false
  else
    let position : Int := digits.length + exponent - fractionDigits
    if position ≠ 309 then 309 < position
    else
      let leading := digits.take 309
      doubleLimit ≤ cappedDigits (Nat.pow 10 310) (leading ++ List.replicate (309 - leading.length) '0')

end HelpDesk.Json
