import HelpDesk.Json.Input
import HelpDesk.Text.Hexadecimal

/-! JSON strings. Reading is a machine that takes one character at a time; writing escapes the quote,
the backslash and the control characters and nothing else. -/

namespace HelpDesk.Json

inductive TextState
  /-- between two characters -/
  | plain
  /-- after a backslash -/
  | escape
  /-- in a `\u` escape, with `left` digits to come after the next; `high` is a pending first half -/
  | code (high : Option Nat) (left value : Nat)
  /-- after the first half of a pair, which only another escape can follow -/
  | pair (high : Nat)
  /-- after the backslash of that escape -/
  | pairEscape (high : Nat)
  deriving DecidableEq, Repr

namespace TextState

def isHigh (n : Nat) : Bool := 0xD800 ≤ n && n ≤ 0xDBFF

def isLow (n : Nat) : Bool := 0xDC00 ≤ n && n ≤ 0xDFFF

def joined (high low : Nat) : Char :=
  Char.ofNat (0x10000 + (high - 0xD800) * 0x400 + (low - 0xDC00))

/-- After the last digit of a `\u` escape. Halves count only in pairs, the first one first. -/
def ofCode : Option Nat → Nat → Option (TextState × Option Char)
  | none, n =>
    if isLow n then none
    else if isHigh n then some (.pair n, none)
    else some (.plain, some (Char.ofNat n))
  | some high, n => if isLow n then some (.plain, some (joined high n)) else none

/-- The character that a backslash and this letter stand for. -/
def escaped? (c : Char) : Option Char :=
  if c = '"' then some '"'
  else if c = '\\' then some '\\'
  else if c = '/' then some '/'
  else if c = 'b' then some '\x08'
  else if c = 'f' then some '\x0c'
  else if c = 'n' then some '\n'
  else if c = 'r' then some '\r'
  else if c = 't' then some '\t'
  else none

/-- One character further, and the character of the text that it completes, if any. -/
def step : TextState → Char → Option (TextState × Option Char)
  | .plain, c =>
    if c = '\\' then some (.escape, none)
    else if c.toNat < 0x20 then none
    else some (.plain, some c)
  | .escape, c =>
    if c = 'u' then some (.code none 3 0, none)
    else (escaped? c).map fun d => (.plain, some d)
  | .code high 0 value, c => (Text.hexValue? c).bind fun d => ofCode high (16 * value + d)
  | .code high (left + 1) value, c =>
    (Text.hexValue? c).map fun d => (.code high left (16 * value + d), none)
  | .pair high, c => if c = '\\' then some (.pairEscape high, none) else none
  | .pairEscape high, c => if c = 'u' then some (.code (some high) 3 0, none) else none

end TextState

/-- Reads the rest of a string up to its closing quote; `done` is what came before, last first. -/
def textFrom (state : TextState) (done : List Char) : Input → Read (List Char)
  | [] => .error .malformed
  | item :: rest => match item with
    | none => .error .malformed
    | some c =>
      if state = .plain ∧ c = '"' then .ok (done.reverse, rest)
      else match state.step c with
        | some (next, some d) => textFrom next (d :: done) rest
        | some (next, none) => textFrom next done rest
        | none => .error .malformed

def readQuoted (input : Input) : Read String :=
  match textFrom .plain [] input with
  | .ok (cs, rest) => .ok (String.ofList cs, rest)
  | .error fault => .error fault

def escape (c : Char) : List Char :=
  if c = '"' then ['\\', '"']
  else if c = '\\' then ['\\', '\\']
  else if c = '\n' then ['\\', 'n']
  else if c = '\r' then ['\\', 'r']
  else if c = '\t' then ['\\', 't']
  else if c = '\x08' then ['\\', 'b']
  else if c = '\x0c' then ['\\', 'f']
  else if c.toNat < 0x20 then ['\\', 'u', '0', '0', Text.hexDigit (c.toNat / 16), Text.hexDigit c.toNat]
  else [c]

def quote (s : String) : List Char :=
  '"' :: (s.toList.flatMap escape ++ ['"'])

end HelpDesk.Json
