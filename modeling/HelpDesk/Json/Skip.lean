import HelpDesk.Json.Number
import HelpDesk.Text.Hexadecimal

/-! Passing over a value that nobody asked for. The machine keeps the open brackets on a stack, so
values may nest without limit; it minds the grammar alone, so a string may hold any bytes and any
`\u` escape. -/

namespace HelpDesk.Json

inductive Bracket
  | array
  | object
  deriving DecidableEq, Repr

inductive SkipText
  | plain
  | escape
  /-- in a `\u` escape, with `left` digits to come after the next -/
  | code (left : Nat)
  deriving DecidableEq, Repr

def SkipText.step : SkipText → Option Char → Option SkipText
  | .plain, none => some .plain
  | .plain, some c =>
    if c = '\\' then some .escape
    else if c.toNat < 0x20 then none
    else some .plain
  | .escape, none => none
  | .escape, some c =>
    if c = 'u' then some (.code 3)
    else if c = '"' ∨ c = '\\' ∨ c = '/' ∨ c = 'b' ∨ c = 'f' ∨ c = 'n' ∨ c = 'r' ∨ c = 't' then some .plain
    else none
  | .code _, none => none
  | .code left, some c => (Text.hexValue? c).map fun _ =>
    match left with
    | 0 => .plain
    | left + 1 => .code left

/-- What the machine is about to read. -/
inductive SkipMode
  | value
  /-- a value, or the end of an array just opened -/
  | firstItem
  /-- a name, or the end of an object just opened -/
  | firstName
  | name
  | nameText (state : SkipText)
  | colon
  | text (state : SkipText)
  | word (left : List Char)
  | number (state : NumberState)
  /-- a comma or a closing bracket -/
  | after
  deriving DecidableEq, Repr

inductive SkipStep
  | go (mode : SkipMode) (stack : List Bracket)
  /-- the value ends with this item -/
  | finish
  /-- the value ended before this item -/
  | finishBefore
  | fail
  deriving DecidableEq, Repr

namespace SkipStep

def ended : List Bracket → SkipStep
  | [] => .finish
  | stack => .go .after stack

def separator (c : Char) : List Bracket → SkipStep
  | .array :: stack =>
    if c = ',' then .go .value (.array :: stack) else if c = ']' then ended stack else .fail
  | .object :: stack =>
    if c = ',' then .go .name (.object :: stack) else if c = '\x7d' then ended stack else .fail
  | [] => .fail

def start (c : Char) (stack : List Bracket) : SkipStep :=
  if c = '"' then .go (.text .plain) stack
  else if c = '[' then .go .firstItem (.array :: stack)
  else if c = '\x7b' then .go .firstName (.object :: stack)
  else if c = 'n' then .go (.word ['u', 'l', 'l']) stack
  else if c = 't' then .go (.word ['r', 'u', 'e']) stack
  else if c = 'f' then .go (.word ['a', 'l', 's', 'e']) stack
  else match NumberState.start? c with
    | some state => .go (.number state) stack
    | none => .fail

/-- One character that is no blank, outside strings and words. -/
def token (c : Char) (mode : SkipMode) (stack : List Bracket) : SkipStep :=
  match mode with
  | .value => start c stack
  | .firstItem => if c = ']' then ended (stack.drop 1) else start c stack
  | .firstName =>
    if c = '\x7d' then ended (stack.drop 1)
    else if c = '"' then .go (.nameText .plain) stack
    else .fail
  | .name => if c = '"' then .go (.nameText .plain) stack else .fail
  | .colon => if c = ':' then .go .value stack else .fail
  | .after => separator c stack
  | .nameText _ | .text _ | .word _ | .number _ => .fail

def of (mode : SkipMode) (stack : List Bracket) (item : Option Char) : SkipStep :=
  match mode with
  | .nameText state =>
    if state = .plain ∧ item = some '"' then .go .colon stack
    else match state.step item with
      | some next => .go (.nameText next) stack
      | none => .fail
  | .text state =>
    if state = .plain ∧ item = some '"' then ended stack
    else match state.step item with
      | some next => .go (.text next) stack
      | none => .fail
  | .word [] => .fail
  | .word [e] => if item = some e then ended stack else .fail
  | .word (e :: es) => if item = some e then .go (.word es) stack else .fail
  | .number state => match item.bind state.step with
    | some next => .go (.number next) stack
    | none =>
      if state.isComplete then
        match stack, item with
        | [], _ => .finishBefore
        | _ :: _, some c => if isSpace c then .go .after stack else separator c stack
        | _ :: _, none => .fail
      else .fail
  | mode => match item with
    | some c => if isSpace c then .go mode stack else token c mode stack
    | none => .fail

end SkipStep

def skipFrom (mode : SkipMode) (stack : List Bracket) : Input → Except Fault Input
  | [] => match mode, stack with
    | .number state, [] => if state.isComplete then .ok [] else .error .malformed
    | _, _ => .error .malformed
  | item :: rest => match SkipStep.of mode stack item with
    | .go mode stack => skipFrom mode stack rest
    | .finish => .ok rest
    | .finishBefore => .ok (item :: rest)
    | .fail => .error .malformed

/-- What follows the value at the front. -/
def skipValue (input : Input) : Except Fault Input :=
  skipFrom .value [] input

end HelpDesk.Json
