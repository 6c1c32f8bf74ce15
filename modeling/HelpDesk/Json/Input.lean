/-! What a JSON reader reads and how it can fail. A reader takes the characters from the front of its
input and hands back the rest, so the first fault it meets decides. -/

namespace HelpDesk.Json

/-- Why a text was refused: it is not JSON, or it is the JSON of something else. -/
inductive Fault
  | malformed
  | mismatch
  deriving DecidableEq, Repr

/-- Characters to read. `none` stands for a byte that is no part of a character. -/
abbrev Input := List (Option Char)

abbrev Read (α : Type) := Except Fault (α × Input)

def inputOf (s : String) : Input :=
  s.toList.map some

/-- The blanks that JSON allows between tokens. -/
def isSpace (c : Char) : Bool :=
  c == ' ' || c == '\t' || c == '\n' || c == '\r'

def skipSpace : Input → Input
  | [] => []
  | item :: rest => match item with
    | some c => if isSpace c then skipSpace rest else item :: rest
    | none => item :: rest

def word (expected : List Char) (input : Input) : Except Fault Input :=
  match expected, input with
  | [], rest => .ok rest
  | _ :: _, [] => .error .malformed
  | e :: es, item :: rest => if item = some e then word es rest else .error .malformed

/-- What follows one character, blanks before it allowed. -/
def mark (c : Char) (input : Input) : Except Fault Input :=
  word [c] (skipSpace input)

end HelpDesk.Json
