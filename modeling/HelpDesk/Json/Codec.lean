import HelpDesk.Json.Quoted
import HelpDesk.Json.Skip
import HelpDesk.Moment
import HelpDesk.Uuid

/-! Reading and writing typed values as JSON. A record is read from an object, whose unknown members
are passed over, or from the array of its fields in order; it is written as an object without blanks,
fields in order. -/

namespace HelpDesk.Json

/-- How values of a type are read and written. Writing fails for a value that has no text. -/
structure Codec (α : Type) where
  read : Input → Read α
  write : α → Option (List Char)

/-- The fault of a value of another kind at the front, no blank before it. The value is read as far as its
kind shows, so it may be malformed instead. -/
def otherKind (input : Input) : Fault :=
  match input with
  | some c :: rest =>
    if c = '"' then
      match readQuoted rest with
      | .ok _ => .mismatch
      | .error fault => fault
    else if c = '[' ∨ c = '\x7b' then .mismatch
    else if c = 'n' then fault (word ['u', 'l', 'l'] rest)
    else if c = 't' then fault (word ['r', 'u', 'e'] rest)
    else if c = 'f' then fault (word ['a', 'l', 's', 'e'] rest)
    else match NumberState.start? c with
      | some state => match numberFrom state [c] rest with
        | .ok (digits, _) => if exceedsDouble digits then .malformed else .mismatch
        | .error fault => fault
      | none => .malformed
  | _ => .malformed
where
  fault : Except Fault Input → Fault
    | .ok _ => .mismatch
    | .error fault => fault

def readText (input : Input) : Read String :=
  match skipSpace input with
  | some '"' :: rest => readQuoted rest
  | other => .error (otherKind other)

def readFlag (input : Input) : Read Bool :=
  match skipSpace input with
  | some 't' :: rest => (word ['r', 'u', 'e'] rest).map (true, ·)
  | some 'f' :: rest => (word ['a', 'l', 's', 'e'] rest).map (false, ·)
  | other => .error (otherKind other)

def readNull (input : Input) : Except Fault Input :=
  match skipSpace input with
  | some 'n' :: rest => word ['u', 'l', 'l'] rest
  | other => .error (otherKind other)

/-- Keeps a value that the rules of its type admit. -/
def admit? {α : Type} (value : Option α) (rest : Input) : Read α :=
  match value with
  | some v => .ok (v, rest)
  | none => .error .mismatch

namespace Codec

/-- A string that means something else. -/
def spelled {α : Type} (ofString? : String → Option α) (toString? : α → Option String) : Codec α where
  read input := match readText input with
    | .ok (s, rest) => admit? (ofString? s) rest
    | .error fault => .error fault
  write v := (toString? v).map quote

def text : Codec String :=
  spelled some some

def flag : Codec Bool where
  read := readFlag
  write v := some (if v then ['t', 'r', 'u', 'e'] else ['f', 'a', 'l', 's', 'e'])

def uuid : Codec Uuid :=
  spelled Uuid.ofString? fun u => some u.toString

def moment : Codec Moment :=
  spelled (fun s => Moment.ofChars? s.toList) fun m => m.toChars?.map String.ofList

/-- One of several names: its string, or an object with the name and `null`. -/
def oneOf {α : Type} (ofString? : String → Option α) (toString : α → String) : Codec α where
  read input := match skipSpace input with
    | some '"' :: rest => match readQuoted rest with
      | .ok (s, rest) => admit? (ofString? s) rest
      | .error fault => .error fault
    | some '\x7b' :: rest => match readText rest with
      | .ok (s, rest) => match admit? (ofString? s) rest with
        | .ok (v, rest) => (((mark ':' rest).bind readNull).bind (mark '\x7d')).map (v, ·)
        | .error fault => .error fault
      | .error fault => .error fault
    | _ => .error .malformed
  write v := some (quote (toString v))

def optional {α : Type} (codec : Codec α) : Codec (Option α) where
  read input := match skipSpace input with
    | some 'n' :: rest => (word ['u', 'l', 'l'] rest).map (none, ·)
    | other => (codec.read other).map fun (v, rest) => (some v, rest)
  write
    | none => some ['n', 'u', 'l', 'l']
    | some v => codec.write v

/-- The same texts for another type. -/
def map {α β : Type} (codec : Codec α) (back : β → α) (forth : α → β) : Codec β where
  read input := (codec.read input).map fun (v, rest) => (forth v, rest)
  write v := codec.write (back v)

/-- The items of an array after its first bracket, or after an item; `done` is what came before, last first. -/
def itemsFrom {α : Type} (codec : Codec α) (done : List α) : (fuel : Nat) → Input → Read (List α)
  | 0, _ => .error .malformed
  | fuel + 1, input => match skipSpace input with
    | some ']' :: rest => .ok (done.reverse, rest)
    | other =>
      let next : Except Fault Input := match done, other with
        | [], _ => .ok other
        | _ :: _, some ',' :: rest => match skipSpace rest with
          | some ']' :: _ => .error .malformed
          | rest => .ok rest
        | _ :: _, _ => .error .malformed
      match next with
      | .error fault => .error fault
      | .ok input => match codec.read input with
        | .error fault => .error fault
        | .ok (v, rest) => itemsFrom codec (v :: done) fuel rest

def commas (items : List (List Char)) : List Char :=
  List.intercalate [','] items

/-- An array. Each item takes at least one character, so the length of the input bounds their number. -/
def list {α : Type} (codec : Codec α) : Codec (List α) where
  read input := match skipSpace input with
    | some '[' :: rest => itemsFrom codec [] (rest.length + 1) rest
    | other => .error (otherKind other)
  write vs := (vs.mapM codec.write).map fun items => '[' :: commas items ++ [']']

def encode? {α : Type} (codec : Codec α) (v : α) : Option String :=
  (codec.write v).map String.ofList

/-- The value at the front; what follows it does not matter. -/
def decodeFirst {α : Type} (codec : Codec α) (input : Input) : Except Fault α :=
  (codec.read input).map Prod.fst

def decode? {α : Type} (codec : Codec α) (s : String) : Option α :=
  match codec.read (inputOf s) with
  | .ok (v, rest) => if (skipSpace rest).isEmpty then some v else none
  | .error _ => none

end Codec

/-- The value of a field that is not there: in an object, and in an array that ends before it. -/
structure Absent (α : Type) where
  member : Option α
  item : Option α

namespace Absent

def never {α : Type} : Absent α := ⟨none, none⟩

def inObject {α : Type} : Absent (Option α) := ⟨some none, none⟩

def anywhere {α : Type} : Absent (Option α) := ⟨some none, some none⟩

end Absent

inductive Fields : Type → Type 1
  | nil : Fields Unit
  | cons {α β : Type} (name : String) (codec : Codec α) (absent : Absent α) (rest : Fields β) : Fields (α × β)

namespace Fields

def Slots : {γ : Type} → Fields γ → Type
  | _, .nil => Unit
  | _, @cons α _ _ _ _ rest => Option α × rest.Slots

def empty : {γ : Type} → (fields : Fields γ) → fields.Slots
  | _, .nil => ()
  | _, .cons _ _ _ rest => (none, rest.empty)

/-- The record, if no field is missing that has to be there. -/
def complete? : {γ : Type} → (fields : Fields γ) → fields.Slots → Option γ
  | _, .nil => fun _ => some ()
  | _, .cons _ _ absent rest => fun (slot, slots) =>
    match slot <|> absent.member, rest.complete? slots with
    | some v, some vs => some (v, vs)
    | _, _ => none

/-- Reads the colon and value of the named field, which must not come twice. None for a name that is
no field's. -/
def fill? : {γ : Type} → (fields : Fields γ) → String → fields.Slots → Input → Option (Read fields.Slots)
  | _, .nil, _ => fun _ _ => none
  | _, .cons name codec _ rest, key => fun (slot, slots) input =>
    if name = key then
      some (match slot, mark ':' input with
        | some _, _ => .error .mismatch
        | none, .error fault => .error fault
        | none, .ok input => match codec.read input with
          | .ok (v, input) => .ok ((some v, slots), input)
          | .error fault => .error fault)
    else
      match rest.fill? key slots input with
      | some (.ok (slots, input)) => some (.ok ((slot, slots), input))
      | some (.error fault) => some (.error fault)
      | none => none

/-- Reads the colon and value of a member, whatever its name. -/
def member {γ : Type} (fields : Fields γ) (key : String) (slots : fields.Slots) (input : Input) : Read fields.Slots :=
  match fields.fill? key slots input with
  | some result => result
  | none => match mark ':' input with
    | .error fault => .error fault
    | .ok input => (skipValue input).map (slots, ·)

/-- The members of an object after its bracket, or after a member. -/
def membersFrom {γ : Type} (fields : Fields γ) : (fuel : Nat) → (first : Bool) → fields.Slots → Input → Read fields.Slots
  | 0, _, _, _ => .error .malformed
  | fuel + 1, first, slots, input => match skipSpace input with
    | some '\x7d' :: rest => .ok (slots, rest)
    | other =>
      let next : Except Fault Input := if first then .ok other else (mark ',' other).map skipSpace
      match next with
      | .ok (some '"' :: rest) => match readQuoted rest with
        | .error fault => .error fault
        | .ok (key, rest) => match fields.member key slots rest with
          | .error fault => .error fault
          | .ok (slots, rest) => membersFrom fields fuel false slots rest
      | _ => .error .malformed

/-- The items of an array that holds the fields in order. -/
def items : {γ : Type} → (fields : Fields γ) → (first : Bool) → Input → Read γ
  | _, .nil, _, input => (mark ']' input).map ((), ·)
  | _, .cons _ codec absent rest, first, input => match skipSpace input with
    | some ']' :: _ => match absent.item with
      | some v => (rest.items first input).map fun (vs, input) => ((v, vs), input)
      | none => .error .mismatch
    | other =>
      let next : Except Fault Input := if first then .ok other else match mark ',' other with
        | .ok input => match skipSpace input with
          | some ']' :: _ => .error .malformed
          | input => .ok input
        | .error fault => .error fault
      match next with
      | .error fault => .error fault
      | .ok input => match codec.read input with
        | .error fault => .error fault
        | .ok (v, input) => (rest.items false input).map fun (vs, input) => ((v, vs), input)

def write : {γ : Type} → (fields : Fields γ) → γ → Option (List (List Char))
  | _, .nil, _ => some []
  | _, .cons name codec _ rest, (v, vs) => match codec.write v, rest.write vs with
    | some value, some members => some ((quote name ++ ':' :: value) :: members)
    | _, _ => none

end Fields

/-- A record. Each member takes at least one character, so the length of the input bounds their number. -/
def Codec.record {γ : Type} (fields : Fields γ) : Codec γ where
  read input := match skipSpace input with
    | some '\x7b' :: rest => match fields.membersFrom (rest.length + 1) true fields.empty rest with
      | .ok (slots, rest) => admit? (fields.complete? slots) rest
      | .error fault => .error fault
    | some '[' :: rest => fields.items true rest
    | other => .error (otherKind other)
  write v := (fields.write v).map fun members => '\x7b' :: Codec.commas members ++ ['\x7d']

end HelpDesk.Json
