import HelpDesk.Http.Request

/-! Media types, as a content type header names them: a type, a subtype that may end in a suffix, and parameters. -/

namespace HelpDesk.Http

def isTokenChar (c : Char) : Bool :=
  c.isAlphanum || "!#$%&'*+-.^_`|~".toList.contains c

structure MediaType where
  type : List Char
  subtype : List Char

namespace MediaType

/-- Reads parameters after a semicolon: `name=value`, the value a token or in quotes. Quotes hold at least one
character, whatever it is. -/
inductive ParameterState
  /-- before a name -/
  | start
  | name
  /-- right after the equals sign -/
  | valueStart
  | value
  /-- right after the opening quote -/
  | quoteStart
  | quoted
  /-- after the closing quote -/
  | afterQuote
  deriving DecidableEq

namespace ParameterState

def step : ParameterState → Char → Option ParameterState
  | .start, c => if c = ' ' then some .start else if isTokenChar c then some .name else none
  | .name, c => if isTokenChar c then some .name else if c = '=' then some .valueStart else none
  | .valueStart, c => if c = '"' then some .quoteStart else if isTokenChar c then some .value else none
  | .value, c => if isTokenChar c then some .value else if c = ';' then some .start else none
  | .quoteStart, c => if 32 ≤ c.toNat ∧ c.toNat ≠ 127 then some .quoted else none
  | .quoted, c =>
    if c = '"' then some .afterQuote
    else if 32 ≤ c.toNat ∧ c.toNat ≠ 127 then some .quoted
    else none
  | .afterQuote, c => if c = ';' then some .start else if c = ' ' then some .afterQuote else none

/-- May the parameters end here? -/
def isComplete : ParameterState → Bool
  | .start | .valueStart | .value | .afterQuote => true
  | .name | .quoteStart | .quoted => false

end ParameterState

def areParameters (cs : List Char) : Bool :=
  match cs.foldlM ParameterState.step .start with
  | some state => state.isComplete
  | none => false

def ofString? (s : String) : Option MediaType :=
  let type := s.toList.takeWhile isTokenChar
  match s.toList.dropWhile isTokenChar with
  | '/' :: rest =>
    let subtype := rest.takeWhile isTokenChar
    let parameters := match rest.dropWhile isTokenChar with
      | [] => true
      | c :: parameters => c == ';' && !subtype.isEmpty && areParameters parameters
    if type.isEmpty || !parameters then none
    else some ⟨type.map Char.toLower, subtype.map Char.toLower⟩
  | _ => none

/-- The subtype up to its last plus sign, and the suffix behind it. A plus sign in front begins no suffix. -/
def cut (m : MediaType) : List Char × Option (List Char) :=
  let suffix := (m.subtype.reverse.takeWhile (· != '+')).reverse
  let base := m.subtype.take (m.subtype.length - suffix.length - 1)
  if suffix.length < m.subtype.length ∧ base ≠ [] then (base, some suffix) else (m.subtype, none)

/-- JSON itself, or another format with the suffix `json`. -/
def isJson (m : MediaType) : Bool :=
  let (base, suffix) := m.cut
  m.type == "application".toList && (base == "json".toList || suffix == some "json".toList)

end MediaType

def Request.hasJsonBody (r : Request) : Bool :=
  match ((r.header? "content-type").bind visible?).bind MediaType.ofString? with
  | some m => m.isJson
  | none => false

end HelpDesk.Http
