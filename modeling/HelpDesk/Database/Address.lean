import HelpDesk.Http.Target

/-! Addresses of databases. Only their form is judged: an address that is refused is never tried. -/

namespace HelpDesk.Database

structure Address where
  scheme : List Char
  /-- user and password, as written; none without an at sign -/
  credentials : Option (List Char)
  host : List Char
  /-- the digits behind the host, as written; none without a colon -/
  portDigits : Option (List Char)
  path : List Char
  query : List Char

namespace Address

/-- Cuts at the last separator that `isSeparator` tells, which is dropped. -/
def cutLast (isSeparator : Char → Bool) (cs : List Char) : Option (List Char × List Char) :=
  if cs.any isSeparator then
    let after := (cs.reverse.takeWhile (!isSeparator ·)).reverse
    some (cs.take (cs.length - after.length - 1), after)
  else none

def isEdge (c : Char) : Bool :=
  c.toNat ≤ 0x20

/-- Host and port number of an authority without credentials. A colon inside brackets belongs to the host. -/
def hostAndPort (cs : List Char) : List Char × Option (List Char) :=
  match cutLast (· == ':') cs with
  | some (host, digits) => if digits.contains ']' then (cs, none) else (host, some digits)
  | none => (cs, none)

/-- Takes an address apart. It has a scheme. -/
def ofString? (s : String) : Option Address :=
  let cs := ((s.toList.dropWhile isEdge).reverse.dropWhile isEdge).reverse
  let scheme := cs.takeWhile (· != ':')
  let wellFormed := match scheme with
    | first :: rest => first.isAlpha && rest.all fun c => c.isAlphanum || c == '+' || c == '-' || c == '.'
    | [] => false
  if !wellFormed || scheme.length = cs.length then none
  else
    let rest := (cs.drop (scheme.length + 1)).takeWhile (· != '#')
    let query := (rest.dropWhile (· != '?')).drop 1
    let rest := rest.takeWhile (· != '?')
    match rest with
    | '/' :: '/' :: rest =>
      let authority := rest.takeWhile (· != '/')
      let path := rest.drop authority.length
      let (credentials, place) := match cutLast (· == '@') authority with
        | some (credentials, place) => (some credentials, place)
        | none => (none, authority)
      let (host, portDigits) := hostAndPort place
      some ⟨scheme, credentials, host, portDigits, path, query⟩
    | path => some ⟨scheme, none, [], none, path, query⟩

def isPortNumber (cs : List Char) : Bool :=
  cs.isEmpty || ((Text.digits? cs).any (· < Text.ceiling 16))

def isForbiddenInHost (c : Char) : Bool :=
  c.toNat ≤ 0x20 || c.toNat == 0x7F || "#/:<>?@[\\]^|".toList.contains c

/-- Is the host a name, or an address in brackets? -/
def isHost (cs : List Char) : Bool :=
  match cs with
  | '[' :: rest => rest.getLast? == some ']'
  | _ => !cs.any isForbiddenInHost

/-- Is the percent-encoded text well formed? -/
def isText (cs : List Char) : Bool :=
  (Http.segmentText? cs).isSome

/-- How a connection may be encrypted. -/
def sslModes : List String :=
  ["disable", "allow", "prefer", "require", "verify-ca", "verify-full"]

/-- Is a setting in the query well formed? Settings that nobody knows do not matter. -/
def isSetting (name value : List (Option Char)) : Bool :=
  match name.mapM id, value.mapM id with
  | some name, some value =>
    let name := String.ofList name
    let value := String.ofList value
    if name == "sslmode" || name == "ssl-mode" then sslModes.contains value.toLower
    else if name == "port" then (Text.unsigned? 16 value).isSome
    else if name == "statement-cache-capacity" then (Text.unsigned? 64 value).isSome
    else true
  | _, _ => true

def isUsable (a : Address) : Bool :=
  (a.portDigits.all isPortNumber) && isHost a.host && !(a.host.isEmpty && (a.credentials.isSome || a.portDigits.isSome)) &&
    a.credentials.all isText && isText a.path &&
    (Http.queryPairs a.query).all fun (name, value) => isSetting name value

end Address

/-- Why no pool of connections could be made. -/
inductive PoolError
  /-- the address is not one -/
  | configuration
  /-- nobody answers there -/
  | unreachable
  deriving DecidableEq, Repr

def connect (address : String) : PoolError :=
  match Address.ofString? address with
  | some a => if a.isUsable then .unreachable else .configuration
  | none => .configuration

end HelpDesk.Database
