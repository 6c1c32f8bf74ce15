import HelpDesk.Http.Request
import HelpDesk.Text.Decimal
import HelpDesk.Text.Utf8
import HelpDesk.Uuid

/-! What a request is aimed at: the segments of its path and the pairs of its query. -/

namespace HelpDesk.Http

def splitOn {α : Type} [DecidableEq α] (separator : α) : List α → List (List α)
  | [] => [[]]
  | x :: xs =>
    if x = separator then [] :: splitOn separator xs
    else match splitOn separator xs with
      | first :: rest => (x :: first) :: rest
      | [] => [[x]]

def pathOf (target : String) : List Char :=
  target.toList.takeWhile fun c => c != '?' && c != '#'

/-- The query of a target, as written; empty if there is none. -/
def queryOf (target : String) : List Char :=
  match target.toList.dropWhile fun c => c != '?' && c != '#' with
  | '?' :: rest => rest.takeWhile (· != '#')
  | _ => []

/-- Replaces each percent sign that two hexadecimal digits follow by the byte they stand for. -/
def percentDecode : List UInt8 → List UInt8
  | a :: b :: c :: rest =>
    match a == byteOf '%', Text.hexValue? (Char.ofNat b.toNat), Text.hexValue? (Char.ofNat c.toNat) with
    | true, some high, some low => (16 * high + low).toUInt8 :: percentDecode rest
    | _, _, _ => a :: percentDecode (b :: c :: rest)
  | a :: rest => a :: percentDecode rest
  | [] => []

/-- The text of a path segment, if its bytes are one. -/
def segmentText? (segment : List Char) : Option String :=
  Text.Utf8.decode? (percentDecode (bytesOf (String.ofList segment)))

def segmentId? (segment : List Char) : Option Uuid :=
  (segmentText? segment).bind Uuid.ofString?

/-- The characters of a part of a query. A plus sign is a blank. -/
def formDecode (bytes : List UInt8) : List (Option Char) :=
  Text.Utf8.decode (percentDecode (bytes.map fun b => if b == byteOf '+' then byteOf ' ' else b))

/-- The pairs of a query; what has no equals sign is a name with an empty value. -/
def queryPairs (query : List Char) : List (List (Option Char) × List (Option Char)) :=
  let parts := splitOn (byteOf '&') (bytesOf (String.ofList query))
  (parts.filter (!·.isEmpty)).map fun part =>
    let name := part.takeWhile (· != byteOf '=')
    (formDecode name, formDecode (part.drop (name.length + 1)))

structure Page where
  limit : Option Int := none
  offset : Option Int := none
  deriving DecidableEq

namespace Page

/-- A number of 64 bits, its sign included. -/
def number? (value : List (Option Char)) : Option Int :=
  (value.mapM id).bind fun cs => Text.signed? 63 (String.ofList cs)

/-- Takes in one pair of a query. Neither number may come twice; other names do not matter. -/
def add? (page : Page) (name value : List (Option Char)) : Option Page :=
  if name = "limit".toList.map some then
    if page.limit.isSome then none else (number? value).map fun n => { page with limit := some n }
  else if name = "offset".toList.map some then
    if page.offset.isSome then none else (number? value).map fun n => { page with offset := some n }
  else some page

def ofQuery? (query : List Char) : Option Page :=
  (queryPairs query).foldlM (fun page (name, value) => page.add? name value) {}

/-- How many items: from 1 to 200, and 50 if nothing is said. -/
def effectiveLimit (page : Page) : Int :=
  max 1 (min 200 (page.limit.getD 50))

def effectiveOffset (page : Page) : Int :=
  max 0 (page.offset.getD 0)

end Page

end HelpDesk.Http
