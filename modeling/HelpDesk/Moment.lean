import HelpDesk.Text.Decimal

/-! Points in time with the offset from UTC at which they are to be shown, and their text in the
form of RFC 3339. Nanoseconds are kept; years outside 0 to 9999 have no text. -/

namespace HelpDesk

/-- Days of the proleptic Gregorian calendar, counted from 1970-01-01. -/
structure Date where
  year : Int
  month : Nat
  day : Nat
  deriving DecidableEq, Repr

namespace Date

def isLeap (year : Int) : Bool :=
  year % 4 == 0 && (year % 100 != 0 || year % 400 == 0)

def daysInMonth (year : Int) (month : Nat) : Nat :=
  if month = 2 then (if isLeap year then 29 else 28)
  else if month = 4 ∨ month = 6 ∨ month = 9 ∨ month = 11 then 30
  else 31

def isValid (d : Date) : Bool :=
  1 ≤ d.month && d.month ≤ 12 && 1 ≤ d.day && d.day ≤ daysInMonth d.year d.month

/-- The number of the day. Years are counted from March, so that the leap day is the last of its
year, and in eras of 400 years, which all have 146097 days. -/
def toDays (d : Date) : Int :=
  let y := if d.month ≤ 2 then d.year - 1 else d.year
  let era := y / 400
  let ofEra := y % 400
  let month : Int := (d.month + 9) % 12
  let ofYear := (153 * month + 2) / 5 + d.day - 1
  era * 146097 + (ofEra * 365 + ofEra / 4 - ofEra / 100 + ofYear) - 719468

def ofDays (days : Int) : Date :=
  let shifted := days + 719468
  let era := shifted / 146097
  let ofEra := shifted % 146097
  let year := (ofEra - ofEra / 1460 + ofEra / 36524 - ofEra / 146096) / 365
  let ofYear := ofEra - (365 * year + year / 4 - year / 100)
  let month := (5 * ofYear + 2) / 153
  let day := ofYear - (153 * month + 2) / 5 + 1
  let calendarMonth := if month < 10 then month + 3 else month - 9
  { year := year + era * 400 + (if calendarMonth ≤ 2 then 1 else 0)
    month := calendarMonth.toNat
    day := day.toNat }

end Date

/-- A point in time: nanoseconds since 1970-01-01 in UTC, and the offset of its local time in minutes. -/
structure Moment where
  nanos : Int
  offset : Int
  deriving DecidableEq, Repr

namespace Moment
open Text

def nanosPerSecond : Int := 1000000000
def nanosPerMinute : Int := 60 * nanosPerSecond
def nanosPerDay : Int := 86400 * nanosPerSecond

/-- The moment so many seconds and nanoseconds after the beginning of 1970, in UTC. -/
def ofUnix (seconds : Int) (nanos : Nat) : Moment :=
  ⟨seconds * nanosPerSecond + nanos, 0⟩

def addSeconds (m : Moment) (seconds : Int) : Moment :=
  { m with nanos := m.nanos + seconds * nanosPerSecond }

def localNanos (m : Moment) : Int :=
  m.nanos + m.offset * nanosPerMinute

def localDate (m : Moment) : Date :=
  Date.ofDays (m.localNanos / nanosPerDay)

def sinceMidnight (m : Moment) : Nat :=
  (m.localNanos % nanosPerDay).toNat

/-- The moment at which it is the given local time on the given day. -/
def ofLocal (date : Date) (sinceMidnight : Nat) (offset : Int) : Moment :=
  ⟨date.toDays * nanosPerDay + sinceMidnight - offset * nanosPerMinute, offset⟩

/-- A fraction of a second: a point and the digits up to the last that is not zero; nothing for zero. -/
def fraction (nanos : Nat) : List Char :=
  if nanos = 0 then [] else '.' :: ((padded 9 nanos).reverse.dropWhile (· == '0')).reverse

/-- `Z` for UTC, else the sign, hours and minutes. -/
def offsetText (offset : Int) : List Char :=
  if offset = 0 then ['Z']
  else (if offset < 0 then '-' else '+') ::
    (padded 2 (offset.natAbs / 60) ++ ':' :: padded 2 (offset.natAbs % 60))

/-- The text of a moment whose local year has four digits. -/
def toChars? (m : Moment) : Option (List Char) :=
  let date := m.localDate
  if 0 ≤ date.year ∧ date.year ≤ 9999 then
    let nanos := m.sinceMidnight
    let seconds := nanos / 1000000000
    some (padded 4 date.year.toNat ++ '-' :: padded 2 date.month ++ '-' :: padded 2 date.day ++
      'T' :: padded 2 (seconds / 3600) ++ ':' :: padded 2 (seconds / 60 % 60) ++ ':' :: padded 2 (seconds % 60) ++
      fraction (nanos % 1000000000) ++ offsetText m.offset)
  else none

/-- The number of exactly `width` digits at the front, and what follows them. -/
def take? (width : Nat) (cs : List Char) : Option (Nat × List Char) :=
  if width ≤ cs.length then (digits? (cs.take width)).map (·, cs.drop width) else none

def after? (c : Char) : List Char → Option (List Char)
  | d :: rest => if d = c then some rest else none
  | [] => none

/-- Nanoseconds of a fraction after its point. Digits past the ninth count for nothing. -/
def fractionNanos (digits : List Char) : Option Nat :=
  digits? ((digits ++ List.replicate 9 '0').take 9)

def fraction? : List Char → Option (Nat × List Char)
  | '.' :: rest =>
    let digits := rest.takeWhile Char.isDigit
    if digits.isEmpty then none else (fractionNanos digits).map (·, rest.dropWhile Char.isDigit)
  | cs => some (0, cs)

/-- Reads an offset, in minutes, that ends the text. -/
def offset? : List Char → Option Int
  | ['Z'] => some 0
  | ['z'] => some 0
  | sign :: rest => do
    let negative ← if sign = '-' then some true else if sign = '+' then some false else none
    let (hours, rest) ← take? 2 rest
    let rest ← after? ':' rest
    let (minutes, rest) ← take? 2 rest
    if hours ≤ 23 ∧ minutes ≤ 59 ∧ rest = [] then
      let total : Int := hours * 60 + minutes
      some (if negative then -total else total)
    else none
  | [] => none

/-- May a leap second be read as this moment? Only at the last instant of a month in UTC. -/
def endsMonth (m : Moment) : Bool :=
  let utc : Moment := { m with offset := 0 }
  let date := utc.localDate
  utc.sinceMidnight + 1 == 86400 * 1000000000 && date.day == Date.daysInMonth date.year date.month

/-- Reads a moment. Any one ASCII character may stand between date and time. Second 60 is read as the last
nanosecond before it. -/
def ofChars? (cs : List Char) : Option Moment := do
  let (year, cs) ← take? 4 cs
  let cs ← after? '-' cs
  let (month, cs) ← take? 2 cs
  let cs ← after? '-' cs
  let (day, cs) ← take? 2 cs
  let date : Date := ⟨year, month, day⟩
  if !date.isValid then none
  let cs ← match cs with
    | c :: rest => if c.toNat < 0x80 then some rest else none
    | [] => none
  let (hour, cs) ← take? 2 cs
  let cs ← after? ':' cs
  let (minute, cs) ← take? 2 cs
  let cs ← after? ':' cs
  let (second, cs) ← take? 2 cs
  let (nanos, cs) ← fraction? cs
  let offset ← offset? cs
  if hour ≤ 23 ∧ minute ≤ 59 then
    if second ≤ 59 then
      some (ofLocal date ((hour * 3600 + minute * 60 + second) * 1000000000 + nanos) offset)
    else if second = 60 then
      let m := ofLocal date ((hour * 3600 + minute * 60 + 60) * 1000000000 - 1) offset
      if m.endsMonth then some m else none
    else none
  else none

end Moment

end HelpDesk
