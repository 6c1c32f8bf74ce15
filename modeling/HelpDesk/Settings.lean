/-! Lengths of time, and the settings that every socket is held to. -/

namespace HelpDesk

/-- A length of time in nanoseconds. -/
abbrev Span := Nat

namespace Span

def perSecond : Nat := 1000000000

def ofSeconds (n : Nat) : Span := n * perSecond

def ofMillis (n : Nat) : Span := n * 1000000

def seconds (s : Span) : Nat := s / perSecond

def subsecond (s : Span) : Nat := s % perSecond

/-- The least length that a count of seconds in 64 bits cannot hold. -/
def limit : Nat := Nat.pow 2 64 * perSecond

def times? (s : Span) (n : Nat) : Option Span :=
  if s * n < limit then some (s * n) else none

end Span

structure Settings where
  /-- inbound texts of more bytes are dropped -/
  maxFrameBytes : Nat
  /-- the longest time between two pongs -/
  pongWait : Span
  /-- how long the writer is idle before it sends a ping -/
  pingPeriod : Span
  /-- the longest time that one write may take -/
  writeWait : Span
  /-- how many frames wait for the writer at most -/
  queueCapacity : Nat
  deriving DecidableEq, Repr

namespace Settings

/-- Messages of up to this size never end a socket. -/
def protocolFloorBytes : Nat := 65536

def maxMessageBytes (s : Settings) : Nat :=
  max s.maxFrameBytes protocolFloorBytes

def default : Settings where
  maxFrameBytes := 512
  pongWait := .ofSeconds 60
  pingPeriod := .ofSeconds 54
  writeWait := .ofSeconds 10
  queueCapacity := 256

/-- Nine tenths of the wait for pongs, in whole nanoseconds. None where the multiple cannot be held. -/
def pingPeriodFor? (pongWait : Span) : Option Span :=
  (pongWait.times? 9).map (· / 10)

/-- The default settings with another wait for pongs and the period that goes with it. -/
def withPongWait? (pongWait : Span) : Option Settings :=
  (pingPeriodFor? pongWait).map fun pingPeriod => { default with pongWait, pingPeriod }

end Settings

end HelpDesk
