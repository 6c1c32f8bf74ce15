import HelpDesk.Settings

/-! The frames of a socket and the room they take on the way. -/

namespace HelpDesk

/-- Nanoseconds since the server was started. -/
abbrev Instant := Nat

inductive SocketFrame
  | text (content : String)
  | binary (bytes : List UInt8)
  | ping (bytes : List UInt8)
  | pong (bytes : List UInt8)
  | close
  deriving DecidableEq

namespace SocketFrame

def contentSize : SocketFrame → Nat
  | .text content => content.utf8ByteSize
  | .binary bytes | .ping bytes | .pong bytes => bytes.length
  | .close => 0

/-- Bytes that the server's frame takes: the content behind a header of two, four or ten bytes. -/
def size (frame : SocketFrame) : Nat :=
  let n := frame.contentSize
  n + (if n ≤ 125 then 2 else if n ≤ 65535 then 4 else 10)

def heartbeat : SocketFrame := ping []

end SocketFrame

inductive Inbound
  | frame (frame : SocketFrame)
  /-- the socket failed, or the peer broke its rules -/
  | failure
  | finish
  deriving DecidableEq

end HelpDesk
