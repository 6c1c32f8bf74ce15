import HelpDesk.Socket.Frame

/-! The reading side of a socket. It reads until the peer closes, the socket fails or ends, or the deadline passes;
only a pong moves the deadline. -/

namespace HelpDesk.Reader

/-- The deadline after an item read at an instant; none if the item ends the reading. -/
def next? (pongWait : Span) (now deadline : Instant) : Inbound → Option Instant
  | .frame (.pong _) => some (now + pongWait)
  | .frame .close | .failure | .finish => none
  | .frame (.text _) | .frame (.binary _) | .frame (.ping _) => some deadline

/-- The texts that are read, with their instants, and the end of the reading. -/
structure Extent where
  texts : List (Instant × String)
  ended : Instant
  deriving DecidableEq

def Extent.after (now : Instant) (item : Inbound) (rest : Extent) : Extent :=
  match item with
  | .frame (.text text) => { rest with texts := (now, text) :: rest.texts }
  | _ => rest

/-- What is read of items that come at the given instants. An item that comes exactly at the deadline is still
read; after the last item there is silence. -/
def extent (pongWait : Span) (deadline : Instant) : List (Instant × Inbound) → Extent
  | [] => ⟨[], deadline⟩
  | (now, item) :: rest =>
    if deadline < now then ⟨[], deadline⟩
    else match next? pongWait now deadline item with
      | none => ⟨[], now⟩
      | some deadline => (extent pongWait deadline rest).after now item

end HelpDesk.Reader
