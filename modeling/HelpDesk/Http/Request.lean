/-! An HTTP request as it comes in. -/

namespace HelpDesk.Http

structure Request where
  method : String
  target : String
  headers : List (String × List UInt8)
  body : List UInt8
  /-- can the connection that the request came over become a socket? -/
  upgradable : Bool

def byteOf (c : Char) : UInt8 :=
  c.toNat.toUInt8

def lowerByte (b : UInt8) : UInt8 :=
  if 65 ≤ b.toNat ∧ b.toNat ≤ 90 then b + 32 else b

def bytesOf (s : String) : List UInt8 :=
  s.toUTF8.data.toList

/-- The bytes of a header value in visible ASCII with blanks and tabs, as text. -/
def visible? (bytes : List UInt8) : Option String :=
  if bytes.all fun b => (32 ≤ b.toNat && b.toNat < 127) || b.toNat == 9 then
    some (String.ofList (bytes.map fun b => Char.ofNat b.toNat))
  else none

/-- The first header of a name, in whatever case. -/
def Request.header? (r : Request) (name : String) : Option (List UInt8) :=
  (r.headers.find? fun (n, _) => n.toLower == name).map Prod.snd

end HelpDesk.Http
