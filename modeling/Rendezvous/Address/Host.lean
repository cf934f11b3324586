import Rendezvous.Address.Error
import Rendezvous.Text.Blank
import Rendezvous.Text.Pieces

/-!
# Hosts

Where a node can be reached: a dotted IPv4 address, which a probe reports, or a DNS name, which the
configuration gives. A host determines an address up to the peer identifier at its end.
-/

namespace Rendezvous

/-- An IPv4 address by its four bytes. -/
structure Ipv4 where
  /-- The first byte. -/
  a : UInt8
  /-- The second byte. -/
  b : UInt8
  /-- The third byte. -/
  c : UInt8
  /-- The last byte. -/
  d : UInt8
deriving DecidableEq, Repr, Inhabited

namespace Ipv4

/-- The dotted decimal form. -/
def text (ip : Ipv4) : String :=
  s!"{ip.a.toNat}.{ip.b.toNat}.{ip.c.toNat}.{ip.d.toNat}"

/-- The value of a list of decimal digits. -/
def decimalValue (digits : List Char) : Nat :=
  digits.foldl (fun n c => 10 * n + (c.toNat - '0'.toNat)) 0

/-- One of the four numbers: one to three digits, no zero in front of another digit, at most 255. -/
def byte? (digits : List Char) : Option UInt8 :=
  if digits.isEmpty || 3 < digits.length || !digits.all Char.isDigit then none
  else if 1 < digits.length && digits.head? == some '0' then none
  else if 255 < decimalValue digits then none
  else some (UInt8.ofNat (decimalValue digits))

/-- Read four numbers joined by dots and nothing else. -/
def parse? (s : String) : Option Ipv4 :=
  match (Text.splitAt '.' s.toList).map byte? with
  | [some a, some b, some c, some d] => some ⟨a, b, c, d⟩
  | _ => none

end Ipv4

/-- The host part of an address. -/
inductive Host where
  /-- A probed IP address. -/
  | ip4 (ip : Ipv4)
  /-- A configured DNS name, taken as it is. -/
  | dns (name : String)
deriving DecidableEq, Repr

/-- The TCP port on which nodes talk to each other. -/
def peerPort : Nat := 2121

namespace Host

/-- How an address with an IP host begins. -/
def ip4Lead : String := "/ip4/"

/-- How an address with a DNS host begins. -/
def dnsLead : String := "/dns/"

/-- What stands before the peer identifier of an address. -/
def peerMark : String := "/p2p/"

/-- The output of an IP probe as a host. -/
def parseIp (raw : String) : Except FormatError Host :=
  match Ipv4.parse? (Text.trim raw) with
  | some ip => .ok (.ip4 ip)
  | none => .error (.invalidIp (Text.trim raw))

/-- The host as it stands after its lead. -/
def name : Host → String
  | .ip4 ip => ip.text
  | .dns name => name

/-- How an address with this kind of host begins. -/
def lead : Host → String
  | .ip4 _ => ip4Lead
  | .dns _ => dnsLead

/-- The part of an address before the peer identifier. -/
def stem (h : Host) : String :=
  h.lead ++ h.name ++ s!"/tcp/{peerPort}" ++ peerMark

end Host

end Rendezvous
