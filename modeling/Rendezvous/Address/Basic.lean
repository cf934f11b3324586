import Rendezvous.Address.Host

/-!
# Multiaddresses

The address of a node, `/ip4/<host>/tcp/<port>/p2p/<id>` or the same with `/dns/`. A text counts as
one when it begins with one of the two leads and ends in `/p2p/` and an identifier of the fixed
length; the type carries that fact.
-/

namespace Rendezvous

/-- Characters in a peer identifier. -/
def peerIdLength : Nat := 52

/-- Cut a probed identifier down to its length; one that is too short is refused, not padded. -/
def truncatePeerId (id : String) (length : Nat) : Except FormatError String :=
  if id.length < length then .error (.idTooShort id length id.length)
  else .ok (String.ofList (id.toList.take length))

/-- Whether a listed dependency is an address already, rather than the name of a node. -/
def isLiteralAddress (entry : String) : Bool :=
  Text.contains entry "dns" || Text.contains entry "ip4"

/-- Whether a text begins like an address. -/
def hasLead (s : String) : Bool :=
  Text.startsWith s Host.ip4Lead || Text.startsWith s Host.dnsLead

namespace MultiAddress

/-- What follows the last peer mark of a text. -/
def idPart? (s : String) : Option String :=
  (Text.splitLast? Host.peerMark.toList s.toList).map fun p => String.ofList p.2

/-- The first rule that a trimmed text breaks as an address. -/
def fault? (s : String) : Option FormatError :=
  if hasLead s then
    match idPart? s with
    | none => some (.missingPeerId s)
    | some id =>
      if id.length = peerIdLength then none
      else some (.wrongIdLength s peerIdLength id.length)
  else some (.missingPrefix s)

end MultiAddress

/-- An address that keeps the rules. -/
structure MultiAddress where
  /-- The address as it is written. -/
  text : String
  /-- It breaks no rule. -/
  sound : MultiAddress.fault? text = none
deriving DecidableEq

namespace MultiAddress

instance : Repr MultiAddress := ⟨fun a _ => repr a.text⟩

/-- Read an address, trimmed of blanks. -/
def parse (s : String) : Except FormatError MultiAddress :=
  match h : fault? (Text.trim s) with
  | none => .ok ⟨Text.trim s, h⟩
  | some e => .error e

/-- The address of a peer at a host. -/
def ofHost (h : Host) (peerId : String) : Except FormatError MultiAddress :=
  parse (h.stem ++ peerId)

/-- The identifier at the end of an address. -/
def peerId (a : MultiAddress) : String :=
  (idPart? a.text).getD a.text

end MultiAddress

end Rendezvous
