import Rendezvous.Text.Quoted

/-!
# What can be wrong with an address

The rules that a probed identifier, a probed IP address and a multiaddress have to keep, one
constructor for each way to break one.
-/

namespace Rendezvous

/-- Why a text is no identifier, no IP address or no multiaddress. -/
inductive FormatError where
  /-- The identifier has fewer characters than one has. -/
  | idTooShort (id : String) (expected actual : Nat)
  /-- The address begins with neither kind of host. -/
  | missingPrefix (text : String)
  /-- The address names no peer. -/
  | missingPeerId (text : String)
  /-- The address names a peer by an identifier of the wrong length. -/
  | wrongIdLength (address : String) (expected actual : Nat)
  /-- The text is no IP address. -/
  | invalidIp (text : String)
deriving DecidableEq, Repr

/-- The sentence shown for a format error. -/
def FormatError.message : FormatError → String
  | .idTooShort id expected actual =>
    s!"Peer id too short: expected {expected} chars, got {actual} (" ++ Text.quoted id ++ ")"
  | .missingPrefix text => "MultiAddress must begin with /ip4/ or /dns/: " ++ Text.quoted text
  | .missingPeerId text => "MultiAddress missing /p2p/ segment: " ++ Text.quoted text
  | .wrongIdLength address expected actual =>
    s!"MultiAddress peer id must be {expected} chars, got {actual}: " ++ Text.quoted address
  | .invalidIp text => "Not an IPv4 address: " ++ Text.quoted text

end Rendezvous
