import Rendezvous.Address.Basic

/-!
# Connection strings

The addresses that a node is to connect to, joined by commas in the order in which they are listed.
A segment is only asked to begin like an address; it may itself hold a comma.
-/

namespace Rendezvous

/-- Addresses joined by commas. -/
structure Connections where
  /-- The joined text. -/
  text : String
deriving DecidableEq, Repr

namespace Connections

/-- No addresses. -/
def empty : Connections := ⟨""⟩

/-- Whether nothing has been added. -/
def isEmpty (c : Connections) : Bool := c.text.isEmpty

/-- Add one segment at the end. -/
def push (c : Connections) (segment : String) : Except FormatError Connections :=
  if hasLead segment then
    .ok ⟨if c.isEmpty then segment else c.text ++ "," ++ segment⟩
  else .error (.missingPrefix segment)

/-- The pieces between the commas that are not empty. -/
def segments (c : Connections) : List String :=
  ((Text.splitAt ',' c.text.toList).filter (!·.isEmpty)).map String.ofList

end Connections

end Rendezvous
