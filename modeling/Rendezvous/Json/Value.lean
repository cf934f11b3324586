/-!
# JSON values

A document as it is written: members of an object keep their order and may repeat, numbers keep
their digits, and a string whose escapes name no character is kept as such, because it only matters
where the string is wanted.
-/

namespace Rendezvous

/-- A number as it is written. -/
structure Json.Number where
  /-- Whether a minus sign stands in front. -/
  negative : Bool := false
  /-- The digits before the point. -/
  whole : Nat
  /-- The digits after the point, if there is one. -/
  fraction : Option (List Char) := none
  /-- The exponent, if there is one. -/
  exponent : Option Int := none
deriving DecidableEq, Repr, Inhabited

/-- A JSON value. -/
inductive Json where
  /-- Nothing. -/
  | null
  /-- A truth value. -/
  | bool (b : Bool)
  /-- A number. -/
  | number (n : Json.Number)
  /-- A string; `none` when an escape in it names no character. -/
  | text (s : Option String)
  /-- An array. -/
  | list (items : List Json)
  /-- An object. -/
  | object (members : List (Option String × Json))
deriving Repr, Inhabited

namespace Json

/-- A string value. -/
def ofString (s : String) : Json := .text (some s)

/-- A number value without sign, point and exponent. -/
def ofNat (n : Nat) : Json := .number ⟨false, n, none, none⟩

/-- A whole number. -/
def ofInt (n : Int) : Json := .number ⟨n < 0, n.natAbs, none, none⟩

/-- An object with distinct keys. -/
def ofMembers (members : List (String × Json)) : Json :=
  .object (members.map fun m => (some m.1, m.2))

/-- The truth value, if the value is one. -/
def bool? : Json → Option Bool
  | .bool b => some b
  | _ => none

/-- The string, if the value is one. -/
def string? : Json → Option String
  | .text s => s
  | _ => none

/-- The items, if the value is an array. -/
def items? : Json → Option (List Json)
  | .list items => some items
  | _ => none

/-- The integer, if the value is written as one. A negative zero is not. -/
def int? : Json → Option Int
  | .number ⟨negative, whole, none, none⟩ =>
    if negative then if whole = 0 then none else some (-whole) else some whole
  | _ => none

/-- The integer, if the value is one from `lo` to `hi`. -/
def intIn? (lo hi : Int) (j : Json) : Option Int :=
  match j.int? with
  | some n => if lo ≤ n ∧ n ≤ hi then some n else none
  | none => none

/-- The strings of an array that holds nothing else. -/
def strings? (j : Json) : Option (List String) :=
  j.items?.bind (·.mapM string?)

/-- A string, or nothing for `null`. -/
def nullableString? : Json → Option (Option String)
  | .null => some none
  | .text (some s) => some (some s)
  | _ => none

/-- The value of the last member of a key. -/
def get? (j : Json) (key : String) : Option Json :=
  match j with
  | .object members => (members.reverse.find? fun m => m.1 == some key).map (·.2)
  | _ => none

end Json

end Rendezvous
