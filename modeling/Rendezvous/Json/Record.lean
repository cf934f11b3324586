import Rendezvous.Json.Value

/-!
# Records

A record with named fields is written as an object, or as an array of its fields in order, of which
the last ones may be missing. A key that names a field twice is refused, any other key is skipped.
-/

namespace Rendezvous

namespace Record

/-- The values of the named fields of a list of members, or nothing if a field is named twice. -/
def ofMembers? {α : Type} (names : List String) (members : List (String × α)) :
    Option (List (Option α)) :=
  names.mapM fun name =>
    match members.filter (·.1 == name) with
    | [] => some none
    | [m] => some (some m.2)
    | _ => none

/-- The values of the first fields, in order, or nothing if there are more values than fields. -/
def ofItems? {α : Type} (names : List String) (items : List α) : Option (List (Option α)) :=
  if items.length ≤ names.length then
    some (items.map some ++ List.replicate (names.length - items.length) none)
  else none

/-- A field that has a default. -/
def orDefault {α β : Type} (default : β) (read : α → Option β) : Option α → Option β
  | none => some default
  | some a => read a

end Record

namespace Json

/-- The values of the named fields of a record. Every key has to be a proper string, whether it
names a field or not. -/
def fields? (names : List String) : Json → Option (List (Option Json))
  | .object members =>
    match members.mapM fun m => m.1.map (·, m.2) with
    | some members => Record.ofMembers? names members
    | none => none
  | .list items => Record.ofItems? names items
  | _ => none

end Json

end Rendezvous
