import Mathlib.Data.List.Basic
import Mathlib.Data.List.Nodup

/-!
# Things that are known by numbers

Lists in which everything has a number of its own. Taking something out by its number leaves all the
others, in their order.
-/

namespace Rendezvous

open scoped List

variable {α : Type} {l : List (Nat × α)} {id : Nat} {e : Nat × α}

/-- Taking out the first thing by its number leaves the rest. -/
theorem filter_head (hl : ((e :: l).map (·.1)).Nodup) : (e :: l).filter (·.1 != e.1) = l := by
  have he := (List.nodup_cons.1 hl).1
  rw [List.filter_cons_of_neg (by simp)]
  refine List.filter_eq_self.2 fun x hx => ?_
  have hne : x.1 ≠ e.1 := fun hx' => he (List.mem_map.2 ⟨x, hx, hx'⟩)
  simpa using hne

/-- Taking something out by its number leaves all others. -/
theorem perm_cons_filter (hl : (l.map (·.1)).Nodup) (h : l.find? (·.1 == id) = some e) :
    l ~ e :: l.filter (·.1 != id) := by
  induction l with
  | nil => simp at h
  | cons x rest ih =>
    obtain ⟨-, hrest⟩ := List.nodup_cons.1 hl
    by_cases hid : x.1 = id
    · subst hid
      rw [List.find?_cons_of_pos (by simp)] at h
      rw [filter_head hl, Option.some.inj h]
    · rw [List.find?_cons_of_neg (by simpa using hid)] at h
      rw [List.filter_cons_of_pos (by simpa using hid)]
      exact ((ih hrest h).cons x).trans (List.Perm.swap ..)

/-- What is found by its number is still found among those that pass a test which it passes. -/
theorem find?_filter_of_pos {keep : Nat × α → Bool} (h : l.find? (·.1 == id) = some e)
    (hkeep : keep e = true) : (l.filter keep).find? (·.1 == id) = some e := by
  induction l with
  | nil => simp at h
  | cons x rest ih =>
    by_cases hid : x.1 = id
    · rw [List.find?_cons_of_pos (by simpa using hid)] at h
      obtain rfl := Option.some.inj h
      rw [List.filter_cons_of_pos hkeep, List.find?_cons_of_pos (by simpa using hid)]
    · rw [List.find?_cons_of_neg (by simpa using hid)] at h
      by_cases hx : keep x = true
      · rw [List.filter_cons_of_pos hx, List.find?_cons_of_neg (by simpa using hid), ih h]
      · rw [List.filter_cons_of_neg hx, ih h]

/-- What is found by its number has this number. -/
theorem fst_of_find? (h : l.find? (·.1 == id) = some e) : e.1 = id := by
  simpa using List.find?_some h

/-- The first thing is found by its number. -/
theorem find?_head (e : Nat × α) (l : List (Nat × α)) : (e :: l).find? (·.1 == e.1) = some e :=
  List.find?_cons_of_pos (by simp)

/-- Without one of its things, a list is shorter. -/
theorem length_filter_lt (h : l.find? (·.1 == id) = some e) :
    (l.filter (·.1 != id)).length < l.length := by
  refine List.length_filter_lt_length_iff_exists.2 ⟨e, List.mem_of_find?_eq_some h, ?_⟩
  simp [fst_of_find? h]

end Rendezvous
