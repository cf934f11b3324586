import Mathlib.Data.List.Basic
import Mathlib.Data.List.TakeWhile
import Mathlib.Tactic.Common
import Rendezvous.Text.Blank
import Rendezvous.Text.Pieces

/-!
# Splitting texts

Splitting at a separator is what the library does, and what is cut out of a text by searching,
splitting or trimming consists of characters of the text. The last place of a pattern stays where it
is when characters are added that do not occur in the pattern.
-/

namespace Rendezvous.Text

theorem splitAt_eq_splitOn (separator : Char) (cs : List Char) :
    splitAt separator cs = cs.splitOn separator := by
  induction cs with
  | nil => rfl
  | cons c cs ih =>
    rw [splitAt, ih, List.splitOn_cons_eq_if_modifyHead]
    by_cases hc : c = separator
    · simp [hc]
    · simp only [hc, beq_eq_false_iff_ne.2 hc, if_false, Bool.false_eq_true]
      cases hrest : cs.splitOn separator with
      | nil => exact absurd hrest (List.splitOn_ne_nil separator cs)
      | cons piece pieces => rfl

/-- What is joined by a separator splits into the pieces of both sides. -/
theorem splitAt_append (separator : Char) (cs ds : List Char) :
    splitAt separator (cs ++ separator :: ds) = splitAt separator cs ++ splitAt separator ds := by
  simp only [splitAt_eq_splitOn, List.splitOn_append_cons_self]

/-- What has no separator is one piece. -/
theorem splitAt_of_not_mem {separator : Char} {cs : List Char} (h : separator ∉ cs) :
    splitAt separator cs = [cs] := by
  rw [splitAt_eq_splitOn, List.splitOn_eq_singleton h]

theorem splitAt_ne_nil (separator : Char) (cs : List Char) : splitAt separator cs ≠ [] := by
  rw [splitAt_eq_splitOn]
  exact List.splitOn_ne_nil separator cs

/-- What is one piece has no separator. -/
theorem not_mem_of_splitAt {separator : Char} {cs piece : List Char}
    (h : splitAt separator cs = [piece]) : separator ∉ cs := by
  intro hmem
  obtain ⟨before, after, rfl⟩ := List.append_of_mem hmem
  rw [splitAt_append] at h
  have hlength := congrArg List.length h
  have hbefore := List.length_pos_of_ne_nil (splitAt_ne_nil separator before)
  have hafter := List.length_pos_of_ne_nil (splitAt_ne_nil separator after)
  rw [List.length_append, List.length_singleton] at hlength
  omega

/-- If all pieces but the first are empty, the text is the first and separators. -/
theorem eq_append_replicate {separator : Char} {cs piece : List Char} {pieces : List (List Char)}
    (h : splitAt separator cs = piece :: pieces) (hempty : ∀ x ∈ pieces, x = []) :
    cs = piece ++ List.replicate pieces.length separator := by
  have hjoin : [separator].intercalate (piece :: pieces) = cs := by
    rw [← h, splitAt_eq_splitOn, List.intercalate_splitOn]
  rw [← hjoin]
  clear h hjoin
  induction pieces generalizing piece with
  | nil => simp
  | cons x pieces ih =>
    obtain rfl := hempty x List.mem_cons_self
    have hrest := @ih [] fun y hy => hempty y (List.mem_cons_of_mem _ hy)
    rw [List.intercalate_cons_cons, hrest]
    simp [List.replicate_succ]

/-! ## The last place of a pattern -/

theorem isPrefixOf_append {pattern cs ds : List Char} (h : ∀ d ∈ ds, d ∉ pattern) :
    pattern.isPrefixOf (cs ++ ds) = pattern.isPrefixOf cs := by
  induction pattern generalizing cs with
  | nil => simp
  | cons x pattern ih =>
    cases cs with
    | nil =>
      cases ds with
      | nil => rfl
      | cons d ds =>
        have hne : x ≠ d := fun heq => h d List.mem_cons_self (by simp [heq])
        simp [List.isPrefixOf, hne]
    | cons c cs =>
      have hrest : ∀ d ∈ ds, d ∉ pattern := fun d hd hmem => h d hd (List.mem_cons_of_mem _ hmem)
      simp [List.isPrefixOf, ih hrest]

/-- A pattern has no place among characters that do not occur in it. -/
theorem splitLast?_eq_none {pattern ds : List Char} (hpattern : pattern ≠ [])
    (h : ∀ d ∈ ds, d ∉ pattern) : splitLast? pattern ds = none := by
  have hne : pattern.isEmpty = false := by simpa using hpattern
  induction ds with
  | nil => simp [splitLast?, hne]
  | cons d ds ih =>
    have hstart : pattern.isPrefixOf (d :: ds) = false := by
      have hsame : pattern.isPrefixOf ([] ++ d :: ds) = pattern.isPrefixOf [] := isPrefixOf_append h
      rw [List.nil_append] at hsame
      rw [hsame]
      cases pattern with
      | nil => exact absurd rfl hpattern
      | cons x pattern => rfl
    simp [splitLast?, ih fun x hx => h x (List.mem_cons_of_mem _ hx), hstart]

/-- Characters that do not occur in the pattern do not move its last place. -/
theorem splitLast?_append {pattern cs ds : List Char} (hpattern : pattern ≠ [])
    (h : ∀ d ∈ ds, d ∉ pattern) :
    splitLast? pattern (cs ++ ds) = (splitLast? pattern cs).map fun p => (p.1, p.2 ++ ds) := by
  induction cs with
  | nil =>
    rw [List.nil_append, splitLast?_eq_none hpattern h, splitLast?_eq_none hpattern (by simp)]
    rfl
  | cons c cs ih =>
    rw [List.cons_append, splitLast?, splitLast?, ih]
    cases splitLast? pattern cs with
    | some p => rfl
    | none =>
      rw [← List.cons_append, isPrefixOf_append h]
      by_cases hbegins : pattern.isPrefixOf (c :: cs) = true
      · have hlength : pattern.length ≤ (c :: cs).length :=
          (List.isPrefixOf_iff_prefix.1 hbegins).length_le
        simp only [Option.map_none, if_pos hbegins, List.drop_append_of_le_length hlength]
        rfl
      · simp [hbegins]

/-! ## Characters of what is cut out -/

theorem mem_of_splitLast? {pattern cs before after : List Char}
    (h : splitLast? pattern cs = some (before, after)) {c : Char} (hc : c ∈ after) : c ∈ cs := by
  induction cs generalizing before with
  | nil =>
    rw [splitLast?] at h
    split at h
    · simp only [Option.some.injEq, Prod.mk.injEq] at h
      rwa [← h.2] at hc
    · exact absurd h (by simp)
  | cons d cs ih =>
    rw [splitLast?] at h
    split at h
    · rename_i before' after' hsplit
      simp only [Option.some.injEq, Prod.mk.injEq] at h
      rw [h.2] at hsplit
      exact List.mem_cons_of_mem _ (ih hsplit)
    · split at h
      · simp only [Option.some.injEq, Prod.mk.injEq] at h
        rw [← h.2] at hc
        exact List.mem_of_mem_drop hc
      · exact absurd h (by simp)

theorem mem_of_trimChars {cs : List Char} {c : Char} (h : c ∈ trimChars cs) : c ∈ cs := by
  unfold trimChars at h
  rw [List.mem_reverse] at h
  have hreverse := (List.dropWhile_suffix isBlank).subset h
  rw [List.mem_reverse] at hreverse
  exact (List.dropWhile_suffix isBlank).subset hreverse

/-- What is dropped from the end of a text is a run of the character, and all of it. -/
theorem exists_dropTrailing (c : Char) (s : String) :
    ∃ n, s = dropTrailing c s ++ String.ofList (List.replicate n c) ∧
      (dropTrailing c s).toList.getLast? ≠ some c := by
  have hsplit := @List.takeWhile_append_dropWhile _ (· == c) s.toList.reverse
  have hrun : s.toList.reverse.takeWhile (· == c) =
      List.replicate (s.toList.reverse.takeWhile (· == c)).length c :=
    List.eq_replicate_iff.2 ⟨rfl, fun d hd => by simpa using List.mem_takeWhile_imp hd⟩
  refine ⟨(s.toList.reverse.takeWhile (· == c)).length, ?_, fun hlast => ?_⟩
  · rw [hrun] at hsplit
    rw [dropTrailing, ← String.ofList_append, ← List.reverse_replicate, ← List.reverse_append,
      hsplit, List.reverse_reverse, String.ofList_toList]
  · have hhead := List.head?_dropWhile_not (· == c) s.toList.reverse
    rw [dropTrailing, String.toList_ofList, List.getLast?_reverse] at hlast
    rw [hlast] at hhead
    simp at hhead

end Rendezvous.Text
