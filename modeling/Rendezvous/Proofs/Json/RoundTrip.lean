import Mathlib.Data.List.Forall2
import Rendezvous.Proofs.Json.Tokens

/-!
# Reading what was written

A proper value is one that a document can hold: no string in it is broken, and its fractions have
digits. Written in either layout, it is read as itself. The layouts differ only in the space between
the tokens, so each kind of value has one lemma about its text with any space in it.
-/

namespace Rendezvous.Json

/-! ## Space -/

/-- Nothing but space. -/
def Spaces (ws : List Char) : Prop := ∀ c ∈ ws, isSpace c = true

theorem spaces_nil : Spaces [] := by
  intro c h
  exact absurd h (by simp)

theorem skipSpace_append {ws : List Char} (hws : Spaces ws) (cs : List Char) :
    skipSpace (ws ++ cs) = skipSpace cs :=
  List.dropWhile_append_of_pos hws

theorem skipSpace_cons {c : Char} (hc : isSpace c = false) (cs : List Char) :
    skipSpace (c :: cs) = c :: cs := by
  unfold skipSpace
  rw [List.dropWhile_cons, hc]
  rfl

/-- Space, a comma or a closing bracket ends a number. -/
theorem stops_spaces {ws : List Char} (hws : Spaces ws) {c : Char}
    (hc : c = ',' ∨ c = ']' ∨ c = '\x7d') (rest : List Char) : Stops (ws ++ c :: rest) := by
  intro c' cs h
  cases ws with
  | nil =>
    obtain ⟨rfl, -⟩ := List.cons.inj h
    rcases hc with rfl | rfl | rfl <;> decide
  | cons w ws =>
    obtain ⟨rfl, -⟩ := List.cons.inj h
    have hspace := hws w List.mem_cons_self
    unfold isSpace at hspace
    simp only [Bool.or_eq_true, beq_iff_eq] at hspace
    rcases hspace with ((rfl | rfl) | rfl) | rfl <;> decide

/-- Space in front of a value is skipped. -/
theorem readValue_space {ws : List Char} (hws : Spaces ws) (fuel : Nat) (cs : List Char) :
    readValue fuel (ws ++ cs) = readValue fuel cs := by
  cases fuel with
  | zero => simp [readValue]
  | succ fuel => rw [readValue, readValue, skipSpace_append hws]

theorem readItems_space {ws : List Char} (hws : Spaces ws) (fuel : Nat) (cs : List Char) :
    readItems fuel (ws ++ cs) = readItems fuel cs := by
  cases fuel with
  | zero => simp [readItems]
  | succ fuel => rw [readItems, readItems, readValue_space hws]

theorem readMembers_space {ws : List Char} (hws : Spaces ws) (fuel : Nat) (cs : List Char) :
    readMembers fuel (ws ++ cs) = readMembers fuel cs := by
  cases fuel with
  | zero => simp [readMembers]
  | succ fuel => rw [readMembers, readMembers, skipSpace_append hws]

/-! ## Values -/

/-- A text is read as a value, by a counter that starts at its length at least and whatever comes
after it, unless that goes on with a number. -/
structure Reads (text : List Char) (j : Json) : Prop where
  /-- The text begins with a token, which closes no array. -/
  begins : ∃ c cs, text = c :: cs ∧ isSpace c = false ∧ c ≠ ']'
  /-- It is read. -/
  reads : ∀ fuel rest, text.length ≤ fuel → Stops rest →
    readValue fuel (text ++ rest) = some (j, rest)

/-- A text is read as a member of an object. -/
def ReadsMember (text : List Char) (m : Option String × Json) : Prop :=
  ∃ key ws value, m.1 = some key ∧ Spaces ws ∧ Reads value m.2 ∧
    text = '"' :: (key.toList.flatMap writtenChar ++ '"' :: ':' :: (ws ++ value))

theorem reads_word {word : String} {j : Json} {c : Char} {cs : List Char}
    (hword : word.toList = c :: cs) (hc : isSpace c = false ∧ c ≠ ']')
    (h : ∀ fuel rest, readValue (fuel + 1) (c :: rest) = readWord word j (c :: rest)) :
    Reads word.toList j := by
  refine ⟨⟨c, cs, hword, hc⟩, fun fuel rest hfuel hrest => ?_⟩
  cases fuel with
  | zero => simp [hword] at hfuel
  | succ fuel =>
    have hdrop : (word.toList ++ rest).drop word.length = rest := by
      rw [← String.length_toList, List.drop_left]
    have hlead : word.toList.isPrefixOf (word.toList ++ rest) = true :=
      List.isPrefixOf_iff_prefix.2 (List.prefix_append ..)
    have hread := h fuel (cs ++ rest)
    rw [← List.cons_append, ← hword] at hread
    rw [hread, readWord, if_pos hlead, hdrop]

theorem reads_null : Reads "null".toList .null :=
  reads_word (c := 'n') rfl (by decide) fun _ _ => by simp [readValue, skipSpace, isSpace]

theorem reads_bool (b : Bool) : Reads (write (.bool b)).toList (.bool b) := by
  cases b with
  | true =>
    rw [write]
    exact reads_word (c := 't') rfl (by decide) fun _ _ => by simp [readValue, skipSpace, isSpace]
  | false =>
    rw [write]
    exact reads_word (c := 'f') rfl (by decide) fun _ _ => by simp [readValue, skipSpace, isSpace]

theorem reads_text (s : String) : Reads (writeText s).toList (.text (some s)) := by
  rw [toList_writeText]
  refine ⟨⟨'"', _, rfl, by decide⟩, fun fuel rest hfuel hrest => ?_⟩
  cases fuel with
  | zero => simp at hfuel
  | succ fuel =>
    have htext := readText_writeText s rest
    simp [readValue, skipSpace_cons (show isSpace '"' = false by decide), htext]

/-- A digit begins a number without sign. -/
theorem readValue_digit {c : Char} (hc : c.isDigit = true) (fuel : Nat) (cs : List Char) :
    readValue (fuel + 1) (c :: cs) = readUnsigned false (c :: cs) := by
  have hspace : isSpace c = false := by
    unfold isSpace
    simp only [Bool.or_eq_false_iff, beq_eq_false_iff_ne]
    refine ⟨⟨⟨?_, ?_⟩, ?_⟩, ?_⟩ <;> rintro rfl <;> exact absurd hc (by decide)
  rw [readValue, skipSpace_cons hspace]
  split
  case h_8 => rfl
  all_goals
    rename_i heq
    obtain ⟨rfl, -⟩ := List.cons.inj heq
    exact absurd hc (by decide)

theorem reads_number {n : Number} (hn : n.Proper) : Reads (writeNumber n).toList (.number n) := by
  have hunsigned := fun rest (hrest : Stops rest) => readUnsigned_append hn hrest
  rw [toList_writeNumber]
  cases hsign : n.negative with
  | true =>
    rw [if_pos rfl, List.singleton_append]
    refine ⟨⟨'-', _, rfl, by decide⟩, fun fuel rest hfuel hrest => ?_⟩
    cases fuel with
    | zero => simp at hfuel
    | succ fuel =>
      have hread := hunsigned rest hrest
      rw [hsign] at hread
      simpa [readValue, skipSpace_cons (show isSpace '-' = false by decide)] using hread
  | false =>
    rw [if_neg (by simp), List.nil_append]
    cases hdigits : Nat.toDigits 10 n.whole with
    | nil => exact absurd hdigits Nat.toDigits_ne_nil
    | cons c cs =>
      have hdigit : c.isDigit = true := isDigit_toDigits (hdigits ▸ List.mem_cons_self)
      refine ⟨⟨c, _, rfl, ?_, ?_⟩, fun fuel rest hfuel hrest => ?_⟩
      · unfold isSpace
        simp only [Bool.or_eq_false_iff, beq_eq_false_iff_ne]
        refine ⟨⟨⟨?_, ?_⟩, ?_⟩, ?_⟩ <;> rintro rfl <;> exact absurd hdigit (by decide)
      · rintro rfl
        exact absurd hdigit (by decide)
      · cases fuel with
        | zero => simp at hfuel
        | succ fuel =>
          have hread := hunsigned rest hrest
          rw [hsign, hdigits] at hread
          simpa [readValue_digit hdigit] using hread

/-! ## Arrays -/

/-- The items of an array are read up to its closing bracket, with space after each comma and in
front of the bracket. -/
theorem readItems_append {ws ws' : List Char} (hws : Spaces ws) (hws' : Spaces ws')
    {texts : List (List Char)} {items : List Json} (h : List.Forall₂ Reads texts items)
    (hne : texts ≠ []) {fuel : Nat} (hfuel : ((',' :: ws).intercalate texts).length < fuel)
    (rest : List Char) :
    readItems fuel ((',' :: ws).intercalate texts ++ (ws' ++ ']' :: rest)) = some (items, rest) := by
  induction h generalizing fuel with
  | nil => exact absurd rfl hne
  | @cons text item texts items hitem hitems ih =>
    cases fuel with
    | zero => simp at hfuel
    | succ fuel =>
      rw [readItems]
      cases hitems with
      | nil =>
        rw [List.intercalate_singleton] at hfuel ⊢
        have hstop := stops_spaces hws' (.inr (.inl rfl)) rest
        rw [hitem.reads fuel _ (by omega) hstop]
        simp [skipSpace_append hws', skipSpace_cons (show isSpace ']' = false by decide)]
      | @cons text' item' texts items hitem' hitems =>
        rw [List.intercalate_cons_cons] at hfuel ⊢
        simp only [List.length_append, List.length_cons] at hfuel
        have hstop := stops_spaces spaces_nil (.inl rfl)
          (ws ++ ((',' :: ws).intercalate (text' :: texts) ++ (ws' ++ ']' :: rest)))
        have hread := hitem.reads fuel _ (by omega) hstop
        have hrest := ih (List.cons_ne_nil _ _) (show _ < fuel by omega)
        rw [← readItems_space hws] at hrest
        simp only [List.nil_append, List.append_assoc, List.cons_append] at hread hrest ⊢
        rw [hread]
        simp only [skipSpace_cons (show isSpace ',' = false by decide), hrest, Option.map_some]

/-- Texts between commas begin as the first of them does. -/
theorem intercalate_eq_cons (sep : List Char) {text : List Char} (texts : List (List Char))
    {c : Char} {cs : List Char} (h : text = c :: cs) :
    ∃ cs', sep.intercalate (text :: texts) = c :: cs' := by
  cases texts with
  | nil => exact ⟨cs, by rw [List.intercalate_singleton, h]⟩
  | cons text' texts =>
    rw [List.intercalate_cons_cons, h, List.append_assoc, List.cons_append]
    exact ⟨_, rfl⟩

theorem reads_list {ws ws' : List Char} (hws : Spaces ws) (hws' : Spaces ws')
    {texts : List (List Char)} {items : List Json} (h : List.Forall₂ Reads texts items)
    (hne : texts ≠ []) :
    Reads ('[' :: (ws ++ ((',' :: ws).intercalate texts ++ (ws' ++ [']'])))) (.list items) := by
  refine ⟨⟨'[', _, rfl, by decide⟩, fun fuel rest hfuel _ => ?_⟩
  cases fuel with
  | zero => simp at hfuel
  | succ fuel =>
    simp only [List.length_cons, List.length_append] at hfuel
    have hread := readItems_append hws hws' h hne (show _ < fuel by omega) rest
    rw [← readItems_space hws] at hread
    -- The first item does not close the array.
    cases h with
    | nil => exact absurd rfl hne
    | @cons text item texts items hitem hitems =>
      obtain ⟨c, cs, htext, hc, hclose⟩ := hitem.begins
      obtain ⟨cs', hjoined⟩ := intercalate_eq_cons (',' :: ws) texts htext
      have hskip := skipSpace_append hws
        ((',' :: ws).intercalate (text :: texts) ++ (ws' ++ ']' :: rest))
      rw [hjoined, List.cons_append, skipSpace_cons hc] at hskip
      rw [hjoined] at hread ⊢
      simp only [List.cons_append, List.append_assoc, List.nil_append] at hread hskip ⊢
      rw [readValue, skipSpace_cons (by decide)]
      simp only [hskip, hread]
      split
      · rename_i heq
        exact absurd (List.cons.inj heq).1 hclose
      · rfl

theorem reads_nil : Reads ['[', ']'] (.list []) := by
  refine ⟨⟨'[', _, rfl, by decide⟩, fun fuel rest hfuel _ => ?_⟩
  cases fuel with
  | zero => simp at hfuel
  | succ fuel => simp [readValue, skipSpace, isSpace]

/-! ## Objects -/

/-- What is made of a member and of what comes after its value. -/
def afterMember (fuel : Nat) (m : Option String × Json) (rest : List Char) :
    Option (List (Option String × Json) × List Char) :=
  match skipSpace rest with
  | ',' :: rest => (Json.readMembers fuel rest).map fun r => (m :: r.1, r.2)
  | '\x7d' :: rest => some ([m], rest)
  | _ => none

/-- A member is read up to what comes after its value. -/
theorem ReadsMember.readMembers {text : List Char} {m : Option String × Json}
    (h : ReadsMember text m) {fuel : Nat} (hfuel : text.length ≤ fuel) {rest : List Char}
    (hrest : Stops rest) :
    Json.readMembers (fuel + 1) (text ++ rest) = afterMember fuel m rest := by
  obtain ⟨key, ws, value, hkey, hws, hvalue, rfl⟩ := h
  obtain ⟨mkey, j⟩ := m
  obtain rfl : mkey = some key := hkey
  have hlength : value.length ≤ fuel := by
    simp only [List.length_cons, List.length_append] at hfuel
    omega
  have htext := readText_writeText key (':' :: (ws ++ (value ++ rest)))
  have hread := hvalue.reads fuel rest hlength hrest
  rw [← readValue_space hws] at hread
  rw [Json.readMembers]
  simp only [List.cons_append, List.append_assoc] at htext ⊢
  rw [skipSpace_cons (show isSpace '"' = false by decide)]
  simp only [htext, skipSpace_cons (show isSpace ':' = false by decide), hread]
  rfl

/-- The members of an object are read up to its closing brace, with space after each comma and in
front of the brace. -/
theorem readMembers_append {ws ws' : List Char} (hws : Spaces ws) (hws' : Spaces ws')
    {texts : List (List Char)} {members : List (Option String × Json)}
    (h : List.Forall₂ ReadsMember texts members) (hne : texts ≠ []) {fuel : Nat}
    (hfuel : ((',' :: ws).intercalate texts).length < fuel) (rest : List Char) :
    readMembers fuel ((',' :: ws).intercalate texts ++ (ws' ++ '\x7d' :: rest)) =
      some (members, rest) := by
  induction h generalizing fuel with
  | nil => exact absurd rfl hne
  | @cons text m texts members hmember hmembers ih =>
    cases fuel with
    | zero => simp at hfuel
    | succ fuel =>
      cases hmembers with
      | nil =>
        rw [List.intercalate_singleton] at hfuel ⊢
        have hstop := stops_spaces hws' (.inr (.inr rfl)) rest
        rw [hmember.readMembers (by omega) hstop]
        simp [afterMember, skipSpace_append hws',
          skipSpace_cons (show isSpace '\x7d' = false by decide)]
      | @cons text' m' texts members hmember' hmembers =>
        rw [List.intercalate_cons_cons] at hfuel ⊢
        simp only [List.length_append, List.length_cons] at hfuel
        have hstop := stops_spaces spaces_nil (.inl rfl)
          (ws ++ ((',' :: ws).intercalate (text' :: texts) ++ (ws' ++ '\x7d' :: rest)))
        have hread := hmember.readMembers (show _ ≤ fuel by omega) hstop
        have hrest := ih (List.cons_ne_nil _ _) (show _ < fuel by omega)
        rw [← readMembers_space hws] at hrest
        simp only [List.nil_append, List.append_assoc, List.cons_append] at hread hrest ⊢
        rw [hread, afterMember]
        simp only [skipSpace_cons (show isSpace ',' = false by decide), hrest, Option.map_some]

theorem reads_object {ws ws' : List Char} (hws : Spaces ws) (hws' : Spaces ws')
    {texts : List (List Char)} {members : List (Option String × Json)}
    (h : List.Forall₂ ReadsMember texts members) (hne : texts ≠ []) :
    Reads ('\x7b' :: (ws ++ ((',' :: ws).intercalate texts ++ (ws' ++ ['\x7d']))))
      (.object members) := by
  refine ⟨⟨'\x7b', _, rfl, by decide⟩, fun fuel rest hfuel _ => ?_⟩
  cases fuel with
  | zero => simp at hfuel
  | succ fuel =>
    simp only [List.length_cons, List.length_append] at hfuel
    have hread := readMembers_append hws hws' h hne (show _ < fuel by omega) rest
    rw [← readMembers_space hws] at hread
    -- The first member begins with a quote.
    cases h with
    | nil => exact absurd rfl hne
    | @cons text m texts members hmember hmembers =>
      obtain ⟨key, ws'', value, -, -, -, htext⟩ := hmember
      obtain ⟨cs', hjoined⟩ := intercalate_eq_cons (',' :: ws) texts htext
      have hskip := skipSpace_append hws
        ((',' :: ws).intercalate (text :: texts) ++ (ws' ++ '\x7d' :: rest))
      rw [hjoined, List.cons_append, skipSpace_cons (by decide)] at hskip
      rw [hjoined] at hread ⊢
      simp only [List.cons_append, List.append_assoc, List.nil_append] at hread hskip ⊢
      rw [readValue, skipSpace_cons (by decide)]
      simp only [hskip, hread, Option.map_some]
      rfl

theorem reads_empty : Reads ['\x7b', '\x7d'] (.object []) := by
  refine ⟨⟨'\x7b', _, rfl, by decide⟩, fun fuel rest hfuel _ => ?_⟩
  cases fuel with
  | zero => simp at hfuel
  | succ fuel => simp [readValue, skipSpace, isSpace]

/-! ## Proper values -/

/-- A value that a document can hold. -/
inductive Proper : Json → Prop where
  | null : Proper .null
  | bool (b : Bool) : Proper (.bool b)
  | number {n : Number} (hn : n.Proper) : Proper (.number n)
  | text (s : String) : Proper (.text (some s))
  | list {items : List Json} (h : ∀ j ∈ items, Proper j) : Proper (.list items)
  | object {members : List (Option String × Json)} (hkeys : ∀ m ∈ members, m.1.isSome = true)
      (h : ∀ m ∈ members, Proper m.2) : Proper (.object members)

theorem Proper.ofMembers {members : List (String × Json)} (h : ∀ m ∈ members, Proper m.2) :
    Proper (.ofMembers members) := by
  refine .object ?_ ?_
  · intro m hm
    obtain ⟨m', -, rfl⟩ := List.mem_map.1 hm
    rfl
  · intro m hm
    obtain ⟨m', hm', rfl⟩ := List.mem_map.1 hm
    exact h m' hm'

theorem writeItems_eq_map (items : List Json) : writeItems items = items.map write := by
  induction items with
  | nil => rw [writeItems, List.map_nil]
  | cons j items ih => rw [writeItems, List.map_cons, ih]

theorem writeItemLines_eq_map (level : Nat) (items : List Json) :
    writeItemLines level items = items.map (writeLines level) := by
  induction items with
  | nil => rw [writeItemLines, List.map_nil]
  | cons j items ih => rw [writeItemLines, List.map_cons, ih]

theorem writeMembers_eq_map (members : List (Option String × Json)) :
    writeMembers members =
      members.map fun m => writeText (m.1.getD "") ++ ":" ++ write m.2 := by
  induction members with
  | nil => rw [writeMembers, List.map_nil]
  | cons m members ih =>
    obtain ⟨key, value⟩ := m
    rw [writeMembers, List.map_cons, ih]

theorem writeMemberLines_eq_map (level : Nat) (members : List (Option String × Json)) :
    writeMemberLines level members =
      members.map fun m => writeText (m.1.getD "") ++ ": " ++ writeLines level m.2 := by
  induction members with
  | nil => rw [writeMemberLines, List.map_nil]
  | cons m members ih =>
    obtain ⟨key, value⟩ := m
    rw [writeMemberLines, List.map_cons, ih]

/-- A member is read from its key, a colon, space and its value. -/
theorem readsMember_append {key : Option String} (hkey : key.isSome = true) (colon : String)
    {ws : List Char} (hcolon : colon.toList = ':' :: ws) (hws : Spaces ws) {text : String} {j : Json}
    (h : Reads text.toList j) :
    ReadsMember (writeText (key.getD "") ++ colon ++ text).toList (key, j) := by
  obtain ⟨key, rfl⟩ := Option.isSome_iff_exists.1 hkey
  refine ⟨key, ws, text.toList, rfl, hws, h, ?_⟩
  simp [String.toList_append, toList_writeText, hcolon]

theorem forall₂_map_toList {α : Type} {text : α → String} {R : List Char → α → Prop} {l : List α}
    (h : ∀ a ∈ l, R (text a).toList a) :
    List.Forall₂ R ((l.map text).map String.toList) l := by
  rw [List.map_map, List.forall₂_map_left_iff, List.forall₂_same]
  exact h

/-- Brackets around items on one line. -/
theorem toList_enclose (opening closing : String) (items : List String) :
    (enclose opening closing items).toList =
      opening.toList ++ ([','].intercalate (items.map String.toList) ++ closing.toList) := by
  simp [enclose, String.toList_append, String.toList_intercalate]

theorem toList_encloseLines_nil (level : Nat) (opening closing : String) :
    (encloseLines level opening closing []).toList = opening.toList ++ closing.toList :=
  String.toList_append

/-- Brackets around items on lines of their own. -/
theorem toList_encloseLines (level : Nat) (opening closing : String) {items : List String}
    (hne : items ≠ []) :
    (encloseLines level opening closing items).toList =
      opening.toList ++ ((newline (level + 1)).toList ++
        ((',' :: (newline (level + 1)).toList).intercalate (items.map String.toList) ++
          ((newline level).toList ++ closing.toList))) := by
  cases items with
  | nil => exact absurd rfl hne
  | cons item items => simp [encloseLines, String.toList_append, String.toList_intercalate]

theorem spaces_newline (level : Nat) : Spaces (newline level).toList := by
  intro c hc
  rw [newline, String.toList_append, String.toList_ofList, List.mem_append] at hc
  rcases hc with hc | hc
  · obtain rfl : c = '\n' := by simpa using hc
    decide
  · rw [String.toList_ofList] at hc
    obtain rfl := List.eq_of_mem_replicate hc
    decide

/-- A proper value written on one line is read as itself. -/
theorem Proper.reads_write {j : Json} (h : j.Proper) : Reads (write j).toList j := by
  induction h with
  | null =>
    rw [write]
    exact reads_null
  | bool b => exact reads_bool b
  | number hn =>
    rw [write]
    exact reads_number hn
  | text s =>
    rw [write]
    exact reads_text s
  | @list items _ ih =>
    rw [write, toList_enclose, writeItems_eq_map]
    cases items with
    | nil => exact reads_nil
    | cons j items =>
      exact reads_list spaces_nil spaces_nil (forall₂_map_toList ih) (by simp)
  | @object members hkeys _ ih =>
    rw [write, toList_enclose, writeMembers_eq_map]
    cases members with
    | nil => exact reads_empty
    | cons m members =>
      have hmembers := forall₂_map_toList fun m hm =>
        readsMember_append (hkeys m hm) ":" rfl spaces_nil (ih m hm)
      exact reads_object spaces_nil spaces_nil hmembers (by simp)

/-- A proper value written over several lines is read as itself. -/
theorem Proper.reads_writeLines {j : Json} (h : j.Proper) (level : Nat) :
    Reads (writeLines level j).toList j := by
  induction h generalizing level with
  | null => exact Proper.null.reads_write
  | bool b => exact (Proper.bool b).reads_write
  | number hn => exact (Proper.number hn).reads_write
  | text s => exact (Proper.text s).reads_write
  | @list items _ ih =>
    rw [writeLines, writeItemLines_eq_map]
    cases items with
    | nil =>
      rw [List.map_nil, toList_encloseLines_nil]
      exact reads_nil
    | cons j items =>
      rw [toList_encloseLines level "[" "]" (by simp)]
      exact reads_list (spaces_newline _) (spaces_newline _)
        (forall₂_map_toList fun j hj => ih j hj (level + 1)) (by simp)
  | @object members hkeys _ ih =>
    rw [writeLines, writeMemberLines_eq_map]
    cases members with
    | nil =>
      rw [List.map_nil, toList_encloseLines_nil]
      exact reads_empty
    | cons m members =>
      have hspace : Spaces [' '] := by
        intro c hc
        rw [List.mem_singleton.1 hc]
        decide
      have hmembers := forall₂_map_toList fun m hm =>
        readsMember_append (hkeys m hm) ": " rfl hspace (ih m hm (level + 1))
      rw [toList_encloseLines level "\x7b" "\x7d" (by simp)]
      exact reads_object (spaces_newline _) (spaces_newline _) hmembers (by simp)

/-- A text that is read as a value is a document that holds it. -/
theorem Reads.read? {text : String} {j : Json} (h : Reads text.toList j) :
    Json.read? text = some j := by
  have hfuel : text.toList.length ≤ 2 * text.length + 2 := by
    rw [String.length_toList]
    omega
  have hread := h.reads _ [] hfuel stops_nil
  rw [List.append_nil] at hread
  unfold Json.read?
  rw [hread]
  rfl

/-- Reading what was written on one line. -/
theorem read?_write {j : Json} (h : j.Proper) : read? (write j) = some j :=
  h.reads_write.read?

/-- Reading what was written over several lines. -/
theorem read?_writeLines {j : Json} (h : j.Proper) : read? (writeLines 0 j) = some j :=
  (h.reads_writeLines 0).read?

end Rendezvous.Json
