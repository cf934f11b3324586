import Mathlib.Data.List.TakeDrop
import Mathlib.Tactic.Common
import Rendezvous.Json.Reader
import Rendezvous.Json.Writer

/-!
# Reading strings and numbers that were written

A string is read up to its closing quote, a number as far as what comes after it does not go on with
it.
-/

namespace Rendezvous.Json

/-! ## Strings -/

/-- The four digits of a control character. -/
theorem hex4?_hexDigit : ∀ n < 0x20, hex4? '0' '0' (hexDigit (n / 16)) (hexDigit (n % 16)) = some n :=
  by decide

/-- A unit that names a character by itself is read alone, whatever comes after it. -/
theorem readChars_unit {a b c d : Char} {n : Nat} (h : hex4? a b c d = some n) (hn : n < 0xD800)
    (got : Option (List Char)) (tail : List Char) :
    readChars got ('\\' :: 'u' :: a :: b :: c :: d :: tail) =
      readChars (snoc got (Char.ofNat n)) tail := by
  have hlead : isLeadUnit n = false := by
    unfold isLeadUnit
    simp only [Bool.and_eq_false_iff, decide_eq_false_iff_not]
    omega
  have htrail : isTrailUnit n = false := by
    unfold isTrailUnit
    simp only [Bool.and_eq_false_iff, decide_eq_false_iff_not]
    omega
  by_cases hpair : ∃ e f g h rest, tail = '\\' :: 'u' :: e :: f :: g :: h :: rest
  · obtain ⟨e, f, g, h', rest, rfl⟩ := hpair
    simp [readChars.eq_2, h, hlead, htrail]
  · rw [readChars.eq_3 _ _ _ _ _ _ fun e f g h' rest htail => hpair ⟨e, f, g, h', rest, htail⟩]
    simp [h, hlead, htrail]

/-- A character as it is written stands for itself. -/
theorem readChars_writtenChar (got : List Char) (c : Char) (tail : List Char) :
    readChars (some got) (writtenChar c ++ tail) = readChars (some (c :: got)) tail := by
  unfold writtenChar
  split
  case h_8 hquote hback hline hreturn htab hbackspace hfeed =>
    split
    · rename_i hcontrol
      have hread := hex4?_hexDigit c.toNat hcontrol
      have hunit := readChars_unit hread (by omega) (some got) tail
      rwa [Char.ofNat_toNat] at hunit
    · rename_i hplain
      have hstep := readChars.eq_5 (some got) c tail hquote
        (fun _ _ _ _ _ _ _ _ _ h => (hback h).elim) (fun _ _ _ _ _ h => (hback h).elim)
        (fun _ _ h => (hback h).elim)
      have hbeq : (c == '\\') = false := beq_eq_false_iff_ne.2 hback
      simpa [hplain, hbeq, snoc] using hstep
  all_goals simp [readChars, escape?, snoc]

/-- The characters of a string are read up to its closing quote. -/
theorem readChars_flatMap (s got rest : List Char) :
    readChars (some got) (s.flatMap writtenChar ++ '"' :: rest) =
      some (some (got.reverse ++ s), rest) := by
  induction s generalizing got with
  | nil => simp [readChars]
  | cons c s ih =>
    rw [List.flatMap_cons, List.append_assoc, readChars_writtenChar, ih]
    simp

/-- A string with its quotes, as characters. -/
theorem toList_writeText (s : String) :
    (writeText s).toList = '"' :: (s.toList.flatMap writtenChar ++ ['"']) := by
  simp [writeText, String.toList_append]

/-- A string is read up to its closing quote. -/
theorem readText_writeText (s : String) (rest : List Char) :
    readText (s.toList.flatMap writtenChar ++ '"' :: rest) = some (some s, rest) := by
  unfold readText
  rw [readChars_flatMap]
  simp

/-! ## Numbers -/

/-- What comes after a number does not go on with it. -/
def Stops (rest : List Char) : Prop :=
  ∀ c cs, rest = c :: cs → c.isDigit = false ∧ c ≠ '.' ∧ c ≠ 'e' ∧ c ≠ 'E'

theorem stops_nil : Stops [] := by
  intro c cs h
  exact absurd h (by simp)

/-- Digits are read as far as they go. -/
theorem spanDigits_append {digits rest : List Char} (hdigits : ∀ c ∈ digits, c.isDigit = true)
    (hrest : ∀ c cs, rest = c :: cs → c.isDigit = false) :
    spanDigits (digits ++ rest) = (digits, rest) := by
  unfold spanDigits
  have hstop : rest.takeWhile Char.isDigit = [] ∧ rest.dropWhile Char.isDigit = rest := by
    cases rest with
    | nil => exact ⟨rfl, rfl⟩
    | cons c cs => simp [hrest c cs rfl]
  rw [List.span_eq_takeWhile_dropWhile, List.takeWhile_append_of_pos hdigits,
    List.dropWhile_append_of_pos hdigits, hstop.1, hstop.2, List.append_nil]

/-- The digits of a number have its value. -/
theorem digitsValue_toDigits (n : Nat) : digitsValue (Nat.toDigits 10 n) = n :=
  Nat.ofDigitChars_toDigits (by decide) (by decide)

theorem isDigit_toDigits {n : Nat} {c : Char} (h : c ∈ Nat.toDigits 10 n) : c.isDigit = true :=
  Nat.isDigit_of_mem_toDigits (by decide) (by decide) h

/-- Only the number zero begins with a zero. -/
theorem toDigits_eq_zero_cons {n : Nat} {cs : List Char} (h : Nat.toDigits 10 n = '0' :: cs) :
    cs = [] := by
  induction n using Nat.strongRecOn generalizing cs with
  | _ n ih =>
    by_cases hsmall : n < 10
    · rw [Nat.toDigits_of_lt_base hsmall] at h
      exact (List.cons.inj h).2.symm
    · rw [Nat.toDigits_of_base_le (by decide) (by omega)] at h
      cases hfront : Nat.toDigits 10 (n / 10) with
      | nil => exact absurd hfront Nat.toDigits_ne_nil
      | cons c cs' =>
        rw [hfront, List.cons_append] at h
        obtain ⟨rfl, -⟩ := List.cons.inj h
        obtain rfl := ih (n / 10) (by omega) hfront
        -- The quotient would be zero, but it is not.
        have hvalue := digitsValue_toDigits (n / 10)
        rw [hfront] at hvalue
        have hzero : digitsValue ['0'] = 0 := by decide
        omega

/-- The digits before the point are read. -/
theorem readWhole_append (n : Nat) {rest : List Char}
    (hrest : ∀ c cs, rest = c :: cs → c.isDigit = false) :
    readWhole (Nat.toDigits 10 n ++ rest) = some (n, rest) := by
  have hspan := spanDigits_append (fun c => isDigit_toDigits (n := n)) hrest
  unfold readWhole
  rw [hspan]
  split
  · rename_i heq
    exact absurd (Prod.mk.inj heq).1 Nat.toDigits_ne_nil
  · rename_i heq
    obtain ⟨hdigits, rfl⟩ := Prod.mk.inj heq
    have hvalue := digitsValue_toDigits n
    rw [hdigits] at hvalue
    have hzero : digitsValue ['0'] = 0 := by decide
    rw [← hvalue, hzero]
  · rename_i cs _ hlong heq
    exact absurd (toDigits_eq_zero_cons (Prod.mk.inj heq).1) (fun h => hlong (by rw [h]))
  · rename_i heq
    obtain ⟨rfl, rfl⟩ := Prod.mk.inj heq
    rw [digitsValue_toDigits]

/-- A point and the digits after it, as they are written. -/
def pointChars : Option (List Char) → List Char
  | some digits => '.' :: digits
  | none => []

/-- An exponent as it is written. -/
def powerChars : Option Int → List Char
  | some e => 'e' :: (toString e).toList
  | none => []

/-- The point of a proper number has digits after it. -/
def Number.Proper (n : Number) : Prop :=
  ∀ digits, n.fraction = some digits → digits ≠ [] ∧ ∀ c ∈ digits, c.isDigit = true

theorem readFraction_append {fraction : Option (List Char)} {rest : List Char}
    (hproper : ∀ digits, fraction = some digits → digits ≠ [] ∧ ∀ c ∈ digits, c.isDigit = true)
    (hrest : ∀ c cs, rest = c :: cs → c.isDigit = false ∧ c ≠ '.') :
    readFraction (pointChars fraction ++ rest) = some (fraction, rest) := by
  cases fraction with
  | none =>
    cases rest with
    | nil => rfl
    | cons c cs => simp [pointChars, readFraction, (hrest c cs rfl).2]
  | some digits =>
    obtain ⟨hne, hdigits⟩ := hproper digits rfl
    have hspan := spanDigits_append hdigits fun c cs h => (hrest c cs h).1
    cases digits with
    | nil => exact absurd rfl hne
    | cons c cs =>
      rw [List.cons_append] at hspan
      simp [pointChars, readFraction, hspan]

theorem readPower_append (negative : Bool) (n : Nat) {rest : List Char}
    (hrest : ∀ c cs, rest = c :: cs → c.isDigit = false) :
    readPower negative (Nat.toDigits 10 n ++ rest) =
      some (some (if negative then -(n : Int) else n), rest) := by
  have hspan := spanDigits_append (fun c => isDigit_toDigits (n := n)) hrest
  unfold readPower
  rw [hspan]
  split
  · rename_i heq
    exact absurd (Prod.mk.inj heq).1 Nat.toDigits_ne_nil
  · rename_i heq
    obtain ⟨rfl, rfl⟩ := Prod.mk.inj heq
    rw [digitsValue_toDigits]

theorem readExponent_append (exponent : Option Int) {rest : List Char} (hrest : Stops rest) :
    readExponent (powerChars exponent ++ rest) = some (exponent, rest) := by
  cases exponent with
  | none =>
    cases rest with
    | nil => rfl
    | cons c cs =>
      obtain ⟨-, -, he, hE⟩ := hrest c cs rfl
      simp [powerChars, readExponent, he, hE]
  | some e =>
    have hstop : ∀ c cs, rest = c :: cs → c.isDigit = false := fun c cs h => (hrest c cs h).1
    cases e with
    | ofNat n =>
      have hpower := readPower_append false n hstop
      -- A digit is neither sign.
      cases hdigits : Nat.toDigits 10 n with
      | nil => exact absurd hdigits Nat.toDigits_ne_nil
      | cons c cs =>
        have hdigit : c.isDigit = true := isDigit_toDigits (hdigits ▸ List.mem_cons_self)
        have hminus : c ≠ '-' := by rintro rfl; exact absurd hdigit (by decide)
        have hplus : c ≠ '+' := by rintro rfl; exact absurd hdigit (by decide)
        rw [hdigits] at hpower
        have htext : (toString (Int.ofNat n)).toList = c :: cs := by
          rw [← hdigits]
          exact Nat.toList_repr
        have hchars : powerChars (some (Int.ofNat n)) = 'e' :: c :: cs := by
          rw [powerChars, htext]
        rw [hchars]
        simpa [readExponent, hminus, hplus] using hpower
    | negSucc n =>
      have hpower := readPower_append true (n + 1) hstop
      have htext : (toString (Int.negSucc n)).toList = '-' :: Nat.toDigits 10 (n + 1) := by
        rw [← Nat.toList_repr]
        exact String.toList_append
      have hchars : powerChars (some (Int.negSucc n)) = 'e' :: '-' :: Nat.toDigits 10 (n + 1) := by
        rw [powerChars, htext]
      rw [hchars]
      simpa [readExponent, Int.negSucc_eq] using hpower

/-- A number is read after its sign. -/
theorem readUnsigned_append {n : Number} (hn : n.Proper) {rest : List Char} (hrest : Stops rest) :
    readUnsigned n.negative
      (Nat.toDigits 10 n.whole ++ (pointChars n.fraction ++ (powerChars n.exponent ++ rest))) =
      some (.number n, rest) := by
  have hpower : ∀ c cs, powerChars n.exponent ++ rest = c :: cs → c.isDigit = false ∧ c ≠ '.' := by
    intro c cs h
    cases he : n.exponent with
    | none =>
      rw [he] at h
      exact ⟨(hrest c cs h).1, (hrest c cs h).2.1⟩
    | some e =>
      rw [he] at h
      obtain ⟨rfl, -⟩ := List.cons.inj h
      decide
  have hpoint : ∀ c cs, pointChars n.fraction ++ (powerChars n.exponent ++ rest) = c :: cs →
      c.isDigit = false := by
    intro c cs h
    cases hf : n.fraction with
    | none =>
      rw [hf] at h
      exact (hpower c cs h).1
    | some digits =>
      rw [hf] at h
      obtain ⟨rfl, -⟩ := List.cons.inj h
      decide
  unfold readUnsigned
  rw [readWhole_append n.whole hpoint]
  simp [readFraction_append hn hpower, readExponent_append n.exponent hrest]

theorem toList_writeNumber (n : Number) :
    (writeNumber n).toList = (if n.negative then ['-'] else []) ++
      (Nat.toDigits 10 n.whole ++ (pointChars n.fraction ++ powerChars n.exponent)) := by
  have hwhole : (toString n.whole).toList = Nat.toDigits 10 n.whole := Nat.toList_repr
  obtain ⟨negative, whole, fraction, exponent⟩ := n
  cases negative <;> cases fraction <;> cases exponent <;>
    simp_all [writeNumber, pointChars, powerChars, String.toList_append]

end Rendezvous.Json
