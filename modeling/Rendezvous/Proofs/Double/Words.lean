import Mathlib.Order.Compare
import Rendezvous.Proofs.Double.Rounding

/-!
# The words of doubles

What a word without a minus sign reads as, and that numbers are compared as their words. All other
words are those of negative numbers and of what is not a number.
-/

namespace Rendezvous.Double

open Float.Model Float.Model.UnpackedFloat

/-! ## Unpacking -/

theorem toNat_unpackMantissa (w : BitVec 64) :
    (@unpackMantissa Format.binary64 w).toNat = w.toNat % 2 ^ 52 := by
  change (w.toNat >>> 0) % 2 ^ 52 = w.toNat % 2 ^ 52
  rw [Nat.shiftRight_zero]

theorem toNat_unpackExponent (w : BitVec 64) :
    (@unpackExponent Format.binary64 w).toNat = w.toNat / 2 ^ 52 % 2 ^ 11 := by
  change (w.toNat >>> 52) % 2 ^ 11 = w.toNat / 2 ^ 52 % 2 ^ 11
  rw [Nat.shiftRight_eq_div_pow]

theorem toNat_unpackSign (w : BitVec 64) :
    (@unpackSign Format.binary64 w).toNat = w.toNat / 2 ^ 63 % 2 ^ 1 := by
  change (w.toNat >>> 63) % 2 ^ 1 = w.toNat / 2 ^ 63 % 2 ^ 1
  rw [Nat.shiftRight_eq_div_pow]

/-- The sign of a word. -/
def sign (w : BitVec 64) : Sign := .ofBitVec (@unpackSign Format.binary64 w)

theorem sign_eq (w : BitVec 64) : sign w = if w.toNat < 2 ^ 63 then .positive else .negative := by
  have hzero : @unpackSign Format.binary64 w = 0#1 ↔ w.toNat < 2 ^ 63 := by
    have hlt := w.isLt
    rw [← BitVec.toNat_inj, toNat_unpackSign, BitVec.toNat_ofNat]
    omega
  unfold sign Sign.ofBitVec
  exact if_congr hzero rfl rfl

theorem unpack_eq (w : BitVec 64) :
    UnpackedFloat.unpack Format.binary64 w =
      if w.toNat / 2 ^ 52 % 2 ^ 11 = 2047 then
        if w.toNat % 2 ^ 52 = 0 then .infinity (sign w) else .notANumber
      else if w.toNat / 2 ^ 52 % 2 ^ 11 = 0 then
        if h : w.toNat % 2 ^ 52 = 0 then .zero (sign w)
        else .finite (sign w) (w.toNat % 2 ^ 52) (-1074) (Nat.pos_of_ne_zero h)
      else .finite (sign w) (2 ^ 52 + w.toNat % 2 ^ 52)
        (((w.toNat / 2 ^ 52 % 2 ^ 11 : Nat) : Int) - 1075) (by omega) := by
  have hones : @unpackExponent Format.binary64 w = -1#11 ↔ w.toNat / 2 ^ 52 % 2 ^ 11 = 2047 := by
    rw [← toNat_unpackExponent, ← BitVec.toNat_inj]
    rfl
  have hnone : @unpackExponent Format.binary64 w = 0#11 ↔ w.toNat / 2 ^ 52 % 2 ^ 11 = 0 := by
    rw [← toNat_unpackExponent, ← BitVec.toNat_inj]
    rfl
  have hempty : @unpackMantissa Format.binary64 w = 0#52 ↔ w.toNat % 2 ^ 52 = 0 := by
    rw [← toNat_unpackMantissa, ← BitVec.toNat_inj]
    rfl
  have hwhole : (1#1 ++ @unpackMantissa Format.binary64 w).toNat = 2 ^ 52 + w.toNat % 2 ^ 52 := by
    rw [BitVec.toNat_append, ← Nat.shiftLeft_add_eq_or_of_lt (BitVec.isLt _), toNat_unpackMantissa]
    rfl
  have hbias : (Format.binary64.exponentBias : Int) + Format.binary64.mantissaBitsWithoutImplicit =
      1075 := rfl
  unfold UnpackedFloat.unpack sign
  by_cases hmost : w.toNat / 2 ^ 52 % 2 ^ 11 = 2047
  · rw [if_pos hmost, if_pos (hones.2 hmost)]
    exact if_congr hempty rfl rfl
  · rw [if_neg hmost, if_neg (mt hones.1 hmost)]
    by_cases hleast : w.toNat / 2 ^ 52 % 2 ^ 11 = 0
    · rw [if_pos hleast, if_pos (hnone.2 hleast)]
      by_cases hm : w.toNat % 2 ^ 52 = 0
      · rw [dif_pos hm, dif_pos (hempty.2 hm)]
      · rw [dif_neg hm, dif_neg (mt hempty.1 hm)]
        rw [UnpackedFloat.finite.injEq]
        exact ⟨rfl, toNat_unpackMantissa w, by rw [toNat_unpackExponent, hbias, hleast]; rfl⟩
    · rw [if_neg hleast, if_neg (mt hnone.1 hleast), UnpackedFloat.finite.injEq]
      exact ⟨rfl, hwhole, by rw [toNat_unpackExponent, hbias]⟩

/-- What a word up to that of infinity reads as. -/
inductive Reads : Nat → UnpackedFloat → Prop
  | zero : Reads 0 (.zero .positive)
  | finite {m k : Nat} (h : Canonical m k) (hword : k * 2 ^ 52 + m < infinityBits) :
      Reads (k * 2 ^ 52 + m) (.finite .positive m ((k : Int) - 1074) h.pos)
  | infinity : Reads infinityBits (.infinity .positive)

theorem reads_unpack {w : BitVec 64} (h : w.toNat ≤ infinityBits) :
    Reads w.toNat (UnpackedFloat.unpack Format.binary64 w) := by
  have hsign : sign w = .positive := by
    unfold infinityBits at h
    rw [sign_eq, if_pos (by omega)]
  rw [unpack_eq, hsign]
  by_cases hmost : w.toNat = infinityBits
  · have hexponent : w.toNat / 2 ^ 52 % 2 ^ 11 = 2047 := by rw [hmost]; rfl
    have hmantissa : w.toNat % 2 ^ 52 = 0 := by rw [hmost]; rfl
    rw [if_pos hexponent, if_pos hmantissa, hmost]
    exact .infinity
  · have hword : w.toNat < 2047 * 2 ^ 52 := Nat.lt_of_le_of_ne h hmost
    rw [if_neg (by omega)]
    by_cases hleast : w.toNat / 2 ^ 52 % 2 ^ 11 = 0
    · rw [if_pos hleast]
      by_cases hm : w.toNat % 2 ^ 52 = 0
      · have hzero : w.toNat = 0 := by omega
        rw [dif_pos hm, hzero]
        exact .zero
      · have hsame : w.toNat = 0 * 2 ^ 52 + w.toNat % 2 ^ 52 := by omega
        have hcanonical : Canonical (w.toNat % 2 ^ 52) 0 := ⟨by omega, by omega, .inr rfl⟩
        have hreads := Reads.finite hcanonical (show _ < infinityBits from hsame ▸ hword)
        rw [dif_neg hm]
        rwa [← hsame] at hreads
    · have hsame : w.toNat =
          (w.toNat / 2 ^ 52 % 2 ^ 11 - 1) * 2 ^ 52 + (2 ^ 52 + w.toNat % 2 ^ 52) := by omega
      have hcanonical : Canonical (2 ^ 52 + w.toNat % 2 ^ 52) (w.toNat / 2 ^ 52 % 2 ^ 11 - 1) :=
        ⟨by omega, by omega, .inl (by omega)⟩
      have hexponent : ((w.toNat / 2 ^ 52 % 2 ^ 11 : Nat) : Int) - 1075 =
          ((w.toNat / 2 ^ 52 % 2 ^ 11 - 1 : Nat) : Int) - 1074 := by omega
      have hreads := Reads.finite hcanonical (show _ < infinityBits from hsame ▸ hword)
      rw [if_neg hleast, hexponent]
      rwa [← hsame] at hreads

/-- What the other words read as. -/
inductive Beyond : UnpackedFloat → Prop
  | notANumber : Beyond .notANumber
  | infinity : Beyond (.infinity .negative)
  | zero : Beyond (.zero .negative)
  | finite (m : Nat) (e : Int) (hm : 0 < m) : Beyond (.finite .negative m e hm)

theorem beyond_unpack {w : BitVec 64} (h : infinityBits < w.toNat) :
    Beyond (UnpackedFloat.unpack Format.binary64 w) := by
  rw [unpack_eq, sign_eq]
  by_cases hsign : w.toNat < 2 ^ 63
  · unfold infinityBits at h
    rw [if_pos (by omega), if_neg (by omega)]
    exact .notANumber
  · rw [if_neg hsign]
    by_cases hmost : w.toNat / 2 ^ 52 % 2 ^ 11 = 2047
    · rw [if_pos hmost]
      by_cases hm : w.toNat % 2 ^ 52 = 0
      · rw [if_pos hm]
        exact .infinity
      · rw [if_neg hm]
        exact .notANumber
    · rw [if_neg hmost]
      by_cases hleast : w.toNat / 2 ^ 52 % 2 ^ 11 = 0
      · rw [if_pos hleast]
        by_cases hm : w.toNat % 2 ^ 52 = 0
        · rw [dif_pos hm]
          exact .zero
        · rw [dif_neg hm]
          exact .finite ..
      · rw [if_neg hleast]
        exact .finite ..

/-! ## Order -/

theorem Canonical.compare_eq {m m' k k' : Nat} (h : Canonical m k) (h' : Canonical m' k') :
    (compare ((k : Int) - 1074) ((k' : Int) - 1074)).then (compare m m') =
      compare (k * 2 ^ 52 + m) (k' * 2 ^ 52 + m') := by
  obtain ⟨-, hlt, hfull⟩ := h
  obtain ⟨-, hlt', hfull'⟩ := h'
  rcases Nat.lt_trichotomy k k' with hk | rfl | hk
  · rw [compare_lt_iff_lt.2 (show (k : Int) - 1074 < k' - 1074 by omega)]
    exact (compare_lt_iff_lt.2 (by omega)).symm
  · rw [compare_eq_iff_eq.2 rfl]
    rcases Nat.lt_trichotomy m m' with hm | hm | hm
    · rw [compare_lt_iff_lt.2 hm, compare_lt_iff_lt.2 (by omega)]
      rfl
    · rw [compare_eq_iff_eq.2 hm, compare_eq_iff_eq.2 (by omega)]
      rfl
    · rw [compare_gt_iff_gt.2 hm, compare_gt_iff_gt.2 (by omega)]
      rfl
  · rw [compare_gt_iff_gt.2 (show (k : Int) - 1074 > k' - 1074 by omega)]
    exact (compare_gt_iff_gt.2 (by omega)).symm

theorem Reads.compare_eq {n n' : Nat} {u u' : UnpackedFloat} (h : Reads n u) (h' : Reads n' u') :
    UnpackedFloat.compare u u' = some (compare n n') := by
  cases h with
  | zero =>
    cases h' with
    | zero => rfl
    | @finite m k h =>
      have hpos : 0 < k * 2 ^ 52 + m := Nat.add_pos_right _ h.pos
      exact congrArg some (compare_lt_iff_lt.2 hpos).symm
    | infinity => rfl
  | @finite m k h hword =>
    cases h' with
    | zero =>
      have hpos : k * 2 ^ 52 + m > 0 := Nat.add_pos_right _ h.pos
      exact congrArg some (compare_gt_iff_gt.2 hpos).symm
    | finite h' => exact congrArg some (h.compare_eq h')
    | infinity => exact congrArg some (compare_lt_iff_lt.2 hword).symm
  | infinity =>
    cases h' with
    | zero => rfl
    | finite h hword => exact congrArg some (compare_gt_iff_gt.2 hword).symm
    | infinity => rfl

/-- A positive number is not below what is negative or not a number. -/
theorem Reads.not_isLE {n : Nat} {u u' : UnpackedFloat} (h : Reads n u) (hpos : 0 < n)
    (h' : Beyond u') : (UnpackedFloat.compare u u').any (·.isLE) = false := by
  cases h with
  | zero => exact absurd hpos (Nat.lt_irrefl 0)
  | finite => cases h' <;> rfl
  | infinity => cases h' <;> rfl

/-! ## Doubles -/

/-- The word of a double. -/
def bits (x : Float) : Nat := x.toBits.toNat

theorem reads {x : Float} (h : bits x ≤ infinityBits) : Reads (bits x) x.toModel.unpack :=
  reads_unpack h

theorem isNaN_eq_false {x : Float} (h : bits x ≤ infinityBits) : x.isNaN = false := by
  have hreads := reads h
  change x.toModel.unpack.isNaN = false
  generalize bits x = n at hreads
  generalize x.toModel.unpack = u at hreads ⊢
  cases hreads <;> rfl

theorem lt_iff {x y : Float} (hx : bits x ≤ infinityBits) (hy : bits y ≤ infinityBits) :
    x < y ↔ bits x < bits y := by
  have hlt : x < y ↔ UnpackedFloat.compare x.toModel.unpack y.toModel.unpack = some .lt := by
    change decide (Float.Model.lt x.toModel y.toModel = true) = true ↔ _
    rw [decide_eq_true_eq]
    exact beq_iff_eq
  rw [hlt, (reads hx).compare_eq (reads hy), Option.some.injEq, compare_lt_iff_lt]

/-- What is not less than a positive number is a greater word, and not a negative one. -/
theorem bits_le_of_le {x y : Float} (hpos : 0 < bits x) (hx : bits x ≤ infinityBits) (h : x ≤ y) :
    bits x ≤ bits y ∧ bits y ≤ infinityBits := by
  have hany : (UnpackedFloat.compare x.toModel.unpack y.toModel.unpack).any (·.isLE) = true := by
    change decide (Float.Model.le x.toModel y.toModel = true) = true at h
    rwa [decide_eq_true_eq] at h
  by_cases hy : bits y ≤ infinityBits
  · rw [(reads hx).compare_eq (reads hy)] at hany
    exact ⟨Nat.isLE_compare.1 hany, hy⟩
  · have hfalse := (reads hx).not_isLE hpos (beyond_unpack (Nat.lt_of_not_le hy))
    exact absurd hany (ne_true_of_eq_false hfalse)

end Rendezvous.Double
