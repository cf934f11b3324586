import Mathlib.Tactic.Common
import Mathlib.Tactic.Ring
import Mathlib.Algebra.Order.Group.Nat

/-!
# Rounding to doubles

A positive double is a mantissa of at most 53 bits times a power of two, counted from the least one,
`2 ^ (-1074)`. Its word is its exponent and its mantissa, one after the other, where the first bit of
a full mantissa counts as one more in the exponent. So words are ordered as the numbers are, and a
mantissa that is rounded up into a bit too many is carried into the exponent.
-/

namespace Rendezvous.Double

open Float.Model Float.Model.UnpackedFloat

/-- The word of positive infinity. The words below are those of the finite numbers without a minus
sign. -/
def infinityBits : Nat := 0x7FF0000000000000

/-- A mantissa and an exponent as a double has them: the mantissa is full, unless the exponent is
the least. -/
structure Canonical (m k : Nat) : Prop where
  pos : 0 < m
  lt : m < 2 ^ 53
  full : 2 ^ 52 ≤ m ∨ k = 0

theorem Canonical.log2_lt {m k : Nat} (h : Canonical m k) : m.log2 < 53 :=
  (Nat.log2_lt h.pos.ne').2 h.lt

theorem Canonical.le_log2 {m k : Nat} (h : Canonical m k) : 52 ≤ m.log2 ∨ k = 0 :=
  h.full.imp_left (Nat.le_log2 h.pos.ne').2

/-! ## Shifting -/

theorem mantissa_shiftRight (em : ExtendedMantissa) (k : Nat) :
    (em >>> k).mantissa = em.mantissa / 2 ^ k := by
  induction k generalizing em with
  | zero => simp [HShiftRight.hShiftRight, Nat.repeat]
  | succ k ih =>
    have hstep : (em >>> (k + 1)).mantissa = (em >>> k).mantissa / 2 := rfl
    rw [hstep, ih, Nat.div_div_eq_div_mul, Nat.pow_succ]

/-- Nothing is lost when only zeros are shifted out. -/
theorem shiftRight_mul (n k : Nat) :
    (⟨n * 2 ^ k, false, false⟩ : ExtendedMantissa) >>> k = ⟨n, false, false⟩ := by
  induction k generalizing n with
  | zero => simp [HShiftRight.hShiftRight, Nat.repeat]
  | succ k ih =>
    have hstep : (⟨n * 2 ^ (k + 1), false, false⟩ : ExtendedMantissa) >>> (k + 1) =
        ((⟨n * 2 ^ (k + 1), false, false⟩ : ExtendedMantissa) >>> k).shiftRightOne := rfl
    have hdouble : n * 2 ^ (k + 1) = n * 2 * 2 ^ k := by ring
    rw [hstep, hdouble, ih]
    simp [ExtendedMantissa.shiftRightOne]

theorem roundedMantissa_bounds (em : ExtendedMantissa) :
    em.mantissa ≤ em.roundedMantissa ∧ em.roundedMantissa ≤ em.mantissa + 1 := by
  obtain ⟨m, roundBit, stickyBit⟩ := em
  cases roundBit <;> cases stickyBit <;>
    simp [ExtendedMantissa.roundedMantissa, ExtendedMantissa.accuracy,
      Accuracy.roundToNearestEven]
  omega

/-! ## Packing -/

theorem toNat_packComponents (e : BitVec 11) (m : BitVec 52) :
    (packComponents Format.binary64 .positive e m).toNat = e.toNat * 2 ^ 52 + m.toNat := by
  have hjoined : (packComponents Format.binary64 .positive e m).toNat =
      (Sign.positive.toBitVec ++ e ++ m).toNat := rfl
  rw [hjoined, BitVec.toNat_append, BitVec.toNat_append, ← Nat.shiftLeft_add_eq_or_of_lt m.isLt,
    ← Nat.shiftLeft_add_eq_or_of_lt e.isLt, Nat.shiftLeft_eq]
  simp [Sign.toBitVec]

theorem toNat_packedInfinity :
    (packedInfinity Format.binary64 .positive).toNat = infinityBits := rfl

theorem toNat_pack_finite {m k : Nat} (h : Canonical m k) :
    (UnpackedFloat.pack Format.binary64 (.finite .positive m ((k : Int) - 1074) h.pos)).toNat =
      min (k * 2 ^ 52 + m) infinityBits := by
  have hbiased : ((k : Int) - 1074 + Format.binary64.exponentBias +
      Format.binary64.mantissaBitsWithoutImplicit).toNat = k + 1 := by
    have hbias : (Format.binary64.exponentBias : Int) = 1023 := rfl
    have hbits : (Format.binary64.mantissaBitsWithoutImplicit : Int) = 52 := rfl
    rw [hbias, hbits]
    omega
  have hpack : UnpackedFloat.pack Format.binary64 (.finite .positive m ((k : Int) - 1074) h.pos) =
      if 2 ^ 11 ≤ k + 1 + 1 then packedInfinity Format.binary64 .positive
      else if m.log2 + 1 = 53 then
        packComponents Format.binary64 .positive (BitVec.ofNat 11 (k + 1)) (BitVec.ofNat 52 m)
      else packComponents Format.binary64 .positive 0#11 (BitVec.ofNat 52 m) := by
    unfold UnpackedFloat.pack
    simp only [hbiased]
    rfl
  have hfull := h.full
  have hlt := h.lt
  rw [hpack]
  by_cases hover : 2 ^ 11 ≤ k + 1 + 1
  · rw [if_pos hover, toNat_packedInfinity]
    unfold infinityBits
    omega
  · rw [if_neg hover]
    unfold infinityBits
    by_cases hnormal : 2 ^ 52 ≤ m
    · have hlog : m.log2 + 1 = 53 := by
        rw [(Nat.log2_eq_iff h.pos.ne').2 ⟨hnormal, hlt⟩]
      rw [if_pos hlog, toNat_packComponents, BitVec.toNat_ofNat, BitVec.toNat_ofNat]
      omega
    · have hlog : m.log2 < 52 := (Nat.log2_lt h.pos.ne').2 (Nat.lt_of_not_le hnormal)
      rw [if_neg (by omega), toNat_packComponents, BitVec.toNat_ofNat, BitVec.toNat_ofNat]
      omega

/-! ## Rounding -/

/-- The exponent to which a mantissa is rounded, counted from that of the least number. -/
def roundedExponent (m : Nat) (e : Int) : Nat :=
  (max ((m.log2 : Int) + e - 52) (-1074) + 1074).toNat

theorem targetExponent_eq (m : Nat) (e : Int) :
    Format.binary64.targetExponent (totalExponent m e) = (roundedExponent m e : Int) - 1074 := by
  have hleast : Format.binary64.minExponent = -1074 := rfl
  have hbits : (Format.binary64.mantissaBits : Int) = 53 := rfl
  unfold Format.targetExponent totalExponent roundedExponent
  rw [hleast, hbits]
  omega

/-- A mantissa that is not too long is left as it is. -/
theorem shiftToTargetExponent_short {m k : Nat} (hlt : m < 2 ^ 53) :
    shiftToTargetExponent Format.binary64 m ((k : Int) - 1074) .exact =
      (⟨m, false, false⟩, (k : Int) - 1074) := by
  have hlog : m.log2 < 53 := by
    by_cases hzero : m = 0
    · simp [hzero]
    · exact (Nat.log2_lt hzero).2 hlt
  have hnone : ((roundedExponent m ((k : Int) - 1074) : Int) - 1074 -
      ((k : Int) - 1074)).toNat = 0 := by
    unfold roundedExponent
    omega
  unfold shiftToTargetExponent shiftToExponent
  simp only [targetExponent_eq, hnone]
  simp [HShiftRight.hShiftRight, Nat.repeat, ExtendedMantissa.ofMantissaAndAccuracy]

/-- A mantissa that has become too long by one bit is shifted once. -/
theorem shiftToTargetExponent_long (k : Nat) :
    shiftToTargetExponent Format.binary64 (2 ^ 53) ((k : Int) - 1074) .exact =
      (⟨2 ^ 52, false, false⟩, ((k + 1 : Nat) : Int) - 1074) := by
  have hone : ((roundedExponent (2 ^ 53) ((k : Int) - 1074) : Int) - 1074 -
      ((k : Int) - 1074)).toNat = 1 := by
    unfold roundedExponent
    rw [Nat.log2_two_pow]
    omega
  unfold shiftToTargetExponent shiftToExponent
  simp only [targetExponent_eq, hone]
  refine Prod.ext rfl ?_
  dsimp only
  omega

/-- After the first stage of rounding the word is known, whether or not there is a second one. -/
theorem toNat_pack_settle {em : ExtendedMantissa} {k : Nat} (hle : em.roundedMantissa ≤ 2 ^ 53)
    (hfull : 2 ^ 52 ≤ em.roundedMantissa ∨ k = 0) {m : Nat} {e : Int} {accuracy : Accuracy}
    (hfirst : shiftToTargetExponent Format.binary64 m e accuracy = (em, (k : Int) - 1074)) :
    (UnpackedFloat.pack Format.binary64
        (roundWithAccuracy Format.binary64 .positive m e accuracy)).toNat =
      min (k * 2 ^ 52 + em.roundedMantissa) infinityBits := by
  unfold roundWithAccuracy
  rw [hfirst]
  dsimp only
  by_cases hlong : em.roundedMantissa = 2 ^ 53
  · have hcanonical : Canonical (2 ^ 52) (k + 1) :=
      ⟨Nat.two_pow_pos 52, Nat.pow_lt_pow_right (by decide) (by decide), .inl le_rfl⟩
    have hcarried : (k + 1) * 2 ^ 52 + 2 ^ 52 = k * 2 ^ 52 + 2 ^ 53 := by ring
    rw [hlong, shiftToTargetExponent_long]
    dsimp only
    rw [dif_neg hcanonical.pos.ne', toNat_pack_finite hcanonical, hcarried]
  · rw [shiftToTargetExponent_short (by omega)]
    dsimp only
    by_cases hzero : em.roundedMantissa = 0
    · have hk : k = 0 := by omega
      rw [dif_pos hzero, hzero, hk]
      rfl
    · have hcanonical : Canonical em.roundedMantissa k := ⟨by omega, by omega, hfull⟩
      rw [dif_neg hzero, toNat_pack_finite hcanonical]

/-- What rounding a positive number gives: its mantissa is cut to the bits for which there is room,
and is the next one at most. Nothing is added to what can be cut without a loss. -/
theorem toNat_pack_round {m : Nat} (hm : 0 < m) {e : Int} (hroom : 52 ≤ m.log2 ∨ e ≤ -1074) :
    ∃ r, (UnpackedFloat.pack Format.binary64
        (roundWithAccuracy Format.binary64 .positive m e .exact)).toNat =
        min (roundedExponent m e * 2 ^ 52 + r) infinityBits ∧
      m / 2 ^ ((roundedExponent m e : Int) - 1074 - e).toNat ≤ r ∧
      (2 ^ 52 ≤ r ∨ roundedExponent m e = 0) ∧
      ∀ n, m = n * 2 ^ ((roundedExponent m e : Int) - 1074 - e).toNat → r = n := by
  generalize hk : roundedExponent m e = k
  generalize hshift : ((k : Int) - 1074 - e).toNat = shift
  have hmax : (k : Int) = max ((m.log2 : Int) + e - 52) (-1074) + 1074 := by
    rw [← hk]
    unfold roundedExponent
    omega
  have hfirst : shiftToTargetExponent Format.binary64 m e .exact =
      ((⟨m, false, false⟩ : ExtendedMantissa) >>> shift, (k : Int) - 1074) := by
    unfold shiftToTargetExponent shiftToExponent
    rw [targetExponent_eq, hk]
    dsimp only
    rw [hshift]
    refine Prod.ext rfl ?_
    dsimp only
    omega
  obtain ⟨hlow, hhigh⟩ := roundedMantissa_bounds ((⟨m, false, false⟩ : ExtendedMantissa) >>> shift)
  rw [mantissa_shiftRight] at hlow hhigh
  have hlt : m / 2 ^ shift < 2 ^ 53 := by
    have hpow := Nat.pow_le_pow_right (n := 2) (by decide) (show m.log2 + 1 ≤ 53 + shift by omega)
    rw [Nat.div_lt_iff_lt_mul (Nat.two_pow_pos shift), ← Nat.pow_add]
    exact Nat.lt_log2_self.trans_le hpow
  have hfull : 2 ^ 52 ≤ m / 2 ^ shift ∨ k = 0 := by
    by_cases hk : k = 0
    · exact .inr hk
    · have hpow := Nat.pow_le_pow_right (n := 2) (by decide) (show 52 + shift ≤ m.log2 by omega)
      rw [Nat.le_div_iff_mul_le (Nat.two_pow_pos shift), ← Nat.pow_add]
      exact .inl (hpow.trans (Nat.log2_self_le hm.ne'))
  dsimp only at hlow hhigh
  refine ⟨_, toNat_pack_settle (by omega) (by omega) hfirst, hlow, by omega, fun n hn => ?_⟩
  rw [hn, shiftRight_mul]
  rfl

end Rendezvous.Double
