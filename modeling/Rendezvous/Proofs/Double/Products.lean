import Rendezvous.Proofs.Double.Words
import Rendezvous.Queue.Backoff

/-!
# Products of doubles

Adding and dividing positive doubles gives positive ones. A product with a double from one upwards
is not less than the other factor, although it is rounded, and one times a double is this double. So
no power of a double from one upwards is less than one.
-/

namespace Rendezvous.Double

open Float.Model Float.Model.UnpackedFloat

/-! ## Positive numbers -/

/-- Numbers without a minus sign. -/
inductive Unsigned : UnpackedFloat → Prop
  | infinity : Unsigned (.infinity .positive)
  | zero : Unsigned (.zero .positive)
  | finite (m : Nat) (e : Int) (hm : 0 < m) : Unsigned (.finite .positive m e hm)

theorem Reads.unsigned {n : Nat} {u : UnpackedFloat} (h : Reads n u) : Unsigned u := by
  cases h with
  | zero => exact .zero
  | finite => exact .finite ..
  | infinity => exact .infinity

theorem Unsigned.pack_le {u : UnpackedFloat} (h : Unsigned u) :
    (UnpackedFloat.pack Format.binary64 u).toNat ≤ infinityBits := by
  cases h with
  | infinity => exact Nat.le_refl _
  | zero => exact Nat.zero_le _
  | finite m e hm =>
    have hcomponents : ∀ b m : Nat, ¬ 2 ^ 11 ≤ b + 1 →
        (packComponents Format.binary64 .positive (BitVec.ofNat 11 b)
          (BitVec.ofNat 52 m)).toNat ≤ infinityBits := by
      intro b m hb
      rw [toNat_packComponents, BitVec.toNat_ofNat, BitVec.toNat_ofNat]
      unfold infinityBits
      omega
    unfold UnpackedFloat.pack
    dsimp only
    split
    · exact Nat.le_refl _
    · rename_i hexponent
      split
      · exact hcomponents _ _ hexponent
      · exact hcomponents 0 m (by decide)

theorem unsigned_roundWithAccuracy (m : Nat) (e : Int) (accuracy : Accuracy) :
    Unsigned (roundWithAccuracy Format.binary64 .positive m e accuracy) := by
  unfold roundWithAccuracy
  obtain ⟨em, e'⟩ := shiftToTargetExponent Format.binary64 m e accuracy
  dsimp only
  obtain ⟨last, e''⟩ := shiftToTargetExponent Format.binary64 em.roundedMantissa e' .exact
  by_cases hzero : last.mantissa = 0
  · rw [dif_pos hzero]
    exact .zero
  · rw [dif_neg hzero]
    exact .finite ..

theorem unsigned_normalize {m : Int} (h : 0 ≤ m) (e : Int) :
    Unsigned (UnpackedFloat.normalize Format.binary64 m e .positive) := by
  unfold UnpackedFloat.normalize
  split
  · rename_i hless
    exact absurd (compare_lt_iff_lt.1 hless) (by omega)
  · exact .zero
  · exact unsigned_roundWithAccuracy ..

theorem Unsigned.add {u u' : UnpackedFloat} (h : Unsigned u) (h' : Unsigned u') :
    Unsigned (UnpackedFloat.add Format.binary64 u u') := by
  cases h with
  | infinity => cases h' <;> exact .infinity
  | zero =>
    cases h' with
    | infinity => exact .infinity
    | zero => exact .zero
    | finite m e hm => exact .finite ..
  | finite m e hm =>
    cases h' with
    | infinity => exact .infinity
    | zero => exact .finite ..
    | finite m' e' hm' =>
      refine unsigned_normalize ?_ _
      exact Int.add_nonneg (Int.natCast_nonneg _) (Int.natCast_nonneg _)

theorem Unsigned.div {u : UnpackedFloat} (h : Unsigned u) (m : Nat) (e : Int) (hm : 0 < m) :
    Unsigned (UnpackedFloat.div Format.binary64 u (.finite .positive m e hm)) := by
  cases h with
  | infinity => exact .infinity
  | zero => exact .zero
  | finite => exact unsigned_roundWithAccuracy ..

theorem bits_ofUInt64_le (n : UInt64) : bits n.toFloat ≤ infinityBits :=
  (unsigned_normalize (Int.natCast_nonneg _) 0).pack_le

theorem bits_add_le {x y : Float} (hx : bits x ≤ infinityBits) (hy : bits y ≤ infinityBits) :
    bits (x + y) ≤ infinityBits :=
  ((reads hx).unsigned.add (reads hy).unsigned).pack_le

theorem bits_div_le {x y : Float} (hx : bits x ≤ infinityBits) (hpos : 0 < bits y)
    (hfinite : bits y < infinityBits) : bits (x / y) ≤ infinityBits := by
  have hdiv : Unsigned (UnpackedFloat.div Format.binary64 x.toModel.unpack y.toModel.unpack) := by
    have hreads := reads hfinite.le
    generalize bits y = n at *
    generalize y.toModel.unpack = u at *
    cases hreads with
    | zero => exact absurd hpos (Nat.lt_irrefl 0)
    | finite => exact (reads hx).unsigned.div ..
    | infinity => exact absurd hfinite (Nat.lt_irrefl _)
  exact hdiv.pack_le

/-! ## Products -/

/-- The factor from one upwards makes the mantissa longer by at least as many bits as are cut off
again. -/
theorem Canonical.le_pack_mul {m k m' k' : Nat} (h : Canonical m k)
    (hword : k * 2 ^ 52 + m < infinityBits) (hm' : 2 ^ 52 ≤ m') (hk' : 1022 ≤ k') :
    k * 2 ^ 52 + m ≤ (UnpackedFloat.pack Format.binary64 (roundWithAccuracy Format.binary64
      .positive (m * m') (((k : Int) - 1074) + ((k' : Int) - 1074)) .exact)).toNat := by
  have hpos : 0 < m * m' := Nat.mul_pos h.pos (by omega)
  have hlog : m.log2 + 52 ≤ (m * m').log2 := by
    rw [Nat.le_log2 hpos.ne', Nat.pow_add]
    exact Nat.mul_le_mul (Nat.log2_self_le h.pos.ne') hm'
  have hlt := h.lt
  have hfull := h.le_log2
  obtain ⟨r, hpack, hlow, hroom, -⟩ := toNat_pack_round hpos
    (e := ((k : Int) - 1074) + ((k' : Int) - 1074)) (.inl (by omega))
  have hexponent : k ≤ roundedExponent (m * m') (((k : Int) - 1074) + ((k' : Int) - 1074)) := by
    unfold roundedExponent
    omega
  rw [hpack]
  generalize roundedExponent (m * m') (((k : Int) - 1074) + ((k' : Int) - 1074)) = K at *
  refine le_min ?_ hword.le
  rcases Nat.eq_or_lt_of_le hexponent with rfl | hless
  · have hcut : m * 2 ^ ((k : Int) - 1074 - (((k : Int) - 1074) + ((k' : Int) - 1074))).toNat ≤
        m * m' := by
      have hpow := Nat.pow_le_pow_right (n := 2) (by decide) (show
        ((k : Int) - 1074 - (((k : Int) - 1074) + ((k' : Int) - 1074))).toNat ≤ 52 by omega)
      exact Nat.mul_le_mul_left m (hpow.trans hm')
    have hle : m ≤ r := ((Nat.le_div_iff_mul_le (Nat.two_pow_pos _)).2 hcut).trans hlow
    exact Nat.add_le_add_left hle _
  · omega

theorem Canonical.pack_mul_one {m k : Nat} (h : Canonical m k)
    (hword : k * 2 ^ 52 + m < infinityBits) :
    (UnpackedFloat.pack Format.binary64 (roundWithAccuracy Format.binary64
      .positive (m * 2 ^ 52) (((k : Int) - 1074) + (-52)) .exact)).toNat = k * 2 ^ 52 + m := by
  have hpos : 0 < m * 2 ^ 52 := Nat.mul_pos h.pos (Nat.two_pow_pos 52)
  have hlog : (m * 2 ^ 52).log2 = m.log2 + 52 := by
    rw [Nat.log2_eq_iff hpos.ne', Nat.pow_add, Nat.add_right_comm, Nat.pow_add]
    exact ⟨Nat.mul_le_mul_right _ (Nat.log2_self_le h.pos.ne'),
      Nat.mul_lt_mul_of_pos_right Nat.lt_log2_self (Nat.two_pow_pos 52)⟩
  have hshort := h.log2_lt
  have hfull := h.le_log2
  have hexponent : roundedExponent (m * 2 ^ 52) (((k : Int) - 1074) + (-52)) = k := by
    unfold roundedExponent
    omega
  have hshift : ((k : Int) - 1074 - (((k : Int) - 1074) + (-52))).toNat = 52 := by omega
  obtain ⟨r, hpack, -, -, hexact⟩ := toNat_pack_round hpos
    (e := ((k : Int) - 1074) + (-52)) (.inl (by omega))
  rw [hexponent, hshift] at hexact
  rw [hpack, hexponent, hexact m rfl, Nat.min_eq_left hword.le]

/-- Only zero times infinity is less than the other factor, as it is not a number. -/
theorem Reads.le_pack_mul {n n' : Nat} {u u' : UnpackedFloat} (h : Reads n u) (h' : Reads n' u')
    (hone : 1023 * 2 ^ 52 ≤ n') :
    UnpackedFloat.mul Format.binary64 u u' = .notANumber ∧ n = 0 ∨
      n ≤ (UnpackedFloat.pack Format.binary64 (UnpackedFloat.mul Format.binary64 u u')).toNat ∧
      (UnpackedFloat.pack Format.binary64 (UnpackedFloat.mul Format.binary64 u u')).toNat ≤
        infinityBits := by
  cases h' with
  | zero => exact absurd hone (by decide)
  | @finite m' k' h' hword' =>
    cases h with
    | zero => exact .inr ⟨Nat.zero_le _, Nat.zero_le _⟩
    | @finite m k h hword =>
      have hlt' := h'.lt
      have hfull' := h'.full
      exact .inr ⟨h.le_pack_mul hword (by omega) (by omega),
        (unsigned_roundWithAccuracy ..).pack_le⟩
    | infinity => exact .inr ⟨Nat.le_refl _, Nat.le_refl _⟩
  | infinity =>
    cases h with
    | zero => exact .inl ⟨rfl, rfl⟩
    | finite h hword => exact .inr ⟨hword.le, Nat.le_refl _⟩
    | infinity => exact .inr ⟨Nat.le_refl _, Nat.le_refl _⟩

theorem bits_one : bits 1.0 = 1023 * 2 ^ 52 := by decide +kernel

theorem mul_cases {x y : Float} (hx : bits x ≤ infinityBits) (hy : bits y ≤ infinityBits)
    (hone : bits 1.0 ≤ bits y) :
    (x * y).isNaN = true ∧ bits x = 0 ∨ bits x ≤ bits (x * y) ∧ bits (x * y) ≤ infinityBits := by
  rw [bits_one] at hone
  rcases (reads hx).le_pack_mul (reads hy) hone with ⟨hnan, hzero⟩ | hle
  · refine .inl ⟨?_, hzero⟩
    change (Float.Model.pack (UnpackedFloat.mul Format.binary64 x.toModel.unpack
      y.toModel.unpack)).isNaN = true
    rw [hnan]
    decide +kernel
  · exact .inr hle

theorem bits_mul_one {x : Float} (hx : bits x ≤ infinityBits) : bits (x * 1.0) = bits x := by
  have hone : (1.0 : Float).toModel.unpack = .finite .positive (2 ^ 52) (-52) (by decide) := rfl
  have hreads := reads hx
  change (UnpackedFloat.pack Format.binary64 (UnpackedFloat.mul Format.binary64 x.toModel.unpack
    (1.0 : Float).toModel.unpack)).toNat = bits x
  rw [hone]
  generalize bits x = n at *
  generalize x.toModel.unpack = u at *
  cases hreads with
  | zero => rfl
  | finite h hword => exact h.pack_mul_one hword
  | infinity => rfl

/-! ## Powers -/

/-- A double from one upwards. -/
def OneOrMore (x : Float) : Prop := bits 1.0 ≤ bits x ∧ bits x ≤ infinityBits

theorem oneOrMore_of_le {x : Float} (h : 1.0 ≤ x) : OneOrMore x := by
  have hone := bits_one
  refine bits_le_of_le ?_ ?_ h
  · omega
  · rw [hone]
    decide

theorem oneOrMore_one : OneOrMore 1.0 := by
  refine ⟨Nat.le_refl _, ?_⟩
  rw [bits_one]
  decide

theorem OneOrMore.mul {x y : Float} (hx : OneOrMore x) (hy : OneOrMore y) : OneOrMore (x * y) := by
  have hone := bits_one
  have hle := hx.1
  rcases mul_cases hx.2 hy.2 hy.1 with ⟨-, hzero⟩ | hmul
  · omega
  · exact ⟨hle.trans hmul.1, hmul.2⟩

theorem OneOrMore.powFrom (n : Nat) {r a : Float} (hr : OneOrMore r) (ha : OneOrMore a) :
    OneOrMore (Backoff.powFrom r a n) := by
  induction n using Nat.strongRecOn generalizing r a with
  | ind n ih =>
    unfold Backoff.powFrom
    by_cases hzero : n = 0
    · rwa [dif_pos hzero]
    · have hnext : OneOrMore (if n % 2 = 1 then r * a else r) := by
        split
        · exact hr.mul ha
        · exact hr
      rw [dif_neg hzero]
      dsimp only
      split
      · exact hnext
      · exact ih (n / 2) (by omega) hnext (ha.mul ha)

theorem OneOrMore.power (n : Nat) {a : Float} (ha : OneOrMore a) :
    OneOrMore (Backoff.power a n) := by
  unfold Backoff.power
  dsimp only
  rw [if_neg (by omega)]
  exact oneOrMore_one.powFrom _ ha

theorem power_zero (a : Float) : Backoff.power a 0 = 1.0 := by
  unfold Backoff.power Backoff.powFrom
  rfl

end Rendezvous.Double
