import Rendezvous.Proofs.Double.Products

/-!
# Durations from doubles

The nanoseconds of a double of seconds are its value, times a billion, rounded to the nearest
integer. The value grows with the word, and rounding keeps the order, so of two doubles the one with
the greater word is the longer duration.
-/

namespace Rendezvous

namespace Double

/-- The value of a finite word in units of the least positive number. -/
def value (n : Nat) : Nat := (n - (n / 2 ^ 52 - 1) * 2 ^ 52) * 2 ^ (n / 2 ^ 52 - 1)

theorem value_mono {n n' : Nat} (h : n ≤ n') : value n ≤ value n' := by
  unfold value
  rcases Nat.eq_or_lt_of_le (show n / 2 ^ 52 - 1 ≤ n' / 2 ^ 52 - 1 by omega) with hk | hk
  · rw [hk]
    exact Nat.mul_le_mul_right _ (by omega)
  · have hpow := Nat.pow_le_pow_right (n := 2) (by decide) hk
    rw [Nat.pow_succ] at hpow
    calc (n - (n / 2 ^ 52 - 1) * 2 ^ 52) * 2 ^ (n / 2 ^ 52 - 1)
        ≤ (2 ^ 52 * 2) * 2 ^ (n / 2 ^ 52 - 1) := Nat.mul_le_mul_right _ (by omega)
      _ = 2 ^ 52 * (2 ^ (n / 2 ^ 52 - 1) * 2) := by ring
      _ ≤ (n' - (n' / 2 ^ 52 - 1) * 2 ^ 52) * 2 ^ (n' / 2 ^ 52 - 1) :=
          Nat.mul_le_mul (by omega) hpow

end Double

namespace Duration

/-! ## Rounding to nanoseconds -/

theorem roundShift_eq (n s : Nat) :
    roundShift n s =
      if 2 ^ s < 2 * (n % 2 ^ s) ∨ 2 * (n % 2 ^ s) = 2 ^ s ∧ n / 2 ^ s % 2 = 1 then n / 2 ^ s + 1
      else n / 2 ^ s := by
  have hrest : n - n / 2 ^ s * 2 ^ s = n % 2 ^ s := by
    rw [Nat.mul_comm, ← Nat.mod_eq_sub]
  unfold roundShift
  simp [Nat.shiftRight_eq_div_pow, Nat.shiftLeft_eq, hrest]

theorem roundShift_mono {n n' : Nat} (h : n ≤ n') (s : Nat) : roundShift n s ≤ roundShift n' s := by
  have hdiv : n / 2 ^ s ≤ n' / 2 ^ s := Nat.div_le_div_right h
  have hn := Nat.div_add_mod n (2 ^ s)
  have hn' := Nat.div_add_mod n' (2 ^ s)
  rw [roundShift_eq, roundShift_eq]
  rcases Nat.eq_or_lt_of_le hdiv with hsame | hless
  · -- the whole parts are the same, so the remainders are in order
    rw [hsame] at hn
    rw [hsame]
    have hmod : n % 2 ^ s ≤ n' % 2 ^ s := by omega
    split
    · rw [if_pos (by omega)]
    · split <;> omega
  · split <;> split <;> omega

theorem roundShift_mul (n s j : Nat) : roundShift (n * 2 ^ j) (s + j) = roundShift n s := by
  have hdiv : n * 2 ^ j / 2 ^ (s + j) = n / 2 ^ s := by
    rw [Nat.pow_add]
    exact Nat.mul_div_mul_right _ _ (Nat.two_pow_pos j)
  have hmod : n * 2 ^ j % 2 ^ (s + j) = n % 2 ^ s * 2 ^ j := by
    rw [Nat.pow_add, Nat.mul_mod_mul_right]
  have hless : 2 ^ (s + j) < 2 * (n % 2 ^ s * 2 ^ j) ↔ 2 ^ s < 2 * (n % 2 ^ s) := by
    rw [Nat.pow_add, ← Nat.mul_assoc]
    exact Nat.mul_lt_mul_right (Nat.two_pow_pos j)
  have htie : 2 * (n % 2 ^ s * 2 ^ j) = 2 ^ (s + j) ↔ 2 * (n % 2 ^ s) = 2 ^ s := by
    rw [Nat.pow_add, ← Nat.mul_assoc]
    exact Nat.mul_left_inj (Nat.two_pow_pos j).ne'
  rw [roundShift_eq, roundShift_eq, hdiv, hmod]
  simp only [hless, htie]

theorem roundShift_zero (n : Nat) : roundShift n 0 = n := by
  rw [roundShift_eq]
  simp [Nat.mod_one]

/-! ## Seconds -/

/-- The nanoseconds of a mantissa and an exponent are those of their value. -/
theorem nanos_eq (m k : Nat) :
    (if 1075 ≤ k + 1 then (m * nanosPerSec) <<< (k + 1 - 1075)
      else roundShift (m * nanosPerSec) (1075 - (k + 1))) =
      roundShift (m * 2 ^ k * nanosPerSec) 1074 := by
  by_cases hk : 1074 ≤ k
  · have hsame : m * 2 ^ k * nanosPerSec = m * nanosPerSec * 2 ^ (k - 1074) * 2 ^ 1074 := by
      rw [Nat.mul_assoc (m * nanosPerSec), ← Nat.pow_add, Nat.sub_add_cancel hk]
      ring
    have hround := roundShift_mul (m * nanosPerSec * 2 ^ (k - 1074)) 0 1074
    have hshift : k + 1 - 1075 = k - 1074 := by omega
    rw [Nat.zero_add, roundShift_zero] at hround
    rw [if_pos (by omega), hsame, hround, Nat.shiftLeft_eq, hshift]
  · have hsame : m * 2 ^ k * nanosPerSec = m * nanosPerSec * 2 ^ k := by ring
    have hround := roundShift_mul (m * nanosPerSec) (1074 - k) k
    have hshift : 1075 - (k + 1) = 1074 - k := by omega
    rw [Nat.sub_add_cancel (by omega)] at hround
    rw [if_neg (by omega), hsame, hround, hshift]

/-- The nanoseconds that are nearest to a finite word of seconds. -/
def nearestNanos (n : Nat) : Nat := roundShift (Double.value n * nanosPerSec) 1074

theorem nearestNanos_mono {n n' : Nat} (h : n ≤ n') : nearestNanos n ≤ nearestNanos n' :=
  roundShift_mono (Nat.mul_le_mul_right _ (Double.value_mono h)) 1074

theorem ofSeconds?_finite {x : Float} (h : Double.bits x < Double.infinityBits) :
    ofSeconds? x =
      if nearestNanos (Double.bits x) < secsLimit * nanosPerSec then
        some ⟨nearestNanos (Double.bits x)⟩
      else none := by
  have hword : Double.bits x < 2047 * 2 ^ 52 := h
  have hpositive : ¬ x < 0.0 := by
    have hzero : Double.bits 0.0 = 0 := by decide +kernel
    rw [Double.lt_iff h.le (hzero ▸ Nat.zero_le _), hzero]
    exact Nat.not_lt_zero _
  have hmantissa : (if Double.bits x / 2 ^ 52 % 2048 = 0 then Double.bits x % 2 ^ 52
      else 2 ^ 52 + Double.bits x % 2 ^ 52) =
      Double.bits x - (Double.bits x / 2 ^ 52 - 1) * 2 ^ 52 := by
    split <;> omega
  have hpower : (if Double.bits x / 2 ^ 52 % 2048 = 0 then 1 else Double.bits x / 2 ^ 52 % 2048) =
      Double.bits x / 2 ^ 52 - 1 + 1 := by
    split <;> omega
  unfold ofSeconds? nearestNanos Double.value
  rw [if_neg hpositive]
  change (if Double.bits x / 2 ^ 52 % 2048 = 2047 then none else _) = _
  rw [if_neg (by omega), ← nanos_eq, ← hmantissa, ← hpower]
  rfl

theorem ofSeconds?_infinity {x : Float} (h : Double.bits x = Double.infinityBits) :
    ofSeconds? x = none := by
  unfold ofSeconds?
  split
  · rfl
  · change (if Double.bits x / 2 ^ 52 % 2048 = 2047 then none else _) = _
    rw [h]
    exact if_pos rfl

/-- Where a number of seconds is a duration, a lesser one is, and not a longer one. -/
theorem ofSeconds?_mono {x y : Float} (h : Double.bits x ≤ Double.bits y)
    (hy : Double.bits y ≤ Double.infinityBits) {e : Duration} (he : ofSeconds? y = some e) :
    ∃ d, ofSeconds? x = some d ∧ d.nanos ≤ e.nanos := by
  have hfinite : Double.bits y < Double.infinityBits := by
    refine Nat.lt_of_le_of_ne hy fun hinfinity => ?_
    rw [ofSeconds?_infinity hinfinity] at he
    exact absurd he (by simp)
  have hle := nearestNanos_mono h
  rw [ofSeconds?_finite hfinite] at he
  rw [ofSeconds?_finite (h.trans_lt hfinite)]
  generalize nearestNanos (Double.bits x) = nanos at *
  generalize nearestNanos (Double.bits y) = nanos' at *
  split at he
  · rename_i hlimit
    obtain rfl := Option.some.inj he
    exact ⟨⟨nanos⟩, if_pos (hle.trans_lt hlimit), hle⟩
  · exact absurd he (by simp)

theorem bits_toSeconds_le (d : Duration) : Double.bits d.toSeconds ≤ Double.infinityBits := by
  have hbillion : 0 < Double.bits 1000000000.0 ∧
      Double.bits 1000000000.0 < Double.infinityBits := by decide +kernel
  exact Double.bits_add_le (Double.bits_ofUInt64_le _)
    (Double.bits_div_le (Double.bits_ofUInt64_le _) hbillion.1 hbillion.2)

end Duration

end Rendezvous
