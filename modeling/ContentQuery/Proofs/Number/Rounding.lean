import ContentQuery.Number.Double
import Mathlib

/-! # Rounding keeps order

Rounding to the nearest pattern never swaps two numbers: with equal exponents the rounded quotients
keep their order, and with different ones the greater number rounds to at least the power of two
that separates them. So integers rounded to doubles are in the total order as they were before.
-/

namespace ContentQuery.Number

/-! ## Rounded quotients -/

/-- A quotient is rounded to one of its neighbours. -/
theorem divNearestEven_bounds (n d : ℕ) :
    n / d ≤ divNearestEven n d ∧ divNearestEven n d ≤ n / d + 1 := by
  unfold divNearestEven
  split <;> omega

/-- Rounded quotients do not fall as the numerator grows. -/
theorem divNearestEven_mono {n n' : ℕ} (d : ℕ) (h : n ≤ n') :
    divNearestEven n d ≤ divNearestEven n' d := by
  have hquotient : n / d ≤ n' / d := Nat.div_le_div_right h
  rcases hquotient.lt_or_eq with hlt | heq
  · -- a whole number lies between the two
    have hupper := (divNearestEven_bounds n d).2
    have hlower := (divNearestEven_bounds n' d).1
    omega
  · have hn := Nat.div_add_mod n d
    have hn' := Nat.div_add_mod n' d
    rw [heq] at hn
    have hremainder : n % d ≤ n' % d := by omega
    unfold divNearestEven
    rw [heq]
    split <;> split <;> omega

/-! ## Patterns -/

theorem fractionCount_eq : fractionCount = 2 ^ 52 := rfl

/-- Scaled by its step, a quotient stays below twice the fraction field. -/
theorem div_step_lt {n d : ℕ} : n / (d * 2 ^ stepExponent n d) < 2 * fractionCount := by
  rw [← Nat.div_div_eq_div_mul, Nat.div_lt_iff_lt_mul (by positivity), fractionCount_eq,
    ← Nat.pow_succ', ← Nat.pow_add]
  refine lt_of_lt_of_le Nat.lt_log2_self (Nat.pow_le_pow_right (by omega) ?_)
  unfold stepExponent
  omega

/-- A quotient with a step of more than one unit fills the fraction field. -/
theorem fractionCount_le_div_step {n d : ℕ} (h : stepExponent n d ≠ 0) :
    fractionCount ≤ n / (d * 2 ^ stepExponent n d) := by
  have hlog : (n / d).log2 = 52 + stepExponent n d := by
    unfold stepExponent at h ⊢
    omega
  have hpos : n / d ≠ 0 := by
    intro hzero
    rw [hzero, Nat.log2_zero] at hlog
    omega
  rw [← Nat.div_div_eq_div_mul, Nat.le_div_iff_mul_le (by positivity), fractionCount_eq,
    ← Nat.pow_add, ← hlog]
  exact Nat.log2_self_le hpos

/-- Larger quotients have no smaller exponent. -/
theorem stepExponent_mono {n n' : ℕ} (d : ℕ) (h : n ≤ n') :
    stepExponent n d ≤ stepExponent n' d := by
  have hlog : (n / d).log2 ≤ (n' / d).log2 := by
    rw [Nat.log2_eq_log_two, Nat.log2_eq_log_two]
    exact Nat.log_mono_right (Nat.div_le_div_right h)
  unfold stepExponent
  omega

/-- The pattern of a quotient keeps the order of quotients by one divisor. -/
theorem patternOfQuotient_mono {n n' : ℕ} (d : ℕ) (h : n ≤ n') :
    patternOfQuotient n d ≤ patternOfQuotient n' d := by
  unfold patternOfQuotient
  refine min_le_min_left _ ?_
  -- a larger exponent outweighs the mantissa; with the same one the rounded quotients decide
  rcases (stepExponent_mono d h).lt_or_eq with hlt | heq
  · have hupper := (divNearestEven_bounds n (d * Nat.pow 2 (stepExponent n d))).2
    have hlower := (divNearestEven_bounds n' (d * Nat.pow 2 (stepExponent n' d))).1
    have hbelow : n / (d * Nat.pow 2 (stepExponent n d)) < 2 * fractionCount := div_step_lt
    have habove : fractionCount ≤ n' / (d * Nat.pow 2 (stepExponent n' d)) :=
      fractionCount_le_div_step (by omega)
    have hexponents : (stepExponent n d + 1) * fractionCount ≤ stepExponent n' d * fractionCount :=
      Nat.mul_le_mul_right _ hlt
    rw [Nat.add_mul] at hexponents
    omega
  · rw [heq]
    exact Nat.add_le_add_left (divNearestEven_mono _ h) _

theorem patternOfQuotient_le (n d : ℕ) : patternOfQuotient n d ≤ infinityPattern :=
  min_le_left _ _

/-! ## The total order -/

namespace Double

/-- A pattern has its place in the total order by its number, and a negative one counts down from minus
one. -/
theorem totalKey_ofPattern {p : ℕ} (hp : p ≤ infinityPattern) (negative : Bool) :
    (ofPattern negative p).totalKey = if negative then -(p : ℤ) - 1 else p := by
  have hbound : p < 2 ^ 63 := lt_of_le_of_lt hp (by decide)
  have hsign : Nat.pow 2 63 = 2 ^ 63 := rfl
  -- the sign is the highest bit, above all patterns up to the infinity
  cases negative with
  | true =>
    have hbits : (ofPattern true p).bits.toNat = 2 ^ 63 + p := by
      simp only [ofPattern, if_true, UInt64.toNat_ofNat', hsign]
      omega
    simp only [totalKey, isNegative, magnitude, hbits, hsign, Nat.le_add_right, decide_true, if_true,
      Nat.add_mod_left, Nat.mod_eq_of_lt hbound]
  | false =>
    have hbits : (ofPattern false p).bits.toNat = p := by
      simp only [ofPattern, Bool.false_eq_true, if_false, UInt64.toNat_ofNat']
      omega
    simp only [totalKey, isNegative, magnitude, hbits, hsign, Nat.not_le.mpr hbound, decide_false,
      Bool.false_eq_true, if_false, Nat.mod_eq_of_lt hbound]

/-- The total order tells all patterns apart. -/
theorem totalKey_injective : Function.Injective totalKey := by
  intro x y h
  have hx := x.bits.toNat_lt
  have hy := y.bits.toNat_lt
  have hsign : Nat.pow 2 63 = 2 ^ 63 := rfl
  simp only [totalKey, isNegative, magnitude, hsign, decide_eq_true_eq] at h
  have hbits : x.bits.toNat = y.bits.toNat := by
    split at h <;> split at h <;> omega
  cases x; cases y
  exact congrArg mk (UInt64.toNat_inj.mp hbits)

/-- Integers rounded to doubles keep their order. -/
theorem totalKey_ofInt_mono {m n : ℤ} (h : m ≤ n) : (ofInt m).totalKey ≤ (ofInt n).totalKey := by
  -- the magnitudes grow away from zero on both sides
  have hkey : ∀ k : ℤ, (ofInt k).totalKey =
      if k < 0 then -(patternOfQuotient (k.natAbs * unitsInOne) 1 : ℤ) - 1
      else patternOfQuotient (k.natAbs * unitsInOne) 1 := by
    intro k
    rw [ofInt, ofQuotient, totalKey_ofPattern (patternOfQuotient_le _ _)]
    simp
  have hmono : ∀ j k : ℕ, j ≤ k →
      patternOfQuotient (j * unitsInOne) 1 ≤ patternOfQuotient (k * unitsInOne) 1 :=
    fun j k hjk => patternOfQuotient_mono 1 (Nat.mul_le_mul_right _ hjk)
  rw [hkey, hkey]
  split <;> split
  · have := hmono n.natAbs m.natAbs (by omega)
    omega
  · omega
  · omega
  · have := hmono m.natAbs n.natAbs (by omega)
    omega

end Double

end ContentQuery.Number
