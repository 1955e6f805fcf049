import ContentQuery.Proofs.Number.Rounding

/-! # What rounds to a pattern

A finite pattern counts `m` steps of `2 ^ s` units, where `m` fills the fraction field unless the step
is one unit. A quotient that is no greater, and less than a quarter of a step smaller, rounds to it. The
quarter is what is left below a power of two, where the step is halved, and it is more than a printed
number needs.
-/

namespace ContentQuery.Number

/-! ## The units of a pattern -/

/-- A pattern counts `m` steps of `2 ^ s` units, and fills the fraction field unless these are the
smallest steps. -/
structure CountsSteps (p s m : ℕ) : Prop where
  pattern_eq : p = s * fractionCount + m
  lt : m < 2 * fractionCount
  full : s = 0 ∨ fractionCount ≤ m

/-- Every pattern has a mantissa and an exponent. -/
theorem exists_countsSteps (p : ℕ) : ∃ s m, CountsSteps p s m := by
  have hpos : 0 < fractionCount := by decide
  have hdiv := Nat.div_add_mod' p fractionCount
  have hmod := Nat.mod_lt p hpos
  rcases hquotient : p / fractionCount with _ | s
  · rw [hquotient] at hdiv
    exact ⟨0, p, by omega, by omega, .inl rfl⟩
  · rw [hquotient, Nat.add_mul] at hdiv
    exact ⟨s, fractionCount + p % fractionCount, by omega, by omega, .inr (by omega)⟩

/-- The units of a pattern are its steps. A mantissa that is one step too long is carried. -/
theorem unitsOfPattern_scaled {s m : ℕ} (hm : m ≤ 2 * fractionCount)
    (hs : s = 0 ∨ fractionCount ≤ m) :
    unitsOfPattern (s * fractionCount + m) = m * 2 ^ s := by
  have hpos : 0 < fractionCount := by decide
  -- a full mantissa has carried over into the exponent
  rcases hm.lt_or_eq with hlt | rfl
  · have hexponent : (s * fractionCount + m) / fractionCount - 1 = s := by
      rw [Nat.add_comm, Nat.add_mul_div_right _ _ hpos]
      rcases hs with rfl | hfull
      · have := Nat.div_lt_of_lt_mul (hlt.trans_eq (Nat.mul_comm 2 fractionCount))
        omega
      · have hone : m / fractionCount = 1 :=
          Nat.div_eq_of_lt_le (by omega) (by omega)
        omega
    rw [unitsOfPattern, hexponent, Nat.add_sub_cancel_left]
    rfl
  · have hexponent : (s * fractionCount + 2 * fractionCount) / fractionCount - 1 = s + 1 := by
      rw [← Nat.add_mul, Nat.mul_div_cancel _ hpos]
      omega
    have hmantissa : s * fractionCount + 2 * fractionCount - (s + 1) * fractionCount =
        fractionCount := by
      rw [Nat.add_mul]
      omega
    rw [unitsOfPattern, hexponent, hmantissa, Nat.mul_comm 2, Nat.mul_assoc, ← Nat.pow_succ']
    rfl

/-- The units of a pattern are its mantissa shifted by its exponent. -/
theorem CountsSteps.units {p s m : ℕ} (h : CountsSteps p s m) : unitsOfPattern p = m * 2 ^ s := by
  rw [h.pattern_eq, unitsOfPattern_scaled h.lt.le h.full]

theorem CountsSteps.pos {p s m : ℕ} (h : CountsSteps p s m) (hp : 0 < p) : 0 < m := by
  have hF : 0 < fractionCount := by decide
  rcases h.full with rfl | hfull
  · have := h.pattern_eq
    omega
  · omega

theorem unitsOfPattern_zero : unitsOfPattern 0 = 0 := by decide

/-- A greater pattern has more units: it counts more of the same steps, or at least as many of longer
ones. -/
theorem unitsOfPattern_strictMono : StrictMono unitsOfPattern := by
  intro p p' hlt
  obtain ⟨s, m, h⟩ := exists_countsSteps p
  obtain ⟨s', m', h'⟩ := exists_countsSteps p'
  have hp := h.pattern_eq
  have hp' := h'.pattern_eq
  have hm := h.lt
  have hm' := h'.lt
  rw [h.units, h'.units]
  -- with a larger exponent the mantissa is full, which outweighs any mantissa with a smaller one
  rcases Nat.lt_trichotomy s s' with hs | rfl | hs
  · have hfull : fractionCount ≤ m' := h'.full.resolve_left (by omega)
    calc m * 2 ^ s < 2 * fractionCount * 2 ^ s := Nat.mul_lt_mul_of_pos_right hm (by positivity)
      _ = fractionCount * 2 ^ (s + 1) := by ring
      _ ≤ m' * 2 ^ s' := Nat.mul_le_mul hfull (Nat.pow_le_pow_right (by norm_num) hs)
  · exact Nat.mul_lt_mul_of_pos_right (by omega) (by positivity)
  · have hfull : fractionCount ≤ m := h.full.resolve_left (by omega)
    have hscaled : (s' + 1) * fractionCount ≤ s * fractionCount := Nat.mul_le_mul_right _ hs
    rw [Nat.add_mul] at hscaled
    omega

/-- What a quotient rounds to counts the steps it is rounded to. -/
theorem unitsOfPattern_patternOfQuotient {n d : ℕ} (h : patternOfQuotient n d < infinityPattern) :
    unitsOfPattern (patternOfQuotient n d) =
      divNearestEven n (d * 2 ^ stepExponent n d) * 2 ^ stepExponent n d := by
  have hpattern : patternOfQuotient n d = stepExponent n d * fractionCount +
      divNearestEven n (d * 2 ^ stepExponent n d) := by
    refine (min_eq_right (le_of_lt ?_))
    exact (min_lt_iff.mp h).resolve_left (lt_irrefl _)
  have hbounds := divNearestEven_bounds n (d * 2 ^ stepExponent n d)
  have hbelow : n / (d * 2 ^ stepExponent n d) < 2 * fractionCount := div_step_lt
  rw [hpattern, unitsOfPattern_scaled (by omega)]
  by_cases hstep : stepExponent n d = 0
  · exact .inl hstep
  · have := fractionCount_le_div_step hstep
    exact .inr (by omega)

/-! ## Near quotients -/

/-- A quotient that is less than a half below a whole number is rounded to it. -/
theorem divNearestEven_eq_of_near {n d m : ℕ} (hle : n ≤ m * d)
    (hnear : 2 * (m * d) < 2 * n + d) : divNearestEven n d = m := by
  have hd : 0 < d := by
    by_contra hzero
    obtain rfl : d = 0 := by omega
    omega
  -- the quotient is the whole number below, so that the remainder is more than a half
  rcases hle.lt_or_eq with hlt | rfl
  · obtain ⟨k, rfl⟩ : ∃ k, m = k + 1 := by
      refine ⟨m - 1, ?_⟩
      have : m ≠ 0 := by rintro rfl; omega
      omega
    rw [Nat.add_mul, Nat.one_mul] at hlt hnear
    have hquotient : n / d = k := Nat.div_eq_of_lt_le (by omega) (by rw [Nat.add_mul]; omega)
    have hdiv := Nat.div_add_mod' n d
    rw [hquotient] at hdiv
    rw [divNearestEven, if_neg (by omega), hquotient]
  · rw [divNearestEven, Nat.mul_mod_left, Nat.mul_div_cancel _ hd, if_pos (.inl hd)]

/-- The exponent is the one that brings the mantissa between both bounds. -/
theorem stepExponent_eq_of_bounds {n d k : ℕ} (hd : 0 < d)
    (hlow : k = 0 ∨ fractionCount * 2 ^ k * d ≤ n) (hup : n < 2 * fractionCount * 2 ^ k * d) :
    stepExponent n d = k := by
  -- the logarithm of the quotient is bounded from above, and from below unless the exponent is zero
  have hlt : n / d < 2 ^ (52 + k + 1) := by
    rw [Nat.div_lt_iff_lt_mul hd, Nat.pow_succ', Nat.pow_add, ← fractionCount_eq, ← Nat.mul_assoc]
    exact hup
  have hupper : (n / d).log2 < 52 + k + 1 := by
    by_cases hzero : n / d = 0
    · rw [hzero, Nat.log2_zero]
      omega
    · exact (Nat.log2_lt hzero).mpr hlt
  rcases hlow with rfl | hlow
  · unfold stepExponent
    omega
  · have hle : 2 ^ (52 + k) ≤ n / d := by
      rwa [Nat.le_div_iff_mul_le hd, Nat.pow_add, ← fractionCount_eq]
    have hne : n / d ≠ 0 := by
      have : 0 < 2 ^ (52 + k) := by positivity
      omega
    have hlower : 52 + k ≤ (n / d).log2 := (Nat.le_log2 hne).mpr hle
    unfold stepExponent
    omega

/-- A quotient is rounded on the steps of its own size. -/
theorem patternOfQuotient_eq_of_step {n d k m : ℕ} (hd : 0 < d)
    (hlow : k = 0 ∨ fractionCount * 2 ^ k * d ≤ n) (hup : n < 2 * fractionCount * 2 ^ k * d)
    (hle : n ≤ m * (d * 2 ^ k)) (hnear : 2 * (m * (d * 2 ^ k)) < 2 * n + d * 2 ^ k) :
    patternOfQuotient n d = min infinityPattern (k * fractionCount + m) := by
  rw [patternOfQuotient, stepExponent_eq_of_bounds hd hlow hup]
  congr 2
  exact divNearestEven_eq_of_near hle hnear

/-- A quotient that is no greater than a pattern, and less than a quarter of a step smaller, rounds to
it. -/
theorem patternOfQuotient_of_near {p s m n d : ℕ} (h : CountsSteps p s m) (hd : 0 < d)
    (hle : n ≤ unitsOfPattern p * d) (hnear : 4 * (unitsOfPattern p * d) < 4 * n + 2 ^ s * d) :
    patternOfQuotient n d = min infinityPattern p := by
  rw [h.units] at hle hnear
  obtain ⟨rfl, hm, hs⟩ := h
  have hstep : 0 < 2 ^ s * d := by positivity
  have hF : 0 < fractionCount := by decide
  rw [Nat.mul_assoc] at hle hnear
  by_cases hfit : s = 0 ∨ fractionCount * 2 ^ s * d ≤ n
  · -- the quotient is rounded with the steps of the pattern
    have hup : m * (2 ^ s * d) < 2 * fractionCount * (2 ^ s * d) :=
      Nat.mul_lt_mul_of_pos_right hm hstep
    refine patternOfQuotient_eq_of_step hd hfit ?_ ?_ ?_
    · rw [Nat.mul_assoc]
      omega
    · rwa [Nat.mul_comm d]
    · rw [Nat.mul_comm d]
      omega
  · -- the quotient lies below a power of two, where steps are half as long
    rw [not_or, Nat.not_le, Nat.mul_assoc] at hfit
    obtain ⟨hs0, hbelow⟩ := hfit
    have hfull : fractionCount ≤ m := hs.resolve_left hs0
    obtain rfl : m = fractionCount := by
      by_contra hne
      have hlonger : (fractionCount + 1) * (2 ^ s * d) ≤ m * (2 ^ s * d) :=
        Nat.mul_le_mul_right _ (by omega)
      rw [Nat.add_mul] at hlonger
      omega
    obtain ⟨k, rfl⟩ : ∃ k, s = k + 1 := ⟨s - 1, by omega⟩
    have hdouble : fractionCount * (2 ^ (k + 1) * d) = 2 * (fractionCount * (2 ^ k * d)) := by ring
    have hdouble' : 2 ^ (k + 1) * d = 2 * (2 ^ k * d) := by ring
    have hlong : 2 ^ k * d ≤ fractionCount * (2 ^ k * d) := Nat.le_mul_of_pos_left _ hF
    rw [hdouble] at hbelow hle hnear
    rw [hdouble'] at hnear
    have hcarry : (k + 1) * fractionCount + fractionCount =
        k * fractionCount + 2 * fractionCount := by ring
    rw [hcarry]
    refine patternOfQuotient_eq_of_step hd (.inr ?_) ?_ ?_ ?_
    · rw [Nat.mul_assoc]
      omega
    · rw [Nat.mul_assoc, Nat.mul_assoc]
      exact hbelow
    · rw [Nat.mul_comm d, Nat.mul_assoc]
      exact hle
    · rw [Nat.mul_comm d, Nat.mul_assoc]
      omega

/-! ## Whole numbers -/

theorem unitsInOne_eq : unitsInOne = 2 ^ 1074 := by decide +kernel

/-- A whole number rounds to a whole number. -/
theorem unitsInOne_dvd_of_whole {n : ℕ}
    (h : patternOfQuotient (n * unitsInOne) 1 < infinityPattern) :
    unitsInOne ∣ unitsOfPattern (patternOfQuotient (n * unitsInOne) 1) := by
  rw [unitsOfPattern_patternOfQuotient h, unitsInOne_eq, Nat.one_mul]
  generalize stepExponent (n * 2 ^ 1074) 1 = s
  rcases Nat.le_total 1074 s with hlong | hshort
  · exact Dvd.dvd.mul_left (pow_dvd_pow 2 hlong) _
  · -- the steps are parts of one, so nothing is lost
    have hparts : n * 2 ^ 1074 = n * 2 ^ (1074 - s) * 2 ^ s := by
      rw [Nat.mul_assoc, ← Nat.pow_add, Nat.sub_add_cancel hshort]
    have hexact : divNearestEven (n * 2 ^ 1074) (2 ^ s) = n * 2 ^ (1074 - s) := by
      refine divNearestEven_eq_of_near hparts.le ?_
      rw [← hparts]
      exact Nat.lt_add_of_pos_right (by positivity)
    rw [hexact, ← hparts]
    exact Dvd.intro_left n rfl

end ContentQuery.Number
