import ContentQuery.Number.Shortest
import ContentQuery.Proofs.Number.Nearest

/-! # The shortest decimal reads back

A decimal that is no greater than a finite number, and less than a quarter of a step smaller, reads back
as it. Seventeen places behind its first digit a number has such a decimal: the grid point next below it.
So the search for the shortest decimal always ends with a grid point, and that point reads back. Where
the number is whole and has more than sixteen digits, the search ends before the grids get finer than
one.
-/

namespace ContentQuery.Number

/-! ## The units of a decimal -/

/-- The units of a decimal, which need not be whole. -/
def Decimal.units (x : Decimal) : ℚ := x.coefficient * 10 ^ x.exponent * unitsInOne

theorem unitsInOne_pos : 0 < unitsInOne := by
  rw [unitsInOne_eq]
  positivity

theorem cast_unitsInOne_pos : (0 : ℚ) < unitsInOne := by exact_mod_cast unitsInOne_pos

/-- A power of ten as the quotient of two with natural exponents. -/
theorem ten_pow_toNat (e : ℤ) : (10 : ℚ) ^ e.toNat = 10 ^ e * 10 ^ (-e).toNat := by
  rw [← zpow_natCast, ← zpow_natCast, ← zpow_add₀ (by norm_num)]
  congr 1
  omega

/-- A decimal is the quotient of two natural numbers, in rationals. -/
theorem decimalQuotient_fst (c : ℕ) (e : ℤ) :
    ((decimalQuotient c e).1 : ℚ) = c * 10 ^ e * (decimalQuotient c e).2 := by
  simp only [decimalQuotient, Nat.pow_eq, Nat.cast_mul, Nat.cast_pow, Nat.cast_ofNat, ten_pow_toNat e]
  ring

theorem decimalQuotient_snd_pos (c : ℕ) (e : ℤ) : 0 < (decimalQuotient c e).2 :=
  Nat.pow_pos (by norm_num)

/-! ## The first digit -/

/-- A number of so many digits is at least the power of ten with one zero less. -/
theorem ten_pow_length_le {n : ℕ} (h : n ≠ 0) : 10 ^ ((decimalDigits n).length - 1) ≤ n := by
  by_contra hlt
  by_cases hone : (decimalDigits n).length - 1 = 0
  · rw [hone] at hlt
    omega
  · have hlength : (decimalDigits n).length ≤ (decimalDigits n).length - 1 :=
      (Nat.length_toDigits_le_iff (by norm_num) (Nat.pos_of_ne_zero hone)).mpr (Nat.not_le.mp hlt)
    omega

theorem length_decimalDigits_pos (n : ℕ) : 0 < (decimalDigits n).length :=
  List.length_pos_of_ne_nil Nat.toDigits_ne_nil

/-- A number of so many digits is less than the power of ten with as many zeros. -/
theorem lt_ten_pow_length (n : ℕ) : n < 10 ^ (decimalDigits n).length :=
  (Nat.length_toDigits_le_iff (by norm_num) (length_decimalDigits_pos n)).mp le_rfl

/-- The top of a decimal is a power of ten above it. -/
theorem lt_decimalTop (c : ℕ) (e : ℤ) : (c : ℚ) * 10 ^ e < 10 ^ decimalTop c e := by
  rw [decimalTop, add_comm, zpow_add₀ (by norm_num), zpow_natCast]
  have hlt : (c : ℚ) < 10 ^ (decimalDigits c).length := by exact_mod_cast lt_ten_pow_length c
  gcongr

/-- The leading digit of a decimal bounds it from below. -/
theorem decimalTop_le {c : ℕ} (hc : c ≠ 0) (e : ℤ) : (10 : ℚ) ^ (decimalTop c e - 1) ≤ c * 10 ^ e := by
  have hpos := length_decimalDigits_pos c
  have htop : decimalTop c e - 1 = ((decimalDigits c).length - 1 : ℕ) + e := by
    unfold decimalTop
    omega
  rw [htop, zpow_add₀ (by norm_num), zpow_natCast]
  have hle : (10 : ℚ) ^ ((decimalDigits c).length - 1) ≤ c := by exact_mod_cast ten_pow_length_le hc
  gcongr

/-! ## Decimals near a pattern -/

/-- A positive number is at least one step of its exponent. -/
theorem CountsSteps.step_le {p s m : ℕ} (h : CountsSteps p s m) (hp : 0 < p) :
    2 ^ s ≤ unitsOfPattern p := by
  rw [h.units]
  exact Nat.le_mul_of_pos_left _ (h.pos hp)

/-- A number has fewer steps than 53 bits can count. -/
theorem CountsSteps.units_lt {p s m : ℕ} (h : CountsSteps p s m) :
    unitsOfPattern p < 2 ^ 53 * 2 ^ s := by
  rw [h.units]
  exact Nat.mul_lt_mul_of_pos_right h.lt (by positivity)

/-- Finite numbers are less than `10 ^ 310`. -/
theorem unitsOfPattern_lt {p : ℕ} (hfinite : p < infinityPattern) :
    unitsOfPattern p < 10 ^ 310 * unitsInOne := by
  obtain ⟨s, m, h⟩ := exists_countsSteps p
  have hs : s ≤ 2045 := by
    by_contra hlong
    have hfull := h.full.resolve_left (by omega)
    have hscaled : 2046 * fractionCount ≤ s * fractionCount := Nat.mul_le_mul_right _ (by omega)
    have hinf : infinityPattern = 2046 * fractionCount + fractionCount := by decide
    have := h.pattern_eq
    omega
  have hgreatest : 2 ^ 53 * 2 ^ 2045 ≤ 10 ^ 310 * unitsInOne := by decide +kernel
  refine h.units_lt.trans_le (le_trans ?_ hgreatest)
  exact Nat.mul_le_mul_left _ (pow_le_pow_right₀ (by norm_num) hs)

/-- Numbers from half a unit on are not too small to be read. -/
theorem le_decimalTop {x : Decimal} (h : 1 ≤ 2 * x.units) :
    -330 ≤ decimalTop x.coefficient x.exponent := by
  by_contra hsmall
  have hunits : (unitsInOne : ℚ) ≤ 10 ^ (324 : ℕ) := by
    have : unitsInOne ≤ 10 ^ 324 := by decide +kernel
    exact_mod_cast this
  have hbelow : (x.coefficient : ℚ) * 10 ^ x.exponent ≤ 10 ^ (-331 : ℤ) :=
    (lt_decimalTop _ _).le.trans (zpow_le_zpow_right₀ (by norm_num) (by omega))
  have hnone : x.units ≤ 10 ^ (-331 : ℤ) * 10 ^ (324 : ℕ) :=
    mul_le_mul hbelow hunits cast_unitsInOne_pos.le (by positivity)
  rw [← zpow_natCast, ← zpow_add₀ (by norm_num)] at hnone
  norm_num at hnone
  linarith

/-- Numbers below `10 ^ 310` are not too large to be read. -/
theorem decimalTop_le_of_units {x : Decimal} (hx : x.coefficient ≠ 0)
    (h : x.units < 10 ^ 310 * unitsInOne) : decimalTop x.coefficient x.exponent ≤ 310 := by
  by_contra hlong
  have habove : (10 : ℚ) ^ (310 : ℤ) ≤ x.coefficient * 10 ^ x.exponent :=
    (zpow_le_zpow_right₀ (by norm_num) (by omega)).trans (decimalTop_le hx _)
  exact (lt_of_mul_lt_mul_right h cast_unitsInOne_pos.le).not_ge habove

/-- A decimal that is no greater than a finite number, and less than a quarter of a step smaller, reads
back as it. -/
theorem patternOfDecimal_of_near {p s m : ℕ} (h : CountsSteps p s m) (hp : 0 < p)
    (hfinite : p < infinityPattern) {x : Decimal} (hle : x.units ≤ unitsOfPattern p)
    (hnear : 4 * (unitsOfPattern p : ℚ) < 4 * x.units + 2 ^ s) :
    patternOfDecimal x.coefficient x.exponent = p := by
  have hstep : (2 : ℚ) ^ s ≤ unitsOfPattern p := by exact_mod_cast h.step_le hp
  have hone : (1 : ℚ) ≤ 2 ^ s := one_le_pow₀ (by norm_num)
  have hbelow : (unitsOfPattern p : ℚ) < 10 ^ 310 * unitsInOne := by
    exact_mod_cast unitsOfPattern_lt hfinite
  have hc : x.coefficient ≠ 0 := by
    intro hzero
    have : x.units = 0 := by rw [Decimal.units, hzero, Nat.cast_zero, zero_mul, zero_mul]
    linarith
  -- neither too small nor too large for its quotient to be formed
  have hlow := le_decimalTop (x := x) (by linarith)
  have hhigh := decimalTop_le_of_units hc (hle.trans_lt hbelow)
  have hd := decimalQuotient_snd_pos x.coefficient x.exponent
  have hquotient : ((decimalQuotient x.coefficient x.exponent).1 * unitsInOne : ℚ) =
      x.units * (decimalQuotient x.coefficient x.exponent).2 := by
    rw [decimalQuotient_fst, Decimal.units]
    ring
  rw [patternOfDecimal, if_neg (by omega), if_neg (by omega)]
  generalize decimalQuotient x.coefficient x.exponent = q at hd hquotient
  have hd' : (0 : ℚ) < q.2 := by exact_mod_cast hd
  have hle' : q.1 * unitsInOne ≤ unitsOfPattern p * q.2 := by
    have := mul_le_mul_of_nonneg_right hle hd'.le
    rw [← hquotient] at this
    exact_mod_cast this
  have hnear' : 4 * (unitsOfPattern p * q.2) < 4 * (q.1 * unitsInOne) + 2 ^ s * q.2 := by
    have := mul_lt_mul_of_pos_right hnear hd'
    rw [add_mul, mul_assoc 4, mul_assoc 4, ← hquotient] at this
    exact_mod_cast this
  rw [patternOfQuotient_of_near h hd hle' hnear', min_eq_right hfinite.le]

/-- A decimal of the same size as a finite number reads back as it. -/
theorem patternOfDecimal_of_units {p : ℕ} (hp : 0 < p) (hfinite : p < infinityPattern) {x : Decimal}
    (hx : x.units = unitsOfPattern p) : patternOfDecimal x.coefficient x.exponent = p := by
  obtain ⟨s, m, h⟩ := exists_countsSteps p
  refine patternOfDecimal_of_near h hp hfinite hx.le ?_
  rw [hx]
  exact lt_add_of_pos_right _ (by positivity)

/-- Without places behind the point, a decimal is a whole number that is rounded. -/
theorem patternOfDecimal_whole {c k : ℕ} (hpos : 0 < patternOfDecimal c k)
    (hfinite : patternOfDecimal c k < infinityPattern) :
    patternOfDecimal c k = patternOfQuotient (c * 10 ^ k * unitsInOne) 1 := by
  -- with an exponent that is not negative the denominator is one
  have hquotient : decimalQuotient c k = (c * 10 ^ k, 1) := by
    rw [decimalQuotient, Int.toNat_natCast, Int.toNat_neg_natCast]
    rfl
  simp only [patternOfDecimal, hquotient] at hpos hfinite ⊢
  split
  next hzero =>
    rw [if_pos hzero] at hpos
    omega
  next hzero =>
    rw [if_neg hzero] at hfinite
    split
    next hlong =>
      rw [if_pos hlong] at hfinite
      omega
    next => rfl

/-! ## Grids -/

/-- The grid point next below a number of units. -/
def gridBelow (n : ℕ) (e : ℤ) : Decimal := ⟨(gridQuotient n e).1 / (gridQuotient n e).2, e⟩

/-- A number on the grid of a power of ten, in rationals. -/
theorem gridQuotient_fst (n : ℕ) (e : ℤ) :
    ((gridQuotient n e).1 : ℚ) * (10 ^ e * unitsInOne) = n * (gridQuotient n e).2 := by
  simp only [gridQuotient, Nat.pow_eq, Nat.cast_mul, Nat.cast_pow, Nat.cast_ofNat, ten_pow_toNat e]
  ring

theorem gridQuotient_snd_pos (n : ℕ) (e : ℤ) : 0 < (gridQuotient n e).2 :=
  Nat.mul_pos unitsInOne_pos (Nat.pow_pos (by norm_num))

/-- A number lies between the grid point next below it and the next one. -/
theorem gridBelow_bounds (n : ℕ) (e : ℤ) :
    (gridBelow n e).units ≤ n ∧ (n : ℚ) < (gridBelow n e).units + 10 ^ e * unitsInOne := by
  have hscale := gridQuotient_fst n e
  have hd := gridQuotient_snd_pos n e
  have hlow := Nat.div_mul_le_self (gridQuotient n e).1 (gridQuotient n e).2
  have hup := Nat.lt_div_mul_add (a := (gridQuotient n e).1) hd
  have hstep : (0 : ℚ) < 10 ^ e * unitsInOne := mul_pos (by positivity) cast_unitsInOne_pos
  have hunits : (gridBelow n e).units =
      ((gridQuotient n e).1 / (gridQuotient n e).2 : ℕ) * (10 ^ e * unitsInOne) :=
    mul_assoc _ _ _
  rw [hunits]
  generalize (gridQuotient n e).1 / (gridQuotient n e).2 = k at hlow hup
  generalize gridQuotient n e = q at hscale hd hlow hup
  generalize (10 ^ e * unitsInOne : ℚ) = step at hscale hstep
  have hd' : (0 : ℚ) < q.2 := by exact_mod_cast hd
  have hlow' : (k * q.2 : ℚ) ≤ q.1 := by exact_mod_cast hlow
  have hup' : (q.1 : ℚ) < k * q.2 + q.2 := by exact_mod_cast hup
  -- with the divisor multiplied out, these are the bounds of a division
  constructor
  · refine le_of_mul_le_mul_right ?_ hd'
    calc k * step * q.2 = k * q.2 * step := by ring
      _ ≤ q.1 * step := mul_le_mul_of_nonneg_right hlow' hstep.le
      _ = n * q.2 := hscale
  · refine lt_of_mul_lt_mul_right ?_ hd'.le
    calc n * q.2 = q.1 * step := hscale.symm
      _ < (k * q.2 + q.2) * step := mul_lt_mul_of_pos_right hup' hstep
      _ = (k * step + step) * q.2 := by ring

/-- A whole number is a point of the grid of step one. -/
theorem units_gridBelow_zero {n : ℕ} (h : unitsInOne ∣ n) : (gridBelow n 0).units = n := by
  obtain ⟨k, hk⟩ := h
  have hn : (n : ℚ) = unitsInOne * k := by rw [hk, Nat.cast_mul]
  obtain ⟨hlow, hup⟩ := gridBelow_bounds n 0
  have hunits : (gridBelow n 0).units = unitsInOne * (gridBelow n 0).coefficient := by
    rw [Decimal.units, show (gridBelow n 0).exponent = 0 from rfl, zpow_zero, mul_one, mul_comm]
  rw [hunits, hn] at hlow
  rw [hunits, hn, zpow_zero, one_mul, ← mul_add_one] at hup
  have hle := le_of_mul_le_mul_left hlow cast_unitsInOne_pos
  have hlt := lt_of_mul_lt_mul_left hup cast_unitsInOne_pos.le
  norm_cast at hle hlt
  rw [hunits, hn, Nat.le_antisymm hle (Nat.lt_succ_iff.mp hlt)]

/-- The grid point that is chosen reads back. -/
theorem gridPoint?_reads {tie : Tie} {p : ℕ} {e : ℤ} {x : Decimal}
    (h : gridPoint? tie p e = some x) :
    x.exponent = e ∧ patternOfDecimal x.coefficient x.exponent = p := by
  simp only [gridPoint?] at h
  split at h
  next hupper =>
    cases h
    exact ⟨rfl, beq_iff_eq.mp (Bool.and_eq_true_iff.mp hupper).1⟩
  next =>
    split at h
    next hlower =>
      cases h
      exact ⟨rfl, beq_iff_eq.mp hlower⟩
    next => cases h

/-- A grid has a point to choose where the point next below the number reads back. -/
theorem gridPoint?_ne_none {tie : Tie} {p : ℕ} {e : ℤ}
    (h : patternOfDecimal (gridBelow (unitsOfPattern p) e).coefficient e = p) :
    gridPoint? tie p e ≠ none := by
  have hlower : (patternOfDecimal ((gridQuotient (unitsOfPattern p) e).1 /
      (gridQuotient (unitsOfPattern p) e).2) e == p) = true := beq_iff_eq.mpr h
  simp only [gridPoint?, hlower, if_true]
  split <;> simp

/-! ## The search -/

/-- The first digit is found on the number with 340 places. -/
theorem leadingExponent_scale : Nat.pow 10 340 = 10 ^ 340 := by decide +kernel

/-- The leading exponent is that of a power of ten below the number. -/
theorem ten_pow_leadingExponent_le {n : ℕ} (hn : 0 < n) :
    (10 : ℚ) ^ leadingExponent n * unitsInOne ≤ n := by
  have hunits : unitsInOne ≤ Nat.pow 10 340 := by decide +kernel
  have hne : n * Nat.pow 10 340 / unitsInOne ≠ 0 := by
    rw [Ne, Nat.div_eq_zero_iff_lt unitsInOne_pos, not_lt]
    exact hunits.trans (Nat.le_mul_of_pos_left _ hn)
  have hlength := length_decimalDigits_pos (n * Nat.pow 10 340 / unitsInOne)
  have hfirst := ten_pow_length_le hne
  have hdiv := Nat.div_mul_le_self (n * Nat.pow 10 340) unitsInOne
  -- scaled by `10 ^ 340` the number is a natural one, whose digits are counted
  unfold leadingExponent
  rw [leadingExponent_scale] at *
  generalize n * 10 ^ 340 / unitsInOne = k at *
  obtain ⟨j, hj⟩ : ∃ j, (decimalDigits k).length = j + 1 := ⟨_, (Nat.sub_add_cancel hlength).symm⟩
  rw [hj, Nat.add_sub_cancel] at hfirst
  have hscaled : ((10 : ℚ) ^ j * unitsInOne) ≤ n * 10 ^ 340 := by
    exact_mod_cast (Nat.mul_le_mul_right _ hfirst).trans hdiv
  have hexponent : ((decimalDigits k).length : ℤ) - 341 = (j : ℕ) - (340 : ℕ) := by omega
  rw [hexponent, zpow_sub₀ (by norm_num), zpow_natCast, zpow_natCast, div_mul_eq_mul_div,
    div_le_iff₀ (by positivity)]
  exact hscaled

theorem le_leadingExponent {n j : ℕ} (h : 10 ^ j * unitsInOne ≤ n) : j ≤ leadingExponent n := by
  have hlarge : 10 ^ (j + 340) ≤ n * Nat.pow 10 340 / unitsInOne := by
    rw [leadingExponent_scale, Nat.le_div_iff_mul_le unitsInOne_pos, pow_add, mul_right_comm]
    exact Nat.mul_le_mul_right _ h
  have hlength := lt_ten_pow_length (n * Nat.pow 10 340 / unitsInOne)
  have hlt := (Nat.pow_lt_pow_iff_right (by norm_num)).mp (hlarge.trans_lt hlength)
  unfold leadingExponent
  omega

/-- The search ends with a point that reads back, at the latest on the first grid whose point next below
the number does. -/
theorem shortestDecimal_of_reads (tie : Tie) {p i : ℕ} (hi : i < 19)
    (h : patternOfDecimal
      (gridBelow (unitsOfPattern p) (leadingExponent (unitsOfPattern p) + 1 - i)).coefficient
      (leadingExponent (unitsOfPattern p) + 1 - i) = p) :
    patternOfDecimal (shortestDecimal tie p).coefficient (shortestDecimal tie p).exponent = p ∧
      leadingExponent (unitsOfPattern p) + 1 - i ≤ (shortestDecimal tie p).exponent := by
  simp only [shortestDecimal]
  generalize leadingExponent (unitsOfPattern p) + 1 = start at h ⊢
  have hsome : ((List.range 19).findSome? fun (i : ℕ) => gridPoint? tie p (start - i)).isSome := by
    rw [List.findSome?_isSome_iff]
    exact ⟨i, List.mem_range.mpr hi, Option.isSome_iff_ne_none.mpr (gridPoint?_ne_none h)⟩
  obtain ⟨x, hx⟩ := Option.isSome_iff_exists.mp hsome
  rw [hx, Option.getD_some]
  obtain ⟨coarser, a, finer, hrange, hfound, hnone⟩ := List.findSome?_eq_some_iff.mp hx
  obtain ⟨hexponent, hreads⟩ := gridPoint?_reads hfound
  refine ⟨hreads, ?_⟩
  -- the grids are tried in order, so the one that was found is not finer
  have hai : a ≤ i := by
    by_contra hlater
    have hsorted := List.pairwise_lt_range (n := 19)
    rw [hrange, List.pairwise_append, List.pairwise_cons] at hsorted
    have hmem : i ∈ coarser ++ a :: finer := hrange ▸ List.mem_range.mpr hi
    rcases List.mem_append.mp hmem with hcoarser | htail
    · exact gridPoint?_ne_none h (hnone i hcoarser)
    · rcases List.mem_cons.mp htail with rfl | hfiner
      · exact hlater le_rfl
      · have := hsorted.2.1.1 i hfiner
        omega
  omega

/-! ## Finite numbers -/

/-- The point next below a number reads back if four steps of its grid make at most one of the number's. -/
theorem gridBelow_reads {p s m : ℕ} (h : CountsSteps p s m) (hp : 0 < p)
    (hfinite : p < infinityPattern) {e : ℤ} (he : 4 * (10 ^ e * unitsInOne : ℚ) ≤ 2 ^ s) :
    patternOfDecimal (gridBelow (unitsOfPattern p) e).coefficient e = p := by
  obtain ⟨hlow, hup⟩ := gridBelow_bounds (unitsOfPattern p) e
  exact patternOfDecimal_of_near h hp hfinite hlow (by linarith)

/-- Seventeen places behind the first digit the grid is fine enough. -/
theorem fine_of_leadingExponent {p s m : ℕ} (h : CountsSteps p s m) (hp : 0 < p) :
    4 * ((10 : ℚ) ^ (leadingExponent (unitsOfPattern p) - 17) * unitsInOne) ≤ 2 ^ s := by
  have hpos : 0 < unitsOfPattern p := (Nat.two_pow_pos s).trans_le (h.step_le hp)
  have hlead := ten_pow_leadingExponent_le hpos
  have hlt : (unitsOfPattern p : ℚ) < 2 ^ 53 * 2 ^ s := by exact_mod_cast h.units_lt
  have hplaces : (10 : ℚ) ^ (leadingExponent (unitsOfPattern p) - 17) =
      10 ^ leadingExponent (unitsOfPattern p) / 10 ^ 17 := by
    rw [zpow_sub₀ (by norm_num), zpow_ofNat]
  rw [hplaces, div_mul_eq_mul_div, ← mul_div_assoc, div_le_iff₀ (by positivity)]
  linarith

/-- The shortest decimal reads back, and none of its digits is more than seventeen places behind the
leading one. -/
theorem shortestDecimal_fine (tie : Tie) {p : ℕ} (hp : 0 < p) (hfinite : p < infinityPattern) :
    patternOfDecimal (shortestDecimal tie p).coefficient (shortestDecimal tie p).exponent = p ∧
      leadingExponent (unitsOfPattern p) - 17 ≤ (shortestDecimal tie p).exponent := by
  obtain ⟨s, m, h⟩ := exists_countsSteps p
  have hfine := gridBelow_reads h hp hfinite (fine_of_leadingExponent h hp)
  have hplace : leadingExponent (unitsOfPattern p) + 1 - (18 : ℕ) =
      leadingExponent (unitsOfPattern p) - 17 := by omega
  rw [← hplace] at hfine ⊢
  exact shortestDecimal_of_reads tie (by norm_num) hfine

/-- The shortest decimal of a positive finite number reads back as it. -/
theorem shortestDecimal_reads (tie : Tie) {p : ℕ} (hp : 0 < p) (hfinite : p < infinityPattern) :
    patternOfDecimal (shortestDecimal tie p).coefficient (shortestDecimal tie p).exponent = p :=
  (shortestDecimal_fine tie hp hfinite).1

theorem pos_of_large {p : ℕ} (h : 10 ^ 16 * unitsInOne ≤ unitsOfPattern p) : 0 < p := by
  apply Nat.pos_of_ne_zero
  rintro rfl
  rw [unitsOfPattern_zero] at h
  exact absurd h (by decide +kernel)

/-- Numbers from `10 ^ 16` on are whole. -/
theorem unitsInOne_dvd_of_large {p : ℕ} (h : 10 ^ 16 * unitsInOne ≤ unitsOfPattern p) :
    unitsInOne ∣ unitsOfPattern p := by
  obtain ⟨s, m, hsteps⟩ := exists_countsSteps p
  have hlong : 2 ^ 53 * unitsInOne < 2 ^ 53 * 2 ^ s :=
    (Nat.mul_le_mul_right _ (by norm_num)).trans_lt (h.trans_lt hsteps.units_lt)
  have hstep : unitsInOne < 2 ^ s := lt_of_mul_lt_mul_left hlong (Nat.zero_le _)
  obtain ⟨places, hplaces⟩ : ∃ places, unitsInOne = 2 ^ places := ⟨1074, unitsInOne_eq⟩
  rw [hplaces] at hstep ⊢
  have hs : places < s := (Nat.pow_lt_pow_iff_right (by norm_num)).mp hstep
  rw [hsteps.units]
  exact Dvd.dvd.mul_left (pow_dvd_pow 2 hs.le) m

/-- The shortest decimal of a number from `10 ^ 16` on has no places behind the point. -/
theorem shortestDecimal_exponent_nonneg (tie : Tie) {p : ℕ} (hfinite : p < infinityPattern)
    (h : 10 ^ 16 * unitsInOne ≤ unitsOfPattern p) : 0 ≤ (shortestDecimal tie p).exponent := by
  have hp := pos_of_large h
  rcases (le_leadingExponent h).eq_or_lt with hleading | hleading
  · -- with seventeen digits the grid of step one comes last, and the number is on it
    have hreads : patternOfDecimal (gridBelow (unitsOfPattern p) 0).coefficient 0 = p :=
      patternOfDecimal_of_units hp hfinite (units_gridBelow_zero (unitsInOne_dvd_of_large h))
    have hplace : leadingExponent (unitsOfPattern p) + 1 - (17 : ℕ) = 0 := by omega
    rw [← hplace] at hreads ⊢
    exact (shortestDecimal_of_reads tie (by norm_num) hreads).2
  · have := (shortestDecimal_fine tie hp hfinite).2
    omega

/-- A number that is not whole has places behind the point. -/
theorem shortestDecimal_exponent_neg (tie : Tie) {p : ℕ} (hp : 0 < p) (hfinite : p < infinityPattern)
    (h : ¬unitsInOne ∣ unitsOfPattern p) : (shortestDecimal tie p).exponent < 0 := by
  by_contra hwhole
  apply h
  obtain ⟨k, hk⟩ := Int.eq_ofNat_of_zero_le (not_lt.mp hwhole)
  have hreads := shortestDecimal_reads tie hp hfinite
  rw [hk] at hreads
  generalize (shortestDecimal tie p).coefficient = c at hreads
  rw [← hreads] at hp hfinite ⊢
  have hrounded := patternOfDecimal_whole hp hfinite
  rw [hrounded] at hfinite ⊢
  exact unitsInOne_dvd_of_whole hfinite

end ContentQuery.Number
