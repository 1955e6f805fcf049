import ContentQuery.Number.DoubleText
import ContentQuery.Proofs.Number.Digits
import ContentQuery.Proofs.Number.Shortest
import ContentQuery.Proofs.Text.Cut

/-! # The text of a double reads back

Every finite double is written as a numeral: digits, and a point with more digits behind it unless the
number is `10 ^ 16` or more. The numeral rounds to the number it was written for, so the text reads back
as the same double, the sign of zero included. From `10 ^ 16` on the text is that of an integer.
-/

namespace ContentQuery.Number

open Text

/-! ## Digits and zeros -/

/-- Multiplying by a power of ten appends zeros. -/
theorem decimalDigits_mul_ten_pow {n : ℕ} (hn : 0 < n) (k : ℕ) :
    decimalDigits (n * 10 ^ k) = decimalDigits n ++ List.replicate k '0' := by
  induction k with
  | zero => simp
  | succ k ih =>
    have hpos : 0 < n * 10 ^ k := by positivity
    have hdigits := Nat.toDigits_append_toDigits (b := 10) (d := 0) (by norm_num) hpos (by norm_num)
    rw [List.replicate_succ', ← List.append_assoc, ← ih, pow_succ, ← mul_assoc, mul_comm _ 10]
    exact hdigits.symm

/-- A numeral that starts with a digit has no sign. -/
theorem splitSign_of_isDigit {c : Char} (h : isDigit c = true) (cs : List Char) :
    splitSign (c :: cs) = (false, c :: cs) := by
  have hminus : c ≠ '-' := by
    rintro rfl
    exact absurd h (by decide)
  have hplus : c ≠ '+' := by
    rintro rfl
    exact absurd h (by decide)
  unfold splitSign
  split
  next heq => exact absurd (List.cons.inj heq).1 hminus
  next heq => exact absurd (List.cons.inj heq).1 hplus
  next => rfl

/-! ## Numerals -/

/-- Digits, and a point with digits behind it if there are any. -/
def numeral (whole fraction : List Char) : List Char :=
  if fraction = [] then whole else whole ++ '.' :: fraction

/-- Digits in front of and behind a point that are read as a pattern. -/
structure Reads (whole fraction : List Char) (p : ℕ) : Prop where
  ne_nil : whole ≠ []
  whole_digits : ∀ c ∈ whole, isDigit c = true
  fraction_digits : ∀ c ∈ fraction, isDigit c = true
  pattern_eq : patternOfDecimal (ofDigits (whole ++ fraction)) (-(fraction.length : ℤ)) = p

namespace Reads

variable {whole fraction : List Char} {p : ℕ}

/-- A numeral is read as the number of all its digits with the point moved in front of the fraction. -/
theorem readDecimal?_numeral (h : Reads whole fraction p) :
    readDecimal? (numeral whole fraction) =
      some (ofDigits (whole ++ fraction), -(fraction.length : ℤ)) := by
  have hne : whole ++ fraction ≠ [] := by simp [h.ne_nil]
  have htake : fraction.takeWhile isDigit = fraction := List.takeWhile_eq_self_iff.mpr h.fraction_digits
  have hdrop : fraction.dropWhile isDigit = [] := List.dropWhile_eq_nil_iff.mpr h.fraction_digits
  unfold numeral
  -- with a point, or without one where there is no fraction
  split
  next hnil =>
    have hall : whole.takeWhile isDigit = whole := List.takeWhile_eq_self_iff.mpr h.whole_digits
    have hnone : whole.dropWhile isDigit = [] := List.dropWhile_eq_nil_iff.mpr h.whole_digits
    simp [readDecimal?, hall, hnone, hnil, h.ne_nil, readExponent?]
  next =>
    have hpoint : ∀ c ∈ ('.' :: fraction).head?, isDigit c = false := by simp [isDigit]
    simp only [readDecimal?, takeWhile_append_run h.whole_digits hpoint,
      dropWhile_append_run h.whole_digits hpoint, htake, hdrop, if_neg hne]
    simp [readExponent?]

theorem splitSign_numeral (h : Reads whole fraction p) :
    splitSign (numeral whole fraction) = (false, numeral whole fraction) := by
  obtain ⟨c, cs, rfl⟩ := List.exists_cons_of_ne_nil h.ne_nil
  have hdigit := h.whole_digits c (by simp)
  unfold numeral
  split
  · exact splitSign_of_isDigit hdigit _
  · exact splitSign_of_isDigit hdigit _

/-- A numeral is read as a double, with the sign in front of it. -/
theorem readDouble?_numeral (h : Reads whole fraction p) (negative : Bool) :
    readDouble? (if negative then '-' :: numeral whole fraction else numeral whole fraction) =
      some (Double.ofPattern negative p) := by
  have hread : ∀ cs, splitSign cs = (negative, numeral whole fraction) →
      readDouble? cs = some (Double.ofPattern negative p) := by
    intro cs hcs
    simp only [readDouble?, hcs, h.readDecimal?_numeral, h.pattern_eq]
  apply hread
  cases negative
  · exact h.splitSign_numeral
  · rfl

/-- A numeral has a point if and only if it has digits behind one. -/
theorem point_mem_iff (h : Reads whole fraction p) : '.' ∈ numeral whole fraction ↔ fraction ≠ [] := by
  have hwhole : '.' ∉ whole := fun hmem => absurd (h.whole_digits _ hmem) (by decide)
  unfold numeral
  split
  next hnil => simp [hnil, hwhole]
  next hne => simp [hne]

end Reads

/-! ## Decimals written out -/

/-- Zeros behind a number are as good as a greater exponent. -/
theorem patternOfDecimal_mul_ten_pow (c k : ℕ) :
    patternOfDecimal (c * 10 ^ k) 0 = patternOfDecimal c k := by
  rcases c.eq_zero_or_pos with rfl | hc
  · simp [patternOfDecimal]
  · have htop : decimalTop (c * 10 ^ k) 0 = decimalTop c k := by
      simp [decimalTop, decimalDigits_mul_ten_pow hc]
      omega
    have hquotient : decimalQuotient (c * 10 ^ k) 0 = decimalQuotient c k := by
      simp [decimalQuotient]
    have hzero : c * 10 ^ k = 0 ↔ c = 0 := by simp
    simp only [patternOfDecimal, htop, hquotient, hzero]

/-- Without places behind the point, a decimal is written as a whole number. -/
theorem Decimal.positional_of_nonneg {x : Decimal} (hc : 0 < x.coefficient) {k : ℕ}
    (hk : x.exponent = k) : x.positional = decimalText (x.coefficient * 10 ^ k) := by
  rw [Decimal.positional, if_pos (by omega), hk, Int.toNat_natCast, decimalText,
    decimalDigits_mul_ten_pow hc]

/-- A row of digits without a point reads as its number. -/
theorem reads_decimalDigits (n : ℕ) : Reads (decimalDigits n) [] (patternOfDecimal n 0) where
  ne_nil := decimalDigits_ne_nil n
  whole_digits := fun _ => isDigit_of_mem_decimalDigits
  fraction_digits := by simp
  pattern_eq := by simp

/-- With places behind the point, a decimal is written in its own digits. -/
theorem Decimal.positional_of_neg {x : Decimal} (h : x.exponent < 0) :
    ∃ whole fraction, x.positional.toList = numeral whole fraction ∧ fraction ≠ [] ∧
      Reads whole fraction (patternOfDecimal x.coefficient x.exponent) := by
  obtain ⟨places, hplaces⟩ : ∃ places, (-x.exponent).toNat = places + 1 :=
    ⟨(-x.exponent).toNat - 1, by omega⟩
  -- zeros in front leave a digit before the point
  obtain ⟨padded, hpadded⟩ : ∃ padded, padded = List.replicate
      (places + 1 + 1 - (decimalDigits x.coefficient).length) '0' ++ decimalDigits x.coefficient :=
    ⟨_, rfl⟩
  have hlength : places + 1 + 1 ≤ padded.length := by
    rw [hpadded, List.length_append, List.length_replicate]
    omega
  have hdigits : ∀ c ∈ padded, isDigit c = true := by
    intro c hc
    rw [hpadded, List.mem_append, List.mem_replicate] at hc
    rcases hc with ⟨-, rfl⟩ | hc
    · decide
    · exact isDigit_of_mem_decimalDigits hc
  have hvalue : ofDigits padded = x.coefficient := by
    rw [hpadded, ofDigits_zeros_append, ofDigits_decimalDigits]
  have hfraction : (padded.drop (padded.length - (places + 1))).length = places + 1 := by
    rw [List.length_drop]
    omega
  have hne : padded.drop (padded.length - (places + 1)) ≠ [] :=
    List.ne_nil_of_length_eq_add_one hfraction
  refine ⟨padded.take (padded.length - (places + 1)), padded.drop (padded.length - (places + 1)),
    ?_, hne, ?_⟩
  · simp only [Decimal.positional, if_neg (not_le.mpr h), hplaces, ← hpadded, numeral, if_neg hne]
    simp
  · refine ⟨?_, fun c hc => hdigits c (List.mem_of_mem_take hc),
      fun c hc => hdigits c (List.mem_of_mem_drop hc), ?_⟩
    · apply List.ne_nil_of_length_pos
      rw [List.length_take]
      omega
    · rw [List.take_append_drop, hvalue, hfraction]
      congr 1
      omega

/-! ## Finite doubles -/

theorem Double.isFinite_iff (x : Double) : x.isFinite = true ↔ x.magnitude < infinityPattern :=
  decide_eq_true_iff

/-- A double is its sign and its magnitude. -/
theorem Double.ofPattern_magnitude (x : Double) : ofPattern x.isNegative x.magnitude = x := by
  obtain ⟨bits⟩ := x
  have hbits := bits.toNat_lt
  have hsign : Nat.pow 2 63 = 2 ^ 63 := rfl
  simp only [ofPattern, isNegative, magnitude, hsign, decide_eq_true_eq]
  congr 1
  have hparts : (if 2 ^ 63 ≤ bits.toNat then 2 ^ 63 + bits.toNat % 2 ^ 63 else bits.toNat % 2 ^ 63) =
      bits.toNat := by
    split <;> omega
  rw [hparts, UInt64.ofNat_toNat]

/-- A whole number with one zero behind the point reads back. -/
theorem reads_whole {p n : ℕ} (hfinite : p < infinityPattern) (h : unitsOfPattern p = n * unitsInOne) :
    Reads (decimalDigits n) ['0'] p where
  ne_nil := decimalDigits_ne_nil n
  whole_digits := fun _ => isDigit_of_mem_decimalDigits
  fraction_digits := by simp [isDigit]
  pattern_eq := by
    rw [ofDigits_append_zero, ofDigits_decimalDigits]
    rcases p.eq_zero_or_pos with rfl | hp
    · have hzero : n * unitsInOne = 0 := h.symm.trans (by decide)
      rw [(Nat.mul_eq_zero.mp hzero).resolve_right unitsInOne_pos.ne']
      simp [patternOfDecimal]
    · have hvalue : ((n * 10 : ℕ) : ℚ) * 10 ^ (-1 : ℤ) = n := by simp
      have hunits : Decimal.units ⟨n * 10, -1⟩ = unitsOfPattern p := by
        rw [h, Nat.cast_mul, Decimal.units, hvalue]
      exact patternOfDecimal_of_units hp hfinite hunits

/-- Printed exactly are the whole numbers below `10 ^ 16`. -/
theorem Double.isShortWhole_iff {x : Double} (hfinite : x.isFinite = true) :
    x.isShortWhole = true ↔
      unitsInOne ∣ unitsOfPattern x.magnitude ∧
        unitsOfPattern x.magnitude < 10 ^ 16 * unitsInOne := by
  have hpower : Nat.pow 10 16 = 10 ^ 16 := rfl
  rw [isShortWhole, hfinite, Bool.true_and, Bool.and_eq_true, beq_iff_eq, decide_eq_true_iff,
    Nat.dvd_iff_mod_eq_zero, hpower]

/-- The shortest decimal of a positive number is positive. -/
theorem shortestDecimal_coefficient_pos (tie : Tie) {p : ℕ} (hp : 0 < p)
    (hfinite : p < infinityPattern) : 0 < (shortestDecimal tie p).coefficient := by
  apply Nat.pos_of_ne_zero
  intro hzero
  have hreads := shortestDecimal_reads tie hp hfinite
  rw [hzero, patternOfDecimal, if_pos (.inl rfl)] at hreads
  omega

/-- From `10 ^ 16` on a double is written like an integer. -/
theorem Double.magnitudeText_of_large {x : Double} (hfinite : x.isFinite = true)
    (h : 10 ^ 16 * unitsInOne ≤ unitsOfPattern x.magnitude) :
    ∃ n, 0 < n ∧ x.magnitudeText = decimalText n ∧ patternOfDecimal n 0 = x.magnitude := by
  have hbound := x.isFinite_iff.mp hfinite
  have hp := pos_of_large h
  have hlong : ¬x.isShortWhole = true := fun hshort =>
    absurd ((isShortWhole_iff hfinite).mp hshort).2 (not_lt.mpr h)
  have hpos := shortestDecimal_coefficient_pos .up hp hbound
  have hreads := shortestDecimal_reads .up hp hbound
  obtain ⟨k, hk⟩ :=
    Int.eq_ofNat_of_zero_le (shortestDecimal_exponent_nonneg .up hbound h)
  refine ⟨(shortestDecimal .up x.magnitude).coefficient * 10 ^ k, by positivity, ?_, ?_⟩
  · rw [magnitudeText, if_neg hlong, if_pos hfinite, Decimal.positional_of_nonneg hpos hk]
  · rw [patternOfDecimal_mul_ten_pow, ← hk, hreads]

/-- A finite double is written as a numeral that reads back, with a point if and only if it is less than
`10 ^ 16`. -/
theorem Double.exists_numeral {x : Double} (hfinite : x.isFinite = true) :
    ∃ whole fraction, x.magnitudeText.toList = numeral whole fraction ∧
      Reads whole fraction x.magnitude ∧
      (fraction ≠ [] ↔ unitsOfPattern x.magnitude < 10 ^ 16 * unitsInOne) := by
  have hbound := x.isFinite_iff.mp hfinite
  rcases Nat.lt_or_ge (unitsOfPattern x.magnitude) (10 ^ 16 * unitsInOne) with hsmall | hlarge
  · by_cases hwhole : unitsInOne ∣ unitsOfPattern x.magnitude
    · have hn := (Nat.div_mul_cancel hwhole).symm
      have hshort := (isShortWhole_iff hfinite).mpr ⟨hwhole, hsmall⟩
      refine ⟨_, ['0'], ?_, reads_whole hbound hn, iff_of_true (by simp) hsmall⟩
      rw [magnitudeText, if_pos hshort, String.toList_append, toList_decimalText]
      rfl
    · have hshort : ¬x.isShortWhole = true := fun h => hwhole ((isShortWhole_iff hfinite).mp h).1
      have hp : 0 < x.magnitude := by
        apply Nat.pos_of_ne_zero
        intro hzero
        exact hwhole (hzero ▸ unitsOfPattern_zero ▸ dvd_zero _)
      obtain ⟨whole, fraction, htext, hne, hreads⟩ := Decimal.positional_of_neg
        (shortestDecimal_exponent_neg .up hp hbound hwhole)
      rw [shortestDecimal_reads .up hp hbound] at hreads
      refine ⟨whole, fraction, ?_, hreads, iff_of_true hne hsmall⟩
      rw [magnitudeText, if_neg hshort, if_pos hfinite, htext]
  · -- beyond the limit no number has a point
    obtain ⟨n, -, htext, hreads⟩ := magnitudeText_of_large hfinite hlarge
    refine ⟨decimalDigits n, [], ?_, hreads ▸ reads_decimalDigits n,
      iff_of_false (by simp) hlarge.not_gt⟩
    rw [htext, toList_decimalText]
    rfl

theorem Double.isNaN_of_isFinite {x : Double} (hfinite : x.isFinite = true) : x.isNaN = false := by
  have := x.isFinite_iff.mp hfinite
  exact decide_eq_false (by omega)

theorem Double.text_of_isFinite {x : Double} (hfinite : x.isFinite = true) :
    x.text = if x.isNegative then "-" ++ x.magnitudeText else x.magnitudeText := by
  rw [text, isNaN_of_isFinite hfinite]
  rfl

theorem Double.toList_text {x : Double} (hfinite : x.isFinite = true) :
    x.text.toList =
      if x.isNegative then '-' :: x.magnitudeText.toList else x.magnitudeText.toList := by
  rw [text_of_isFinite hfinite]
  split
  · rw [String.toList_append]
    rfl
  · rfl

/-- From `10 ^ 16` on the text of a double is that of an integer, which rounds to it. -/
theorem Double.text_of_large {x : Double} (hfinite : x.isFinite = true)
    (h : 10 ^ 16 * unitsInOne ≤ unitsOfPattern x.magnitude) :
    ∃ n : ℕ, x.text = integerText (if x.isNegative then -n else n) ∧
      patternOfQuotient (n * unitsInOne) 1 = x.magnitude := by
  obtain ⟨n, hn, htext, hreads⟩ := magnitudeText_of_large hfinite h
  refine ⟨n, ?_, ?_⟩
  · rw [text_of_isFinite hfinite, htext]
    split
    · rw [integerText, if_pos (by omega), Int.natAbs_neg, Int.natAbs_natCast]
    · rw [integerText, if_neg (by omega), Int.natAbs_natCast]
  · have hrounded := patternOfDecimal_whole (c := n) (k := 0)
    rw [Nat.cast_zero, hreads, pow_zero, mul_one] at hrounded
    exact (hrounded (pos_of_large h) (x.isFinite_iff.mp hfinite)).symm

/-- The text of a finite double reads back as it. -/
theorem Double.readDouble?_text {x : Double} (hfinite : x.isFinite = true) :
    readDouble? x.text.toList = some x := by
  obtain ⟨whole, fraction, htext, hreads, -⟩ := exists_numeral hfinite
  rw [toList_text hfinite, htext, hreads.readDouble?_numeral, ofPattern_magnitude]

/-- The text of a finite double has a point if and only if the double is less than `10 ^ 16`. -/
theorem Double.point_mem_text_iff {x : Double} (hfinite : x.isFinite = true) :
    '.' ∈ x.text.toList ↔ unitsOfPattern x.magnitude < 10 ^ 16 * unitsInOne := by
  obtain ⟨whole, fraction, htext, hreads, hpoint⟩ := exists_numeral hfinite
  rw [← hpoint, ← hreads.point_mem_iff, toList_text hfinite, htext]
  split <;> simp

end ContentQuery.Number
