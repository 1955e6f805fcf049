import ContentQuery.Proofs.Number.DoubleText
import ContentQuery.Query.Statement

/-! # Literals of doubles

A double is written so that it reads back as itself. Whether the text also shows that it is a double is
decided at `10 ^ 16`: below, the text has a point, and from there on it is the text of an integer. The
longs reach up to `2 ^ 63`, so every double between the two is written like a long.
-/

namespace ContentQuery.Number

/-! ## The end of the longs -/

/-- Without its sign a double has the units of its magnitude. -/
theorem Double.natAbs_units (x : Double) : x.units.natAbs = unitsOfPattern x.magnitude := by
  unfold units
  split <;> omega

/-- The pattern of `2 ^ 63`, the first number beyond the longs. -/
def beyondLongs : ℕ := 1086 * fractionCount

theorem patternOfQuotient_beyondLongs : patternOfQuotient (2 ^ 63 * unitsInOne) 1 = beyondLongs := by
  decide +kernel

/-- The least double beyond the longs is `2 ^ 63`. -/
theorem unitsOfPattern_beyondLongs : unitsOfPattern beyondLongs = 2 ^ 63 * unitsInOne := by
  decide +kernel

/-- Its shortest decimal is greater than the number. -/
theorem text_beyondLongs (negative : Bool) : (Double.ofPattern negative beyondLongs).text =
    integerText (if negative then -9223372036854776000 else 9223372036854776000) := by
  cases negative <;> decide +kernel

namespace Double

variable {x : Double} (hfinite : x.isFinite = true)

include hfinite

/-- A double that is written like a long lies in front of the end of the longs. -/
theorem magnitude_lt_of_long {m : Int64} (h : integerText m.toInt = x.text) :
    10 ^ 16 * unitsInOne ≤ unitsOfPattern x.magnitude ∧ x.magnitude < beyondLongs := by
  -- an integer has no point, so the double is one of those printed without
  have hlarge : 10 ^ 16 * unitsInOne ≤ unitsOfPattern x.magnitude := by
    by_contra hsmall
    have hpoint := (point_mem_text_iff hfinite).mpr (not_le.mp hsmall)
    rw [← h] at hpoint
    exact absurd ((isSignedDigit_of_mem_integerText _).2 _ hpoint) (by decide)
  refine ⟨hlarge, ?_⟩
  obtain ⟨n, htext, hrounds⟩ := text_of_large hfinite hlarge
  have hm := integerText_injective (h.trans htext)
  have hlow := m.le_toInt
  have hhigh := m.toInt_lt
  have hle : n ≤ 2 ^ 63 := by
    split at hm <;> omega
  -- the bound itself is left out: `2 ^ 63` is no long, and its negative has another text
  apply lt_of_le_of_ne
  · rw [← hrounds, ← patternOfQuotient_beyondLongs]
    exact patternOfQuotient_mono 1 (Nat.mul_le_mul_right _ hle)
  · intro heq
    have hwritten := text_beyondLongs x.isNegative
    rw [← heq, ofPattern_magnitude, ← h] at hwritten
    have hinteger := integerText_injective hwritten
    split at hinteger <;> omega

/-- A double is written like a long if and only if it lies between `10 ^ 16` and the end of the longs. -/
theorem exists_long_iff :
    (∃ m : Int64, integerText m.toInt = x.text) ↔
      10 ^ 16 * unitsInOne ≤ unitsOfPattern x.magnitude ∧
        unitsOfPattern x.magnitude < 2 ^ 63 * unitsInOne := by
  rw [← unitsOfPattern_beyondLongs, unitsOfPattern_strictMono.lt_iff_lt]
  constructor
  · rintro ⟨m, hm⟩
    exact magnitude_lt_of_long hfinite hm
  · rintro ⟨hlarge, hlt⟩
    obtain ⟨n, htext, hrounds⟩ := text_of_large hfinite hlarge
    -- a longer integer would round to a double beyond the bound
    have hn63 : n < 2 ^ 63 := by
      by_contra hge
      have hmono := patternOfQuotient_mono 1 (Nat.mul_le_mul_right unitsInOne (not_lt.mp hge))
      rw [patternOfQuotient_beyondLongs, hrounds] at hmono
      omega
    refine ⟨Int64.ofInt (if x.isNegative then -n else n), ?_⟩
    rw [htext, Int64.toInt_ofInt_of_le]
    · split <;> omega
    · split <;> omega

end Double

end ContentQuery.Number

/-! ## What the literal shows -/

namespace ContentQuery.Statement

open Naming Number

/-- The literal of a finite double reads back as the same double, the sign of zero included. It has a
point if and only if the double is less than `10 ^ 16`, and it is the literal of a long if and only if
the double lies from there on below `2 ^ 63`. -/
theorem doubleText_reads_back (names : Registry) (x : Double) (hfinite : x.isFinite = true) :
    readDouble? x.text.toList = some x ∧
      ('.' ∈ x.text.toList ↔ x.units.natAbs < 10 ^ 16 * unitsInOne) ∧
      ((∃ m : Int64, literalText names (.long m) = literalText names (.double x)) ↔
        10 ^ 16 * unitsInOne ≤ x.units.natAbs ∧ x.units.natAbs < 2 ^ 63 * unitsInOne) := by
  rw [x.natAbs_units]
  refine ⟨Double.readDouble?_text hfinite, Double.point_mem_text_iff hfinite, ?_⟩
  rw [← Double.exists_long_iff hfinite]
  simp [literalText]

/-- `10 ^ 16` is written without a point, like the long. -/
theorem doubleText_without_point :
    (Double.mk 0x4341C37937E08000).isFinite = true ∧
      '.' ∉ (Double.mk 0x4341C37937E08000).text.toList ∧
      ∀ names, literalText names (.long 10000000000000000) =
        literalText names (.double ⟨0x4341C37937E08000⟩) := by
  have htext : (Double.mk 0x4341C37937E08000).text = "10000000000000000" := by decide +kernel
  refine ⟨by decide, ?_, ?_⟩
  · rw [htext]
    decide
  · intro names
    rw [literalText, literalText, htext]
    decide +kernel

/-- Negative zero is written with its sign and a point. -/
theorem doubleText_reads_back_negativeZero :
    (Double.mk 0x8000000000000000).isFinite = true ∧
      readDouble? (Double.mk 0x8000000000000000).text.toList = some ⟨0x8000000000000000⟩ ∧
      '.' ∈ (Double.mk 0x8000000000000000).text.toList := by
  have hfinite : (Double.mk 0x8000000000000000).isFinite = true := by decide
  obtain ⟨hreads, hpoint, -⟩ := doubleText_reads_back .standard ⟨0x8000000000000000⟩ hfinite
  exact ⟨hfinite, hreads, hpoint.mpr (by decide +kernel)⟩

end ContentQuery.Statement
