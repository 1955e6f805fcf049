import ContentQuery.Number.Decimal
import Mathlib

/-! # Reading back written digits

The decimal digits of a number read back as it, also with zeros in front. So a number is known from
its digits, and an integer from its sign and digits.
-/

namespace ContentQuery.Number

@[simp] theorem ofDigits_decimalDigits (n : ℕ) : ofDigits (decimalDigits n) = n := by
  have h := Nat.ofDigitChars_toDigits (b := 10) (n := n) (by omega) (by omega)
  rwa [Nat.ofDigitChars_eq_foldl] at h

theorem decimalDigits_injective : Function.Injective decimalDigits :=
  Function.LeftInverse.injective ofDigits_decimalDigits

theorem decimalDigits_ne_nil (n : ℕ) : decimalDigits n ≠ [] :=
  Nat.toDigits_ne_nil

theorem isDigit_of_mem_decimalDigits {n : ℕ} {c : Char} (h : c ∈ decimalDigits n) :
    isDigit c = true := by
  have hdigit : c.isDigit = true := Nat.isDigit_of_mem_toDigits (by omega) (by omega) h
  simpa [isDigit, Char.isDigit, Char.le_def] using hdigit

@[simp] theorem toList_decimalText (n : ℕ) : (decimalText n).toList = decimalDigits n := by
  simp [decimalText]

theorem ofDigits_eq (ds : List Char) : ofDigits ds = Nat.ofDigitChars 10 ds 0 := rfl

theorem ofDigits_zeros_append (n : ℕ) (ds : List Char) :
    ofDigits (List.replicate n '0' ++ ds) = ofDigits ds := by
  rw [ofDigits_eq, ofDigits_eq, Nat.ofDigitChars_append, Nat.ofDigitChars_replicate_zero, Nat.mul_zero]

/-- A zero behind the digits makes the number tenfold. -/
theorem ofDigits_append_zero (ds : List Char) : ofDigits (ds ++ ['0']) = ofDigits ds * 10 := by
  rw [ofDigits_eq, ofDigits_eq, Nat.ofDigitChars_append, Nat.ofDigitChars_cons, Nat.ofDigitChars_nil,
    Nat.mul_comm]
  rfl

/-- Digits write a number below the power of ten of their count. -/
theorem ofDigits_lt {ds : List Char} (h : ∀ c ∈ ds, isDigit c = true) :
    ofDigits ds < 10 ^ ds.length := by
  -- the last digit adds less than ten to the tenfold of the others
  induction ds using List.reverseRecOn with
  | nil => decide
  | append_singleton ds c ih =>
    rw [List.forall_mem_append, List.forall_mem_singleton] at h
    have hvalue : digitValue c < 10 := by
      have hcode : 0x30 ≤ c.toNat ∧ c.toNat ≤ 0x39 := by
        simpa [isDigit, Char.le_def, UInt32.le_iff_toNat_le] using h.2
      have hzero : '0'.toNat = 0x30 := rfl
      rw [digitValue, hzero]
      omega
    have hlast : ofDigits (ds ++ [c]) = 10 * ofDigits ds + digitValue c := by
      rw [ofDigits, List.foldl_append]
      rfl
    have hfront := ih h.1
    rw [hlast, List.length_append, List.length_singleton, pow_succ]
    omega

/-! ## Padded numbers -/

/-- A padded number has zeros in front of its digits, up to the width. -/
theorem toList_paddedText (width n : ℕ) : (paddedText width n).toList =
    List.replicate (width - (decimalDigits n).length) '0' ++ decimalDigits n := by
  rw [paddedText, String.toList_ofList]

@[simp] theorem ofDigits_paddedText (width n : ℕ) : ofDigits (paddedText width n).toList = n := by
  rw [toList_paddedText, ofDigits_zeros_append, ofDigits_decimalDigits]

theorem isDigit_of_mem_paddedText {width n : ℕ} : ∀ c ∈ (paddedText width n).toList,
    isDigit c = true := by
  intro c hc
  rw [toList_paddedText] at hc
  rcases List.mem_append.mp hc with hzero | hdigit
  · rw [List.eq_of_mem_replicate hzero]
    rfl
  · exact isDigit_of_mem_decimalDigits hdigit

/-- A padded number is at least as long as its width. -/
theorem le_length_paddedText (width n : ℕ) : width ≤ (paddedText width n).toList.length := by
  rw [toList_paddedText, List.length_append, List.length_replicate]
  omega

/-- A number that fits the width is written in just as many digits. -/
theorem length_paddedText {width n : ℕ} (hwidth : 0 < width) (h : n < 10 ^ width) :
    (paddedText width n).toList.length = width := by
  have hlength : (decimalDigits n).length ≤ width :=
    (Nat.length_toDigits_le_iff (by norm_num) hwidth).mpr h
  rw [toList_paddedText, List.length_append, List.length_replicate]
  omega

/-! ## Integers -/

/-- The characters of integers. -/
def isSignedDigit (c : Char) : Bool := c == '-' || isDigit c

theorem toList_integerText (n : ℤ) : (integerText n).toList =
    if n < 0 then '-' :: decimalDigits n.natAbs else decimalDigits n.natAbs := by
  unfold integerText
  split <;> simp

/-- An integer has characters, all of them digits or the sign. -/
theorem isSignedDigit_of_mem_integerText (n : ℤ) :
    (integerText n).toList ≠ [] ∧ ∀ c ∈ (integerText n).toList, isSignedDigit c = true := by
  have hdigits : ∀ c ∈ decimalDigits n.natAbs, isSignedDigit c = true := fun c hc => by
    simp [isSignedDigit, isDigit_of_mem_decimalDigits hc]
  rw [toList_integerText]
  split
  · exact ⟨by simp, List.forall_mem_cons.mpr ⟨by decide, hdigits⟩⟩
  · exact ⟨decimalDigits_ne_nil _, hdigits⟩

theorem sign_notMem_decimalDigits (n : ℕ) : '-' ∉ decimalDigits n := fun h =>
  absurd (isDigit_of_mem_decimalDigits h) (by decide)

/-- The text of an integer tells it. -/
theorem integerText_injective : Function.Injective integerText := by
  intro n m h
  have hchars := congrArg String.toList h
  rw [toList_integerText, toList_integerText] at hchars
  split at hchars <;> split at hchars
  · have habs := decimalDigits_injective (List.cons.inj hchars).2
    omega
  · exact absurd (hchars ▸ by simp) (sign_notMem_decimalDigits m.natAbs)
  · exact absurd (hchars ▸ by simp) (sign_notMem_decimalDigits n.natAbs)
  · have habs := decimalDigits_injective hchars
    omega

end ContentQuery.Number
