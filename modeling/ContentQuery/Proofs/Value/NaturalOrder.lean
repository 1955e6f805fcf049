import ContentQuery.Proofs.Number.Rounding
import ContentQuery.Value.Comparison

/-! # The order of all values

Values of different kinds are ordered by group and values of one kind by a total preorder of that
kind, numbers excepted: integers compare exactly among each other, but rounded with doubles. The
order is reflexive and antisymmetric throughout. It is transitive but for two integers that round to
one double, which the double between them makes equal and their own comparison does not.
-/

namespace ContentQuery

open Naming Number Time

/-! ## Names, paths and dates -/

instance : Std.TransOrd Name :=
  inferInstanceAs (Std.TransCmp (compareLex (compareOn Name.uri) (compareOn Name.localPart)))

/-- The name a step descends to, empty where it descends nowhere. -/
def stepName : Step → Name
  | .named name _ => name
  | _ => .empty

/-- The index a step descends to, zero where it descends nowhere. -/
def stepIndex : Step → UInt32
  | .named _ index => index
  | _ => 0

/-- Steps are ordered by their kinds, then by name and index. -/
theorem compare_step_eq : (compare : Step → Step → Ordering) =
    compareLex (compareOn Step.rank) (compareLex (compareOn stepName) (compareOn stepIndex)) := by
  funext a b
  cases a <;> cases b <;> rfl

instance : Std.TransOrd Step := by
  unfold Std.TransOrd
  rw [compare_step_eq]
  infer_instance

instance : Std.TransOrd Path :=
  inferInstanceAs (Std.TransCmp (compareLex (compareOn Path.absolute) (compareOn Path.steps)))

instance : Std.TransCmp DateTime.compareInstant :=
  inferInstanceAs (Std.TransCmp (compareLex (compareOn DateTime.seconds)
    (compareOn DateTime.subsecond)))

instance : Std.TransCmp Double.compareTotal :=
  inferInstanceAs (Std.TransCmp (compareOn Double.totalKey))

/-- In a transitive order what is not greater is so in a row. -/
theorem ne_gt_trans {α : Type} {cmp : α → α → Ordering} [Std.TransCmp cmp] {x y z : α}
    (hxy : cmp x y ≠ .gt) (hyz : cmp y z ≠ .gt) : cmp x z ≠ .gt :=
  Ordering.ne_gt_iff_isLE.mpr (Std.TransCmp.isLE_trans (Ordering.ne_gt_iff_isLE.mp hxy)
    (Ordering.ne_gt_iff_isLE.mp hyz))

namespace Value

/-! ## Groups -/

/-- Values of different kinds are ordered by their kinds. -/
theorem naturalOrder_of_typeRank_ne {a b : Value} (h : a.typeRank ≠ b.typeRank) :
    a.naturalOrder b = compare a.typeRank b.typeRank := by
  cases a <;> cases b <;> first | rfl | exact absurd rfl h

/-- A value that is not greater is of no greater kind. -/
theorem typeRank_le_of_ne_gt {a b : Value} (h : a.naturalOrder b ≠ .gt) :
    a.typeRank ≤ b.typeRank := by
  by_cases hrank : a.typeRank = b.typeRank
  · exact hrank.le
  · rw [naturalOrder_of_typeRank_ne hrank, Nat.compare_ne_gt] at h
    exact h

theorem naturalOrder_self (a : Value) : a.naturalOrder a = .eq := by
  cases a <;> simp only [naturalOrder] <;> exact Std.ReflCmp.compare_self

/-- The order turns round with its two values. -/
theorem naturalOrder_swap (a b : Value) : b.naturalOrder a = (a.naturalOrder b).swap := by
  cases a <;> cases b <;> simp only [naturalOrder] <;> exact Std.OrientedCmp.eq_swap

/-- Within a group that holds no numbers the order is transitive. -/
theorem naturalOrder_trans_of_not_number {a b c : Value} (hab : a.typeRank = b.typeRank)
    (hbc : b.typeRank = c.typeRank) (hnumber : b.typeRank ≠ 1) (h₁ : a.naturalOrder b ≠ .gt)
    (h₂ : b.naturalOrder c ≠ .gt) : a.naturalOrder c ≠ .gt := by
  cases b <;> first | exact absurd rfl hnumber | skip
  all_goals
    cases a <;> simp [typeRank, type] at hab
    cases c <;> simp [typeRank, type] at hbc
    simp only [naturalOrder] at h₁ h₂ ⊢
    exact ne_gt_trans h₁ h₂

/-! ## Numbers -/

/-- The place of a number, rounded to a double, in the total order. -/
def numberKey? : Value → Option Int
  | long n => some (Double.ofInt n.toInt).totalKey
  | double x => some x.totalKey
  | _ => none

/-- Every number has a place in the total order of doubles. -/
theorem numberKey?_of_typeRank {v : Value} (h : v.typeRank = 1) : ∃ k, v.numberKey? = some k := by
  cases v <;> simp [typeRank, type, numberKey?] at h ⊢

/-- Whether a number is an integer. -/
def IsLong (v : Value) : Prop := ∃ n, v = long n

/-- Numbers are ordered by their places, except for two integers. -/
theorem naturalOrder_eq_compare {a b : Value} {j k : Int} (ha : a.numberKey? = some j)
    (hb : b.numberKey? = some k) (hlong : ¬ (a.IsLong ∧ b.IsLong)) :
    a.naturalOrder b = compare j k := by
  cases a <;> simp only [numberKey?, reduceCtorEq, Option.some.injEq] at ha <;>
    cases b <;> simp only [numberKey?, reduceCtorEq, Option.some.injEq] at hb <;> subst ha hb
  · exact absurd ⟨⟨_, rfl⟩, ⟨_, rfl⟩⟩ hlong
  all_goals rfl

/-- A number that is not greater has no greater place. -/
theorem numberKey_le {a b : Value} {j k : Int} (ha : a.numberKey? = some j)
    (hb : b.numberKey? = some k) (h : a.naturalOrder b ≠ .gt) : j ≤ k := by
  by_cases hlong : a.IsLong ∧ b.IsLong
  · obtain ⟨⟨m, rfl⟩, ⟨n, rfl⟩⟩ := hlong
    cases ha
    cases hb
    exact Double.totalKey_ofInt_mono (Int.compare_ne_gt.mp h)
  · rw [naturalOrder_eq_compare ha hb hlong] at h
    exact Int.compare_ne_gt.mp h

/-- Two integers, the greater one first, and between them the double that both round to. -/
def RoundTogether (a b c : Value) : Prop :=
  ∃ (m n : Int64) (x : Double), a = long m ∧ b = double x ∧ c = long n ∧ n.toInt < m.toInt ∧
    Double.ofInt m.toInt = x ∧ Double.ofInt n.toInt = x

/-- Among numbers the order is transitive but for integers that round together. -/
theorem roundTogether_of_number {a b c : Value} (ha : a.typeRank = 1) (hb : b.typeRank = 1)
    (hc : c.typeRank = 1) (h₁ : a.naturalOrder b ≠ .gt) (h₂ : b.naturalOrder c ≠ .gt)
    (h : a.naturalOrder c = .gt) : RoundTogether a b c := by
  obtain ⟨i, hi⟩ := numberKey?_of_typeRank ha
  obtain ⟨j, hj⟩ := numberKey?_of_typeRank hb
  obtain ⟨k, hk⟩ := numberKey?_of_typeRank hc
  have hij : i ≤ j := numberKey_le hi hj h₁
  have hjk : j ≤ k := numberKey_le hj hk h₂
  by_cases hlong : a.IsLong ∧ c.IsLong
  · obtain ⟨⟨m, rfl⟩, ⟨n, rfl⟩⟩ := hlong
    have hlt : n.toInt < m.toInt := Int.compare_eq_gt.mp h
    cases b <;> simp [typeRank, type] at hb
    · -- three integers compare exactly
      simp only [naturalOrder] at h₁ h₂ h
      exact absurd h (ne_gt_trans h₁ h₂)
    · -- a double between two integers that do not increase has the place of both
      next x =>
      have hki : k ≤ i := by
        cases hi
        cases hk
        exact Double.totalKey_ofInt_mono hlt.le
      have hkeys : i = j ∧ k = j := by omega
      cases hi
      cases hj
      cases hk
      exact ⟨m, n, x, rfl, rfl, rfl, hlt, Double.totalKey_injective hkeys.1,
        Double.totalKey_injective hkeys.2⟩
  · rw [naturalOrder_eq_compare hi hk hlong, Int.compare_eq_gt] at h
    omega

/-! ## The order -/

/-- The only fault of transitivity are integers that round together. -/
theorem not_trans_iff {a b c : Value} :
    (a.naturalOrder b ≠ .gt ∧ b.naturalOrder c ≠ .gt ∧ a.naturalOrder c = .gt) ↔
      RoundTogether a b c := by
  constructor
  · rintro ⟨h₁, h₂, h⟩
    have hab := typeRank_le_of_ne_gt h₁
    have hbc := typeRank_le_of_ne_gt h₂
    by_cases hac : a.typeRank = c.typeRank
    · by_cases hnumber : b.typeRank = 1
      · exact roundTogether_of_number (by omega) hnumber (by omega) h₁ h₂ h
      · exact absurd h
          (naturalOrder_trans_of_not_number (by omega) (by omega) hnumber h₁ h₂)
    · -- between groups the order is that of the ranks
      rw [naturalOrder_of_typeRank_ne hac, Nat.compare_eq_gt] at h
      omega
  · rintro ⟨m, n, x, rfl, rfl, rfl, hlt, hm, hn⟩
    have hmx : (long m).naturalOrder (double x) = .eq := by
      simp [naturalOrder, hm, Double.compareTotal]
    have hxn : (double x).naturalOrder (long n) = .eq := by
      simp [naturalOrder, hn, Double.compareTotal]
    exact ⟨by simp [hmx], by simp [hxn], Int.compare_eq_gt.mpr hlt⟩

/-- **The order of all values is a total preorder but for integers that round together.** Every value
equals itself, the order of two values turns around with them, and it is transitive on three values
unless they are two integers, the greater one first, with the double between them that both round
to. -/
theorem naturalOrder_total_preorder_iff (a b c : Value) :
    a.naturalOrder a = .eq ∧ b.naturalOrder a = (a.naturalOrder b).swap ∧
      ((a.naturalOrder b ≠ .gt → b.naturalOrder c ≠ .gt → a.naturalOrder c ≠ .gt) ↔
        ¬ RoundTogether a b c) := by
  refine ⟨naturalOrder_self a, naturalOrder_swap a b, ?_⟩
  rw [← not_trans_iff]
  tauto

/-- Two integers beyond the doubles that hold every integer, and the double that both round to. -/
theorem naturalOrder_not_transitive :
    (long 9007199254740993).naturalOrder (double ⟨0x4340000000000000⟩) = .eq ∧
      (double ⟨0x4340000000000000⟩).naturalOrder (long 9007199254740992) = .eq ∧
      (long 9007199254740993).naturalOrder (long 9007199254740992) = .gt := by
  decide +kernel

end Value

end ContentQuery
