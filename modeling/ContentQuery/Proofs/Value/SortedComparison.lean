import ContentQuery.Proofs.Value.NaturalOrder

/-! # Comparisons along the sort order

A fixed value is compared with the values of one type in one of three ways: with none of them, like a
value of their type, which it is brought to, or as a number with numbers. In each way a greater value
never compares less: the order of a type is transitive, and the total order of doubles refines that
of the numbers. The numbers are moreover in the middle of the total order and what is no number at
both ends. So among values of one type in sorted order, those less than a fixed value, equal to it
and greater follow each other as three blocks.
-/

namespace ContentQuery

open Naming Number

/-! ## Outcomes -/

/-- The outcomes of a comparison in order: less, equal, greater. -/
def outcomeRank : Ordering → ℕ
  | .lt => 0
  | .eq => 1
  | .gt => 2

theorem outcomeRank_le_two (o : Ordering) : outcomeRank o ≤ 2 := by cases o <;> decide

/-- The rank tells the outcome. -/
theorem outcomeRank_injective : Function.Injective outcomeRank := by
  intro x y h
  cases x <;> cases y <;> first | rfl | cases h

/-- Compared with one thing, the lower of two has no higher outcome. -/
theorem outcomeRank_mono {α : Type} (cmp : α → α → Ordering) [Std.TransCmp cmp] {a b k : α}
    (h : cmp a b ≠ .gt) : outcomeRank (cmp a k) ≤ outcomeRank (cmp b k) := by
  cases hb : cmp b k with
  | lt =>
    have ha : cmp a k = .lt :=
      Std.TransCmp.lt_of_isLE_of_lt (Ordering.ne_gt_iff_isLE.mp h) hb
    rw [ha]
  | eq =>
    have ha : cmp a k ≠ .gt := ne_gt_trans h (by simp [hb])
    cases hak : cmp a k with
    | gt => exact absurd hak ha
    | lt | eq => decide
  | gt => exact outcomeRank_le_two _

/-! ## Doubles -/

namespace Number.Double

/-- The total order refines that of the numbers. -/
theorem orderKey_mono {x y : Double} (h : x.totalKey ≤ y.totalKey) : x.orderKey ≤ y.orderKey := by
  unfold totalKey at h
  unfold orderKey
  split at h <;> split at h <;> simp_all
  all_goals omega

/-- The numbers are in the middle of the total order. -/
theorem isNaN_eq_false_iff {x : Double} : x.isNaN = false ↔
    -(infinityPattern : ℤ) - 1 ≤ x.totalKey ∧ x.totalKey ≤ infinityPattern := by
  unfold isNaN totalKey
  rw [decide_eq_false_iff_not]
  split <;> omega

/-- Two numbers compare by their places. -/
theorem compare?_eq_some_iff {x y : Double} {o : Ordering} : x.compare? y = some o ↔
    (x.isNaN = false ∧ y.isNaN = false) ∧ compare x.orderKey y.orderKey = o := by
  unfold compare?
  cases x.isNaN <;> cases y.isNaN <;> simp

end Number.Double

namespace Value

/-! ## One type -/

/-- The order of the values of one type is transitive. -/
theorem naturalOrder_trans_of_type {a b c : Value} (hab : a.type = b.type)
    (h₁ : a.naturalOrder b ≠ .gt) (h₂ : b.naturalOrder c ≠ .gt) : a.naturalOrder c ≠ .gt := by
  intro h
  obtain ⟨m, n, x, rfl, rfl, -⟩ := not_trans_iff.mp ⟨h₁, h₂, h⟩
  cases hab

/-- The values of one type. -/
abbrev OfType (τ : PropertyType) : Type := { v : Value // v.type = τ }

/-- The order of the values of one type. -/
def compareOfType {τ : PropertyType} (a b : OfType τ) : Ordering := a.val.naturalOrder b.val

instance {τ : PropertyType} : Std.TransCmp (compareOfType (τ := τ)) where
  eq_swap {a b} := naturalOrder_swap b.val a.val
  isLE_trans {a b c} hab hbc := by
    rw [← Ordering.ne_gt_iff_isLE] at *
    exact naturalOrder_trans_of_type (a.property.trans b.property.symm) hab hbc

/-- How a fixed value is compared with the values of a type. -/
inductive Meets (names : Registry) (f : Value) (τ : PropertyType) : Prop
  /-- It is compared with none of them. -/
  | never (h : ∀ v : OfType τ, ∀ o, compareValues names v.val f ≠ .ok (some o))
  /-- It is brought to their type. -/
  | asValue (w : OfType τ)
      (h : ∀ v : OfType τ, compareValues names v.val f = .ok (some (compareOfType v w)))
  /-- It is brought to a number, and so are they. -/
  | asNumber (x : Double) (h : ∀ v : OfType τ, ∃ y : Double,
      v.val.numberKey? = some y.totalKey ∧ compareValues names v.val f = .ok (y.compare? x))

section Meets

variable {names : Registry} {f : Value} {τ : PropertyType}

/-- A value that is brought to their type, if it can be, is compared with the values as one of
them. -/
theorem Meets.of_converted (w : Except ResolveError (Option (OfType τ)))
    (h : ∀ v : OfType τ, compareValues names v.val f = w.map (Option.map (compareOfType v))) :
    Meets names f τ := by
  cases w with
  | error e => exact .never fun v o ho => by simp [h, Except.map] at ho
  | ok w =>
    cases w with
    | none => exact .never fun v o ho => by simp [h, Except.map] at ho
    | some w => exact .asValue w h

/-- A value that offers a number is compared as one, and any other with no number. -/
theorem Meets.of_numeric (h : ∀ v : OfType τ, ∃ y : Double, v.val.numberKey? = some y.totalKey ∧
    compareValues names v.val f = .ok (f.numeric?.bind y.compare?)) : Meets names f τ := by
  cases hf : f.numeric? with
  | none =>
    refine .never fun v o ho => ?_
    obtain ⟨y, -, hy⟩ := h v
    simp [hy, hf] at ho
  | some x =>
    refine .asNumber x fun v => ?_
    obtain ⟨y, hkey, hy⟩ := h v
    exact ⟨y, hkey, by rw [hy, hf]; rfl⟩

/-- The text a fixed value offers to a comparison of texts. -/
def offeredText? (names : Registry) (f : Value) : Except ResolveError (Option String) :=
  match f with
  | name _ | path _ => (f.lexical names).map some
  | _ => .ok f.lexicalForm?

/-- A text is compared with the text that is offered, if there is one. -/
theorem compareText_eq_map (names : Registry) (s : String) (f : Value) :
    compareText names s f = (offeredText? names f).map (Option.map (compare s)) := by
  cases f with
  | name n =>
    simp only [compareText, offeredText?]
    cases lexical names (name n) <;> rfl
  | path p =>
    simp only [compareText, offeredText?]
    cases lexical names (path p) <;> rfl
  | _ => rfl

/-- Texts are compared with the text of the fixed value. -/
theorem Meets.of_text (text : String → OfType τ)
    (h : ∀ v : OfType τ, ∃ s, compareValues names v.val f = compareText names s f ∧
      ∀ s', compareOfType v (text s') = compare s s') : Meets names f τ := by
  refine .of_converted ((offeredText? names f).map (Option.map text)) fun v => ?_
  obtain ⟨s, hs, hcompare⟩ := h v
  have hfun : compareOfType v ∘ text = compare s := funext hcompare
  rw [hs, compareText_eq_map]
  cases offeredText? names f with
  | error e => rfl
  | ok offered => simp [Except.map, hfun]

/-- Values of one type are compared in its order, but for doubles, among which some are no numbers. -/
theorem compareValues_of_type_eq {v : Value} (htype : f.type = v.type) (hdouble : v.type ≠ .double) :
    compareValues names v f = .ok (some (v.naturalOrder f)) := by
  cases v <;> cases f <;> cases htype <;> first | exact absurd rfl hdouble | rfl

/-- A value of their type is compared with the values as it is. -/
theorem meets_of_type_eq (htype : f.type = τ) (hdouble : τ ≠ .double) : Meets names f τ :=
  .asValue ⟨f, htype⟩ fun v =>
    compareValues_of_type_eq (htype.trans v.property.symm) (by rwa [v.property])

/-- Strings and references are compared with the texts of all values. -/
theorem meets_text (hτ : τ = .string ∨ τ = .reference) : Meets names f τ := by
  rcases hτ with rfl | rfl
  · refine .of_text (fun s => ⟨string s, rfl⟩) ?_
    rintro ⟨v, hv⟩
    cases v <;> cases hv
    exact ⟨_, rfl, fun _ => rfl⟩
  · refine .of_text (fun s => ⟨reference s, rfl⟩) ?_
    rintro ⟨v, hv⟩
    cases v <;> cases hv
    exact ⟨_, rfl, fun _ => rfl⟩

/-- Longs are compared exactly with longs. Apart from that numbers are compared as doubles. -/
theorem meets_number (hτ : τ = .long ∨ τ = .double) : Meets names f τ := by
  rcases hτ with rfl | rfl
  · by_cases hlong : f.type = .long
    · exact meets_of_type_eq hlong (by decide)
    · refine .of_numeric ?_
      rintro ⟨v, hv⟩
      cases v <;> cases hv
      refine ⟨_, rfl, ?_⟩
      cases f <;> first | rfl | exact absurd rfl hlong
  · refine .of_numeric ?_
    rintro ⟨v, hv⟩
    cases v <;> cases hv
    exact ⟨_, rfl, rfl⟩

/-- With dates and booleans those values are compared that can be converted. -/
theorem meets_converted (hτ : τ = .date ∨ τ = .boolean) : Meets names f τ := by
  rcases hτ with rfl | rfl
  · refine .of_converted (.ok (f.toDate?.map fun t => ⟨date t, rfl⟩)) ?_
    rintro ⟨v, hv⟩
    cases v <;> cases hv
    next t =>
      show Except.ok (f.toDate?.map t.compareInstant) = _
      cases f.toDate? <;> rfl
  · refine .of_converted (.ok (f.toBoolean?.map fun b => ⟨boolean b, rfl⟩)) ?_
    rintro ⟨v, hv⟩
    cases v <;> cases hv
    next b =>
      show Except.ok (f.toBoolean?.map (compare b)) = _
      cases f.toBoolean? <;> rfl

/-- With names and paths only texts that read as one are compared, besides values of the type. -/
theorem meets_name (hτ : τ = .name ∨ τ = .path) : Meets names f τ := by
  by_cases htype : f.type = τ
  · exact meets_of_type_eq htype (by rcases hτ with rfl | rfl <;> decide)
  · cases f with
    | string text =>
      rcases hτ with rfl | rfl
      · refine .of_converted ((names.readName text).map fun n => some ⟨name n, rfl⟩) ?_
        rintro ⟨v, hv⟩
        cases v <;> cases hv
        simp only [compareValues]
        cases names.readName text <;> rfl
      · refine .of_converted ((names.readPath text).map fun p => some ⟨path p, rfl⟩) ?_
        rintro ⟨v, hv⟩
        cases v <;> cases hv
        simp only [compareValues]
        cases names.readPath text <;> rfl
    | _ =>
      -- a name and a path are not compared with each other, nor is anything else with them
      refine .never ?_
      rintro ⟨v, rfl⟩ o ho
      rcases hτ with hτ | hτ <;> cases v <;> cases hτ <;>
        first | exact absurd rfl htype | cases ho

/-- Bytes are compared as they are, and other values by the bytes of their texts. -/
theorem meets_binary : Meets names f .binary := by
  by_cases htype : f.type = .binary
  · exact meets_of_type_eq htype (by decide)
  · refine .of_converted
      (.ok (f.lexicalForm?.map fun text => ⟨binary text.toUTF8.data.toList, rfl⟩)) ?_
    rintro ⟨v, hv⟩
    cases v <;> cases hv
    next bytes =>
      have hcompare : compareValues names (binary bytes) f =
          .ok (f.lexicalForm?.map fun text => compare bytes text.toUTF8.data.toList) := by
        cases f <;> first | rfl | exact absurd rfl htype
      rw [hcompare]
      cases f.lexicalForm? <;> rfl

/-- Every value meets the values of a type in one of these ways. -/
theorem meets (names : Registry) (f : Value) (τ : PropertyType) : Meets names f τ := by
  cases τ with
  | string => exact meets_text (.inl rfl)
  | reference => exact meets_text (.inr rfl)
  | long => exact meets_number (.inl rfl)
  | double => exact meets_number (.inr rfl)
  | date => exact meets_converted (.inl rfl)
  | boolean => exact meets_converted (.inr rfl)
  | name => exact meets_name (.inl rfl)
  | path => exact meets_name (.inr rfl)
  | binary => exact meets_binary

end Meets

/-! ## Two and three values of one type -/

section Sorted

variable {names : Registry} {f : Value}

/-- A value can be compared with the fixed one. -/
def Comparable (names : Registry) (f v : Value) : Prop :=
  ∃ o, compareValues names v f = .ok (some o)

/-- A greater value never compares less. -/
theorem outcomeRank_le_of_sorted {a b : Value} {x y : Ordering} (htype : a.type = b.type)
    (hab : a.naturalOrder b ≠ .gt) (hx : compareValues names a f = .ok (some x))
    (hy : compareValues names b f = .ok (some y)) : outcomeRank x ≤ outcomeRank y := by
  -- in each way the values are compared in an order that is at least as coarse
  cases meets names f b.type with
  | never h => exact absurd hy (h ⟨b, rfl⟩ y)
  | asValue w h =>
    have hax := h ⟨a, htype⟩
    have hby := h ⟨b, rfl⟩
    simp only [hx, hy, Except.ok.injEq, Option.some.injEq] at hax hby
    subst hax hby
    exact outcomeRank_mono compareOfType hab
  | asNumber k h =>
    obtain ⟨i, hi, hax⟩ := h ⟨a, htype⟩
    obtain ⟨j, hj, hby⟩ := h ⟨b, rfl⟩
    simp only [hx, hy, Except.ok.injEq] at hax hby
    obtain ⟨-, rfl⟩ := Double.compare?_eq_some_iff.mp hax.symm
    obtain ⟨-, rfl⟩ := Double.compare?_eq_some_iff.mp hby.symm
    exact outcomeRank_mono compare
      (Int.compare_ne_gt.mpr (Double.orderKey_mono (numberKey_le hi hj hab)))

/-- What is between two values that can be compared can be compared. -/
theorem comparable_between {a b c : Value} (htype : a.type = b.type) (htype' : b.type = c.type)
    (hab : a.naturalOrder b ≠ .gt) (hbc : b.naturalOrder c ≠ .gt)
    (ha : Comparable names f a) (hc : Comparable names f c) : Comparable names f b := by
  obtain ⟨x, hx⟩ := ha
  obtain ⟨z, hz⟩ := hc
  cases meets names f b.type with
  | never h => exact absurd hx (h ⟨a, htype⟩ x)
  | asValue w h => exact ⟨_, h ⟨b, rfl⟩⟩
  | asNumber k h =>
    obtain ⟨i, hi, hax⟩ := h ⟨a, htype⟩
    obtain ⟨j, hj, hby⟩ := h ⟨b, rfl⟩
    obtain ⟨l, hl, hcz⟩ := h ⟨c, htype'.symm⟩
    simp only [hx, hz, Except.ok.injEq] at hax hcz
    obtain ⟨⟨hi', hk⟩, -⟩ := Double.compare?_eq_some_iff.mp hax.symm
    obtain ⟨⟨hl', -⟩, -⟩ := Double.compare?_eq_some_iff.mp hcz.symm
    have hij := numberKey_le hi hj hab
    have hjl := numberKey_le hj hl hbc
    -- what lies between two numbers in the total order is a number
    have hj' : j.isNaN = false := by
      rw [Double.isNaN_eq_false_iff] at hi' hl' ⊢
      omega
    exact ⟨_, hby.trans (congrArg _ (Double.compare?_eq_some_iff.mpr ⟨⟨hj', hk⟩, rfl⟩))⟩

/-! ## Blocks -/

open Classical in
/-- The place of a value in the sorted order: those that cannot be compared are before or after the
others, which are placed by their outcomes. -/
noncomputable def place (names : Registry) (f v : Value) : ℕ :=
  match compareValues names v f with
  | .ok (some o) => outcomeRank o + 1
  | _ =>
    if ∃ w, v.type = w.type ∧ v.naturalOrder w ≠ .gt ∧ Comparable names f w then 0 else 4

/-- Values that can be compared have the places in the middle. -/
theorem place_of_outcome {v : Value} {o : Ordering} (h : compareValues names v f = .ok (some o)) :
    place names f v = outcomeRank o + 1 := by
  simp only [place, h]

/-- All others are in front of some that can be compared, or in front of none. -/
theorem place_of_not_comparable {v : Value} (h : ¬ Comparable names f v) :
    place names f v = 0 ∧
      (∃ w, v.type = w.type ∧ v.naturalOrder w ≠ .gt ∧ Comparable names f w) ∨
    place names f v = 4 ∧
      ¬ ∃ w, v.type = w.type ∧ v.naturalOrder w ≠ .gt ∧ Comparable names f w := by
  unfold place
  split
  · exact absurd ⟨_, ‹_›⟩ h
  · split
    · exact .inl ⟨rfl, ‹_›⟩
    · exact .inr ⟨rfl, ‹_›⟩

theorem place_le (v : Value) : place names f v ≤ 4 := by
  by_cases h : Comparable names f v
  · obtain ⟨o, ho⟩ := h
    have := outcomeRank_le_two o
    rw [place_of_outcome ho]
    omega
  · obtain ⟨h, -⟩ | ⟨h, -⟩ := place_of_not_comparable h <;> omega

/-- Exactly the values with an outcome have its place. -/
theorem place_eq_iff {v : Value} {o : Ordering} :
    place names f v = outcomeRank o + 1 ↔ compareValues names v f = .ok (some o) := by
  refine ⟨fun hplace => ?_, place_of_outcome⟩
  by_cases h : Comparable names f v
  · obtain ⟨o', ho'⟩ := h
    rw [place_of_outcome ho'] at hplace
    rw [ho', outcomeRank_injective (by omega : outcomeRank o' = outcomeRank o)]
  · have := outcomeRank_le_two o
    obtain ⟨h, -⟩ | ⟨h, -⟩ := place_of_not_comparable h <;> omega

/-- A greater value has no lower place. -/
theorem place_mono {a b : Value} (htype : a.type = b.type) (hab : a.naturalOrder b ≠ .gt) :
    place names f a ≤ place names f b := by
  by_cases ha : Comparable names f a
  -- if only the lower one can be compared, the upper one is behind all that can
  · by_cases hb : Comparable names f b
    · obtain ⟨x, hx⟩ := ha
      obtain ⟨y, hy⟩ := hb
      rw [place_of_outcome hx, place_of_outcome hy]
      exact Nat.succ_le_succ (outcomeRank_le_of_sorted htype hab hx hy)
    · obtain ⟨-, w, hw, hbw, hcomparable⟩ | ⟨h, -⟩ := place_of_not_comparable hb
      · exact absurd (comparable_between htype hw hab hbw ha hcomparable) hb
      · exact (place_le a).trans h.ge
  -- if the lower one cannot, it is in front of them, or the upper one is behind them as well
  · obtain ⟨h, -⟩ | ⟨-, hnone⟩ := place_of_not_comparable ha
    · omega
    · by_cases hb : Comparable names f b
      · exact absurd ⟨b, htype, hab, hb⟩ hnone
      · obtain ⟨-, w, hw, hbw, hcomparable⟩ | ⟨h, -⟩ := place_of_not_comparable hb
        · exact absurd ⟨w, htype.trans hw, naturalOrder_trans_of_type htype hab hbw, hcomparable⟩
            hnone
        · exact (place_le a).trans h.ge

/-- In a list with rising places each place is a block. -/
theorem filter_le_succ {α : Type} {place : α → ℕ} (k : ℕ) {vs : List α}
    (h : vs.Pairwise fun a b => place a ≤ place b) :
    vs.filter (place · ≤ k + 1) = vs.filter (place · ≤ k) ++ vs.filter (place · = k + 1) := by
  induction h with
  | nil => rfl
  | @cons a vs hle _ ih =>
    by_cases hlow : place a ≤ k
    · have hne : place a ≠ k + 1 := by omega
      have hlow' : place a ≤ k + 1 := by omega
      simp [hlow, hne, hlow', ih]
    · -- from the first value of the block on, none is before it
      have hnone : vs.filter (place · ≤ k) = [] :=
        List.filter_eq_nil_iff.mpr fun b hb => by have := hle b hb; simp; omega
      rw [hnone, List.nil_append] at ih
      by_cases heq : place a = k + 1
      · simp [heq, hnone, ih]
      · have hhigh : ¬ place a ≤ k + 1 := by omega
        simp [hlow, heq, hhigh, hnone, ih]

/-- An operator that is decided by order holds for the values with a suitable outcome. -/
theorem satisfies_iff {op : Operator} (hop : op ≠ .like) {v : Value} :
    v.satisfies names op f = .ok true ↔
      ∃ o, compareValues names v f = .ok (some o) ∧ op.holds o = true := by
  cases op <;> first | exact absurd rfl hop | skip
  all_goals
    simp only [satisfies]
    rcases compareValues names v f with e | _ | o
    all_goals simp [bind, Except.bind, pure, Except.pure]

/-- Whether an operator holds between a value and the fixed one. -/
def holdsFor (names : Registry) (f : Value) (op : Operator) (v : Value) : Bool :=
  v.satisfies names op f = .ok true

/-- The values for which an operator that allows one outcome holds are those in its place. -/
theorem filter_holdsFor {op : Operator} {o : Ordering} (hop : op ≠ .like)
    (h : ∀ o', op.holds o' = true ↔ o' = o) (vs : List Value) :
    vs.filter (holdsFor names f op) = vs.filter (place names f · = outcomeRank o + 1) := by
  refine List.filter_congr fun v _ => ?_
  rw [holdsFor, decide_eq_decide, satisfies_iff hop, place_eq_iff]
  simp [h]

/-- Sorted values of one type in blocks. -/
theorem blocks {vs : List Value} {τ : PropertyType} (htype : ∀ v ∈ vs, v.type = τ)
    (hsorted : vs.Pairwise fun a b => a.naturalOrder b ≠ .gt) :
    ∃ before after, vs = before ++ vs.filter (holdsFor names f .lessThan) ++
      vs.filter (holdsFor names f .equalTo) ++ vs.filter (holdsFor names f .greaterThan) ++ after := by
  have hplaces : vs.Pairwise fun a b => place names f a ≤ place names f b :=
    hsorted.imp_of_mem fun ha hb hab => place_mono ((htype _ ha).trans (htype _ hb).symm) hab
  refine ⟨vs.filter (place names f · ≤ 0), vs.filter (place names f · = 4), ?_⟩
  calc vs = vs.filter (place names f · ≤ 4) :=
        (List.filter_eq_self.mpr fun v _ => decide_eq_true (place_le v)).symm
    _ = _ := by
        rw [filter_le_succ 3 hplaces, filter_le_succ 2 hplaces, filter_le_succ 1 hplaces,
          filter_le_succ 0 hplaces,
          filter_holdsFor (o := .lt) (by decide) (by intro o; cases o <;> decide),
          filter_holdsFor (o := .eq) (by decide) (by intro o; cases o <;> decide),
          filter_holdsFor (o := .gt) (by decide) (by intro o; cases o <;> decide)]
        rfl

/-- **Comparisons respect the sort order.** Of two values of one type the greater never compares
less with a fixed value. So among values of one type in sorted order those less than the fixed value,
those equal to it and those greater are consecutive blocks, before and after which there are only
values that cannot be compared with it. -/
theorem compareValues_sorted (names : Registry) (f : Value) :
    (∀ (a b : Value) (x y : Ordering), a.type = b.type → a.naturalOrder b ≠ .gt →
      compareValues names a f = .ok (some x) → compareValues names b f = .ok (some y) →
      outcomeRank x ≤ outcomeRank y) ∧
    ∀ (vs : List Value) (τ : PropertyType), (∀ v ∈ vs, v.type = τ) →
      vs.Pairwise (fun a b => a.naturalOrder b ≠ .gt) →
      ∃ before after, vs = before ++ vs.filter (holdsFor names f .lessThan) ++
        vs.filter (holdsFor names f .equalTo) ++ vs.filter (holdsFor names f .greaterThan) ++
          after :=
  ⟨fun _ _ _ _ => outcomeRank_le_of_sorted, fun _ _ => blocks⟩

/-- Doubles in sorted order: a negative NaN, minus one, both zeros, one and a NaN. -/
def doublesAroundZero : List Value :=
  [double ⟨0xFFF8000000000000⟩, double ⟨0xBFF0000000000000⟩, double ⟨0x8000000000000000⟩,
    double ⟨0⟩, double ⟨0x3FF0000000000000⟩, double ⟨0x7FF8000000000000⟩]

/-- Around zero, given as a text, the doubles fall in blocks with a NaN at both ends, and the two
zeros, which the sort order tells apart, are in one block. -/
theorem doublesAroundZero_sorted :
    (outcomeRank .lt ≤ outcomeRank .eq ∧
      (double ⟨0xBFF0000000000000⟩).naturalOrder (double ⟨0⟩) ≠ .gt ∧
      compareValues .standard (double ⟨0xBFF0000000000000⟩) (string "0") = .ok (some .lt) ∧
      compareValues .standard (double ⟨0⟩) (string "0") = .ok (some .eq)) ∧
    (∃ before after, doublesAroundZero =
      before ++ doublesAroundZero.filter (holdsFor .standard (string "0") .lessThan) ++
        doublesAroundZero.filter (holdsFor .standard (string "0") .equalTo) ++
          doublesAroundZero.filter (holdsFor .standard (string "0") .greaterThan) ++ after) ∧
    doublesAroundZero.filter (holdsFor .standard (string "0") .equalTo) =
      [double ⟨0x8000000000000000⟩, double ⟨0⟩] := by
  have hminus : compareValues .standard (double ⟨0xBFF0000000000000⟩) (string "0") =
      .ok (some .lt) := by decide +kernel
  have hzero : compareValues .standard (double ⟨0⟩) (string "0") = .ok (some .eq) := by
    decide +kernel
  have hle : (double ⟨0xBFF0000000000000⟩).naturalOrder (double ⟨0⟩) ≠ .gt := by decide +kernel
  refine ⟨⟨?_, hle, hminus, hzero⟩, ?_, by decide +kernel⟩
  · exact (compareValues_sorted .standard (string "0")).1 (double ⟨0xBFF0000000000000⟩)
      (double ⟨0⟩) .lt .eq rfl hle hminus hzero
  · exact (compareValues_sorted .standard (string "0")).2 _ .double
      (by decide +kernel) (by decide +kernel)

end Sorted

end Value

end ContentQuery
