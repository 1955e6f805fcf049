import ContentQuery.Proofs.Value.NaturalOrder

/-! # Comparisons the other way round

In a comparison the fixed value is brought to the type of the found one, so the two play different
parts. Types are alike if this makes no difference: types of one kind, whose values are compared as
they are, and types neither of which takes values of the other. Compared the other way round, values
of such types have the opposite outcome, or none again. For types that are not alike there are always
two values that are equal in one direction only.
-/

namespace ContentQuery

open Naming Number Time

namespace PropertyType

/-- The found values of the first type are compared with fixed values of the second one. -/
def takes : PropertyType → PropertyType → Bool
  | string, _ | reference, _ => true
  | long, σ | double, σ => σ = long ∨ σ = double ∨ σ = string
  | date, σ => σ = date ∨ σ = string ∨ σ = long ∨ σ = double
  | boolean, σ => σ = boolean ∨ σ = string
  | name, σ => σ = name ∨ σ = string
  | path, σ => σ = path ∨ σ = string
  | binary, σ => σ ≠ name ∧ σ ≠ path

/-- The type that stands for all numbers, for all texts, or for itself. -/
def kind : PropertyType → PropertyType
  | double => long
  | reference => string
  | τ => τ

/-- The two types are of one kind, or neither takes values of the other. -/
def Alike (σ τ : PropertyType) : Prop :=
  σ.kind = τ.kind ∨ (σ.takes τ = false ∧ τ.takes σ = false)

instance (σ τ : PropertyType) : Decidable (Alike σ τ) := inferInstanceAs (Decidable (_ ∨ _))

end PropertyType

/-- Numbers swap their outcome with their places, and what is no number has none either way. -/
theorem Number.Double.compare?_swap (x y : Double) :
    y.compare? x = (x.compare? y).map Ordering.swap := by
  unfold Double.compare?
  rw [Bool.or_comm]
  split
  · rfl
  · exact congrArg some Std.OrientedOrd.eq_swap

namespace Value

variable {names : Registry} {v w : Value}

/-! ## Alike types -/

/-- What a type does not take cannot be compared with its values. -/
theorem compareValues_of_not_takes (h : v.type.takes w.type = false) :
    compareValues names v w = .ok none := by
  cases v <;> cases w <;> simp [type, PropertyType.takes] at h <;> rfl

/-- Values of one kind are compared as they are. -/
theorem compareValues_swap_of_kind (h : v.type.kind = w.type.kind) :
    ∃ o, compareValues names v w = .ok o ∧ compareValues names w v = .ok (o.map Ordering.swap) := by
  cases v <;> cases w <;> simp [type, PropertyType.kind] at h
  case long.double | double.long | double.double =>
    exact ⟨_, rfl, congrArg Except.ok (Double.compare?_swap _ _)⟩
  case date.date => exact ⟨_, rfl, congrArg (Except.ok ∘ some) Std.OrientedCmp.eq_swap⟩
  all_goals exact ⟨_, rfl, congrArg (Except.ok ∘ some) Std.OrientedOrd.eq_swap⟩

/-- Between values of alike types a comparison the other way round has the opposite outcome. -/
theorem compareValues_swap_of_alike (names : Registry) (h : v.type.Alike w.type) :
    ∃ o, compareValues names v w = .ok o ∧ compareValues names w v = .ok (o.map Ordering.swap) := by
  rcases h with h | ⟨hvw, hwv⟩
  · exact compareValues_swap_of_kind h
  · exact ⟨none, compareValues_of_not_takes hvw, compareValues_of_not_takes hwv⟩

/-- Equality of values of alike types can be decided, and is symmetric. -/
theorem equalTo_symm_of_alike (names : Registry) (h : v.type.Alike w.type) :
    ∃ b, v.satisfies names .equalTo w = .ok b ∧ w.satisfies names .equalTo v = .ok b := by
  obtain ⟨o, hvw, hwv⟩ := compareValues_swap_of_alike names h
  simp only [satisfies, hvw, hwv]
  cases o with
  | none => exact ⟨_, rfl, rfl⟩
  | some o => cases o <;> exact ⟨_, rfl, rfl⟩

/-! ## Other types -/

/-- The first instant of 1970 in UTC. -/
def epoch : DateTime := ⟨⟨1970, 1, 1, 0, 0, 0, 0, 0⟩, by decide⟩

/-- For each two types that are not alike a value that is equal to another one, which is not equal
to it: a number, a truth value, a date, a name or a path is equal to another text than its own, and
any value is equal to what is its text in another type. -/
def oneWayPairs : List (Value × Value) :=
  [(long 5, string "5.0"), (double .zero, string "0"), (boolean true, string "TRUE"),
    (date epoch, string "1970-01-01T00:00:00Z"), (name ⟨"", "a"⟩, string "{}a"),
    (path ⟨false, [.named ⟨"", "a"⟩ 1]⟩, string "a[1]"), (string "\ufffd", binary [0xFF]),
    (reference "5", long 5), (reference "0.0", double .zero), (reference "true", boolean true),
    (reference epoch.text, date epoch), (reference "a", name ⟨"", "a"⟩),
    (reference "a", path ⟨false, [.named ⟨"", "a"⟩ 1]⟩), (reference "\ufffd", binary [0xFF]),
    (date epoch, long 0), (date epoch, double .zero), (binary [0x35], long 5),
    (binary [0x30, 0x2E, 0x30], double .zero), (binary [0x74, 0x72, 0x75, 0x65], boolean true),
    (binary epoch.text.toUTF8.data.toList, date epoch)]

/-- Each pair compares equal in one direction only. -/
theorem oneWayPairs_equal : ∀ pair ∈ oneWayPairs,
    pair.1.satisfies .standard .equalTo pair.2 = .ok true ∧
      pair.2.satisfies .standard .equalTo pair.1 = .ok false := by
  decide +kernel

/-- The pairs are of all types that are not alike. -/
theorem exists_oneWayPair {σ τ : PropertyType} (h : ¬ σ.Alike τ) : ∃ pair ∈ oneWayPairs,
    (pair.1.type = σ ∧ pair.2.type = τ) ∨ (pair.1.type = τ ∧ pair.2.type = σ) := by
  revert h
  cases σ <;> cases τ <;> decide +kernel

end Value

end ContentQuery
