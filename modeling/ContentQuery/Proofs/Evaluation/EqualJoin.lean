import ContentQuery.Proofs.Evaluation.AnyValue
import ContentQuery.Proofs.Value.Alike

/-! # Joins on equal values, the other way round

A join on equal values brings the values of the second property to the types of those of the first
one. If each value of the one property has a type that is alike to that of each value of the other,
the equality of two values does not depend on which of them is brought to the type of the other, so
neither does the join. Values of any other two types are joined in one direction only in some tree.
-/

namespace ContentQuery.Context

open Naming

variable {ctx : Context} {tuple : NodeTuple}

/-! ## Pairs of values -/

/-- Comparisons that do not fail are satisfied by a value for which the operator holds. -/
theorem anyValue_eq_ok {operator : Operator} {fixed : Value} {vs : List Value} {holds : Value → Bool}
    (h : ∀ v ∈ vs, v.satisfies ctx.names operator fixed = .ok (holds v)) :
    ctx.anyValue operator fixed vs = .ok (.ofBool (vs.any holds)) := by
  induction vs with
  | nil => rfl
  | cons v vs ih =>
    rw [List.forall_mem_cons] at h
    rw [anyValue, h.1, List.any_cons]
    cases hv : holds v with
    | false => exact ih h.2
    | true => rfl

/-- If no comparison fails, a pair of equal values is looked for among all pairs. -/
theorem anyPair_eq_ok {vs ws : List Value} {equal : Value → Value → Bool}
    (h : ∀ v ∈ vs, ∀ w ∈ ws, v.satisfies ctx.names .equalTo w = .ok (equal v w)) :
    ctx.anyPair vs ws = .ok (.ofBool (ws.any fun w => vs.any fun v => equal v w)) := by
  induction ws with
  | nil => rfl
  | cons w ws ih =>
    rw [anyPair, anyValue_eq_ok fun v hv => h v hv w (List.mem_cons_self ..), List.any_cons]
    cases vs.any fun v => equal v w with
    | false => exact ih fun v hv u hu => h v hv u (List.mem_cons_of_mem w hu)
    | true => rfl

theorem anyPair_singleton {v w : Value} {b : Bool}
    (h : v.satisfies ctx.names .equalTo w = .ok b) :
    ctx.anyPair [v] [w] = .ok (.ofBool b) := by
  rw [anyPair, anyValue, h]
  cases b <;> rfl

/-- The pairs of values of alike types have one verdict in both directions. -/
theorem anyPair_symm_of_alike (ctx : Context) {vs ws : List Value}
    (h : ∀ v ∈ vs, ∀ w ∈ ws, v.type.Alike w.type) :
    ∃ verdict, ctx.anyPair vs ws = .ok verdict ∧ ctx.anyPair ws vs = .ok verdict := by
  let equal (v w : Value) : Bool := v.satisfies ctx.names .equalTo w = .ok true
  -- no comparison fails, and both directions agree on each pair
  have hequal : ∀ v ∈ vs, ∀ w ∈ ws, v.satisfies ctx.names .equalTo w = .ok (equal v w) ∧
      w.satisfies ctx.names .equalTo v = .ok (equal v w) := by
    intro v hv w hw
    obtain ⟨b, hvw, hwv⟩ := Value.equalTo_symm_of_alike ctx.names (h v hv w hw)
    have hb : equal v w = b := by cases b <;> simp [equal, hvw]
    exact ⟨hb ▸ hvw, hb ▸ hwv⟩
  have hleft := anyPair_eq_ok fun v hv w hw => (hequal v hv w hw).1
  have hright := anyPair_eq_ok fun w hw v hv => (hequal v hv w hw).2
  refine ⟨_, hleft, hright.trans (congrArg (Except.ok ∘ Verdict.ofBool) ?_)⟩
  rw [Bool.eq_iff_iff]
  simp only [List.any_eq_true]
  tauto

/-! ## Joins -/

section Joins

variable {s₁ s₂ : SelectorName} {p₁ p₂ : Name} {n₁ n₂ : NodeId} {vs ws : List Value}

/-- A join on equal values looks at the pairs of values. -/
theorem joinVerdict_equal (hs₁ : tuple.node? s₁ = some n₁) (hs₂ : tuple.node? s₂ = some n₂)
    (hvs : ctx.tree.propertyValues n₁ p₁ = .ok vs) (hws : ctx.tree.propertyValues n₂ p₂ = .ok ws) :
    ctx.joinVerdict tuple (.equal s₁ p₁ s₂ p₂) = ctx.policy.settle (ctx.anyPair vs ws) := by
  have hread : ∀ {s : SelectorName} {p : Name} {n : NodeId} {us : List Value},
      tuple.node? s = some n → ctx.tree.propertyValues n p = .ok us →
        ctx.propertyValues tuple ⟨s, some p⟩ = .ok us := by
    intro s p n us hs hus
    rw [propertyValues, bound_eq_ok hs]
    exact mapError_eq_ok_iff.mpr hus
  rw [joinVerdict, equalJoin, hread hs₁ hvs, hread hs₂ hws]
  rfl

/-- With values of alike types a join and the one the other way round have one verdict. -/
theorem joinVerdict_equal_of_alike (hs₁ : tuple.node? s₁ = some n₁) (hs₂ : tuple.node? s₂ = some n₂)
    (hvs : ctx.tree.propertyValues n₁ p₁ = .ok vs) (hws : ctx.tree.propertyValues n₂ p₂ = .ok ws)
    (h : ∀ v ∈ vs, ∀ w ∈ ws, v.type.Alike w.type) :
    ∃ verdict, ctx.joinVerdict tuple (.equal s₁ p₁ s₂ p₂) = .ok verdict ∧
      ctx.joinVerdict tuple (.equal s₂ p₂ s₁ p₁) = .ok verdict := by
  obtain ⟨verdict, hleft, hright⟩ := anyPair_symm_of_alike ctx h
  refine ⟨verdict, ?_, ?_⟩
  · rw [joinVerdict_equal hs₁ hs₂ hvs hws, hleft]
    rfl
  · rw [joinVerdict_equal hs₂ hs₁ hws hvs, hright]
    rfl

end Joins

/-- The nodes `/a` and `/b` with values each. -/
def pairTree (vs ws : List Value) : Tree where
  nodes := #[
    ⟨.empty, none, [1, 2], ⟨[]⟩, false⟩, ⟨⟨"", "a"⟩, some 0, [], ⟨[(⟨"", "p"⟩, vs)]⟩, false⟩,
    ⟨⟨"", "b"⟩, some 0, [], ⟨[(⟨"", "q"⟩, ws)]⟩, false⟩]

theorem reachable_pairTree (vs ws : List Value) : Tree.Reachable (pairTree vs ws) := by
  have ha := Tree.Reachable.empty.addPath
    (show Tree.empty.addPath ⟨true, [.named ⟨"", "a"⟩ 1]⟩ = .ok (_, 1) from rfl)
  have hp := ha.setProperty (show Tree.setProperty _ 1 ⟨"", "p"⟩ vs = .ok _ from rfl)
  have hb := hp.addPath (show Tree.addPath _ ⟨true, [.named ⟨"", "b"⟩ 1]⟩ = .ok (_, 2) from rfl)
  exact hb.setProperty (show Tree.setProperty _ 2 ⟨"", "q"⟩ ws = .ok (pairTree vs ws) from rfl)

/-- Both nodes of such a tree. -/
def pairTuple : NodeTuple := ⟨[(⟨"s"⟩, some 1), (⟨"t"⟩, some 2)]⟩

/-- The join of the two values. -/
def pairJoin : JoinCondition := .equal ⟨"s"⟩ ⟨"", "p"⟩ ⟨"t"⟩ ⟨"", "q"⟩

/-- The same join the other way round. -/
def pairJoinBack : JoinCondition := .equal ⟨"t"⟩ ⟨"", "q"⟩ ⟨"s"⟩ ⟨"", "p"⟩

/-- The joins of two values compare each of them with the other. -/
theorem joinVerdict_pairTree {v w : Value} {b b' : Bool}
    (h : v.satisfies .standard .equalTo w = .ok b) (h' : w.satisfies .standard .equalTo v = .ok b') :
    (ofTree (pairTree [v] [w])).joinVerdict pairTuple pairJoin = .ok (.ofBool b) ∧
      (ofTree (pairTree [v] [w])).joinVerdict pairTuple pairJoinBack = .ok (.ofBool b') := by
  have hv : (ofTree (pairTree [v] [w])).tree.propertyValues 1 ⟨"", "p"⟩ = .ok [v] := rfl
  have hw : (ofTree (pairTree [v] [w])).tree.propertyValues 2 ⟨"", "q"⟩ = .ok [w] := rfl
  have hpair : (ofTree (pairTree [v] [w])).anyPair [v] [w] = .ok (.ofBool b) := anyPair_singleton h
  have hback : (ofTree (pairTree [v] [w])).anyPair [w] [v] = .ok (.ofBool b') := anyPair_singleton h'
  constructor
  · rw [pairJoin, joinVerdict_equal rfl rfl hv hw, hpair]
    rfl
  · rw [pairJoinBack, joinVerdict_equal rfl rfl hw hv, hback]
    rfl

/-- **Joins on equal values are symmetric for alike types, and only for these.** If two properties hold
values such that each of the one has a type alike to that of each of the other, their join and the
one the other way round have the same verdict. For any other two types there are two values of them
whose join is satisfied in one direction and not in the other one. -/
theorem joinVerdict_equal_symm_alike :
    (∀ (ctx : Context) (tuple : NodeTuple) (s₁ s₂ : SelectorName) (p₁ p₂ : Name) (n₁ n₂ : NodeId)
      (vs ws : List Value), tuple.node? s₁ = some n₁ → tuple.node? s₂ = some n₂ →
      ctx.tree.propertyValues n₁ p₁ = .ok vs → ctx.tree.propertyValues n₂ p₂ = .ok ws →
      (∀ v ∈ vs, ∀ w ∈ ws, v.type.Alike w.type) →
      ∃ verdict, ctx.joinVerdict tuple (.equal s₁ p₁ s₂ p₂) = .ok verdict ∧
        ctx.joinVerdict tuple (.equal s₂ p₂ s₁ p₁) = .ok verdict) ∧
    ∀ σ τ : PropertyType, ¬ σ.Alike τ → ∃ v w : Value, v.type = σ ∧ w.type = τ ∧
      Tree.Reachable (pairTree [v] [w]) ∧ ∃ first second : Bool, first ≠ second ∧
        (ofTree (pairTree [v] [w])).joinVerdict pairTuple pairJoin = .ok (.ofBool first) ∧
          (ofTree (pairTree [v] [w])).joinVerdict pairTuple pairJoinBack = .ok (.ofBool second) := by
  constructor
  · intro ctx tuple s₁ s₂ p₁ p₂ n₁ n₂ vs ws hs₁ hs₂ hvs hws h
    exact joinVerdict_equal_of_alike hs₁ hs₂ hvs hws h
  -- for any other two types the table has a pair that compares one way only
  · intro σ τ h
    obtain ⟨⟨v, w⟩, hmem, htypes⟩ := Value.exists_oneWayPair h
    obtain ⟨hequal, hnot⟩ := Value.oneWayPairs_equal _ hmem
    rcases htypes with ⟨hv, hw⟩ | ⟨hv, hw⟩
    · exact ⟨v, w, hv, hw, reachable_pairTree [v] [w], true, false, by decide,
        joinVerdict_pairTree hequal hnot⟩
    · exact ⟨w, v, hw, hv, reachable_pairTree [w] [v], false, true, by decide,
        joinVerdict_pairTree hnot hequal⟩

/-- A number and a truth value are joined with a number in both directions, and bytes that are no
text with a text in one. -/
theorem joinVerdict_equal_symm_numbers :
    let ctx := ofTree (pairTree [.boolean true, .long 5] [.double ⟨0x4014000000000000⟩])
    (∃ verdict, ctx.joinVerdict pairTuple pairJoin = .ok verdict ∧
      ctx.joinVerdict pairTuple pairJoinBack = .ok verdict) ∧
    ctx.joinVerdict pairTuple pairJoinBack = .ok .satisfied ∧
    ∃ v w : Value, v.type = .binary ∧ w.type = .string ∧ Tree.Reachable (pairTree [v] [w]) ∧
      ∃ first second : Bool, first ≠ second ∧
        (ofTree (pairTree [v] [w])).joinVerdict pairTuple pairJoin = .ok (.ofBool first) ∧
          (ofTree (pairTree [v] [w])).joinVerdict pairTuple pairJoinBack = .ok (.ofBool second) := by
  intro ctx
  exact ⟨joinVerdict_equal_symm_alike.1 ctx pairTuple ⟨"s"⟩ ⟨"t"⟩ ⟨"", "p"⟩ ⟨"", "q"⟩ 1 2
      [.boolean true, .long 5] [.double ⟨0x4014000000000000⟩] rfl rfl rfl rfl (by decide +kernel),
    by decide +kernel, joinVerdict_equal_symm_alike.2 .binary .string (by decide +kernel)⟩

/-- The integer five is equal to the text `5.0`, but the text is not equal to what the integer is
written as. -/
theorem joinVerdict_equal_not_symm :
    ¬ ∀ (ctx : Context) (tuple : NodeTuple) (s₁ s₂ : SelectorName) (p₁ p₂ : Name) (n₁ n₂ : NodeId),
      Tree.Reachable ctx.tree → tuple.node? s₁ = some n₁ → tuple.node? s₂ = some n₂ →
      n₁ < ctx.tree.size → n₂ < ctx.tree.size →
      (ctx.joinVerdict tuple (.equal s₁ p₁ s₂ p₂) = .ok .satisfied ↔
        ctx.joinVerdict tuple (.equal s₂ p₂ s₁ p₁) = .ok .satisfied) := by
  intro h
  obtain ⟨hthere, hback⟩ := joinVerdict_pairTree
    (show (Value.long 5).satisfies .standard .equalTo (.string "5.0") = .ok true by decide +kernel)
    (show (Value.string "5.0").satisfies .standard .equalTo (.long 5) = .ok false by decide +kernel)
  have hiff := h (ofTree (pairTree [.long 5] [.string "5.0"])) pairTuple ⟨"s"⟩ ⟨"t"⟩ ⟨"", "p"⟩
    ⟨"", "q"⟩ 1 2 (reachable_pairTree _ _) rfl rfl (by decide) (by decide)
  rw [← pairJoin, ← pairJoinBack, hthere, hback] at hiff
  exact absurd (hiff.mp rfl) (by decide)

end ContentQuery.Context
