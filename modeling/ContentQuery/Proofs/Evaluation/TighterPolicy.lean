import ContentQuery.Proofs.Evaluation.Locality

/-! # Policies that require more

One evaluation is made under two policies of which the tighter one requires all that the looser one
requires. What a condition reads does not depend on the policy, so the two outcomes can differ in one
way only: the tighter policy refuses a selector without a node that the looser one lets pass
(`Policy.OnlyRefuses`). Sequences of evaluations keep this relation, and with it the constructors of
constraints, negation included: a refusal ends the evaluation, it never turns into a verdict.
-/

namespace ContentQuery

open Naming

namespace Policy

/-- The tighter policy requires every selector that the looser one requires. -/
def Tightens (tight loose : Policy) : Prop :=
  ∀ s, loose.isRequired s = true → tight.isRequired s = true

theorem mem_insertSelector {s t : SelectorName} {selectors : List SelectorName} :
    t ∈ insertSelector s selectors ↔ t = s ∨ t ∈ selectors := by
  induction selectors with
  | nil => simp [insertSelector]
  | cons other rest ih =>
    rw [insertSelector]
    split
    · exact List.mem_cons
    · next heq =>
      -- the selector is there already
      have hother : s = other := congrArg SelectorName.mk (Std.LawfulEqOrd.eq_of_compare heq)
      rw [hother, List.mem_cons, or_self_left]
    · rw [List.mem_cons, List.mem_cons, ih, or_left_comm]

/-- Requiring a selector requires it and no other one. -/
theorem isRequired_require (policy : Policy) (s t : SelectorName) :
    (policy.require s).isRequired t = true ↔ t = s ∨ policy.isRequired t = true := by
  simp only [isRequired, require, Bool.or_eq_true, List.contains_iff_mem, mem_insertSelector]
  exact or_left_comm

/-- Requiring one more selector makes a policy tighter. -/
theorem tightens_require (policy : Policy) (s : SelectorName) :
    (policy.require s).Tightens policy :=
  fun t ht => (isRequired_require policy s t).mpr (.inr ht)

variable {loose tight : Policy} {α β : Type}

/-- The outcome under the tighter policy is the one under the looser policy, or the refusal of a
selector that only the tighter policy requires. -/
def OnlyRefuses (loose tight : Policy) (x y : Eval α) : Prop :=
  y = x ∨ ∃ s, loose.isRequired s = false ∧ tight.isRequired s = true ∧
    y = .error (.selectorNotBound s)

/-- What a policy does not touch comes out the same under both. -/
theorem OnlyRefuses.refl (x : Eval α) : OnlyRefuses loose tight x x := .inl rfl

/-- A sequence refuses only what one of its steps refuses. -/
theorem OnlyRefuses.bind {x y : Eval α} {f g : α → Eval β} (hx : OnlyRefuses loose tight x y)
    (hf : ∀ a, OnlyRefuses loose tight (f a) (g a)) :
    OnlyRefuses loose tight (x >>= f) (y >>= g) := by
  obtain rfl | ⟨s, hloose, htight, rfl⟩ := hx
  · cases y with
    | error e => exact .refl (.error e)
    | ok a => exact hf a
  · exact .inr ⟨s, hloose, htight, rfl⟩

/-- The tighter policy's verdicts are verdicts of the looser one. -/
theorem OnlyRefuses.eq_ok {x y : Eval α} {a : α} (h : OnlyRefuses loose tight x y)
    (hy : y = .ok a) : x = .ok a := by
  obtain rfl | ⟨s, -, -, rfl⟩ := h
  · exact hy
  · cases hy

/-- Where the looser policy gives an error, the tighter one does too. -/
theorem OnlyRefuses.exists_eq_error {x y : Eval α} {e : EvalError}
    (h : OnlyRefuses loose tight x y) (hx : x = .error e) : ∃ e', y = .error e' := by
  obtain rfl | ⟨s, -, -, rfl⟩ := h
  · exact ⟨e, hx⟩
  · exact ⟨_, rfl⟩

/-- Policies settle the same result alike, but for the selectors that only the tighter one
requires. -/
theorem Tightens.onlyRefuses_settle (h : tight.Tightens loose) (result : Eval Verdict) :
    OnlyRefuses loose tight (loose.settle result) (tight.settle result) := by
  cases result with
  | ok v => exact .refl (.ok v)
  | error e =>
    cases e with
    | selectorNotBound s =>
      -- what the loose policy requires the tight one requires as well
      cases hloose : loose.isRequired s with
      | true =>
        rw [settle, settle, if_pos hloose, if_pos (h s hloose)]
        exact .refl _
      | false =>
        cases htight : tight.isRequired s with
        | true =>
          rw [settle, settle, if_neg (by simp [hloose]), if_pos htight]
          exact .inr ⟨s, hloose, htight, rfl⟩
        | false =>
          rw [settle, settle, if_neg (by simp [hloose]), if_neg (by simp [htight])]
          exact .refl _
    | _ => exact .refl _

end Policy

namespace Context

/-- The same context with another policy. -/
def withPolicy (ctx : Context) (policy : Policy) : Context := { ctx with policy := policy }

variable {ctx : Context} {tuple : NodeTuple} {loose tight : Policy}

/-! ## What does not depend on the policy -/

theorem names_withPolicy (ctx : Context) (policy : Policy) :
    (ctx.withPolicy policy).names = ctx.names :=
  rfl

/-- No operand looks at the policy. -/
theorem values_withPolicy (policy : Policy) (operand : DynamicOperand) :
    (ctx.withPolicy policy).values tuple operand = ctx.values tuple operand := by
  induction operand with
  | property operand | length operand | nodeName s | localName s | score s => rfl
  | upper operand ih | lower operand ih =>
    rw [values, ih]
    rfl

theorem equalJoin_withPolicy (policy : Policy) (left right : PropertyOperand) :
    (ctx.withPolicy policy).equalJoin tuple left right = ctx.equalJoin tuple left right := by
  have hpair : (ctx.withPolicy policy).anyPair = ctx.anyPair :=
    funext₂ (anyPair_congr (names_withPolicy ctx policy))
  rw [equalJoin, hpair]
  rfl

/-! ## Constraints and joins -/

open Policy (OnlyRefuses)

/-- The policy comes in where the comparison meets its unbound selector. -/
theorem onlyRefuses_comparison (h : tight.Tightens loose) (left : DynamicOperand)
    (operator : Operator) (right : StaticOperand) :
    OnlyRefuses loose tight ((ctx.withPolicy loose).comparison tuple left operator right)
      ((ctx.withPolicy tight).comparison tuple left operator right) := by
  have hany (policy : Policy) : (ctx.withPolicy policy).anyValue operator = ctx.anyValue operator :=
    funext₂ (anyValue_congr (names_withPolicy ctx policy) operator)
  rw [comparison, comparison, values_withPolicy, values_withPolicy, hany, hany]
  refine OnlyRefuses.bind (.refl (ctx.singleValue right)) fun found => ?_
  cases found with
  | none => exact h.onlyRefuses_settle _
  | some fixed => exact h.onlyRefuses_settle _

theorem onlyRefuses_fullText (h : tight.Tightens loose) (predicate : FullTextPredicate) :
    OnlyRefuses loose tight ((ctx.withPolicy loose).fullText tuple predicate)
      ((ctx.withPolicy tight).fullText tuple predicate) := by
  refine OnlyRefuses.bind (.refl (ctx.singleValue predicate.expression)) fun found => ?_
  cases found with
  | none => exact h.onlyRefuses_settle _
  | some v => exact OnlyRefuses.bind (.refl (ctx.lexical v)) fun _ => h.onlyRefuses_settle _

/-- The tighter policy decides a constraint as the looser one does, or refuses a selector that the
looser one lets pass. -/
theorem onlyRefuses_verdict (h : tight.Tightens loose) (c : Constraint) :
    OnlyRefuses loose tight ((ctx.withPolicy loose).verdict tuple c)
      ((ctx.withPolicy tight).verdict tuple c) := by
  -- along the constraint: a right side is read in both runs or in none
  induction c with
  | and left right ihl ihr =>
    refine OnlyRefuses.bind ihl fun v => ?_
    cases v with
    | satisfied => exact ihr
    | unsatisfied => exact .refl _
  | or left right ihl ihr =>
    refine OnlyRefuses.bind ihl fun v => ?_
    cases v with
    | satisfied => exact .refl _
    | unsatisfied => exact ihr
  | not c ih => exact OnlyRefuses.bind ih fun _ => .refl _
  | comparison left operator right => exact onlyRefuses_comparison h left operator right
  | «exists» s name => exact h.onlyRefuses_settle _
  | fullText predicate => exact onlyRefuses_fullText h predicate
  | structural relation s path => exact h.onlyRefuses_settle _

/-- A join settles once, for whichever selector it finds unbound. -/
theorem onlyRefuses_joinVerdict (h : tight.Tightens loose) (condition : JoinCondition) :
    OnlyRefuses loose tight ((ctx.withPolicy loose).joinVerdict tuple condition)
      ((ctx.withPolicy tight).joinVerdict tuple condition) := by
  cases condition with
  | equal s₁ p₁ s₂ p₂ =>
    rw [joinVerdict, joinVerdict]
    simp only [equalJoin_withPolicy]
    exact h.onlyRefuses_settle _
  | sameNode s₁ s₂ path => exact h.onlyRefuses_settle _
  | childNode child parent => exact h.onlyRefuses_settle _
  | descendantNode descendant ancestor => exact h.onlyRefuses_settle _

/-- **Requiring more never changes a verdict.** Of two policies of which the tighter one requires all
that the looser one requires, the looser one gives every verdict that the tighter one gives, on each
constraint and join condition, and where the looser one gives an error, the tighter one does too. -/
theorem verdict_eq_of_tightens (ctx : Context) (tuple : NodeTuple) (h : tight.Tightens loose) :
    (∀ c : Constraint,
      (∀ v, (ctx.withPolicy tight).verdict tuple c = .ok v →
        (ctx.withPolicy loose).verdict tuple c = .ok v) ∧
      ∀ e, (ctx.withPolicy loose).verdict tuple c = .error e →
        ∃ e', (ctx.withPolicy tight).verdict tuple c = .error e') ∧
    ∀ condition : JoinCondition,
      (∀ v, (ctx.withPolicy tight).joinVerdict tuple condition = .ok v →
        (ctx.withPolicy loose).joinVerdict tuple condition = .ok v) ∧
      ∀ e, (ctx.withPolicy loose).joinVerdict tuple condition = .error e →
        ∃ e', (ctx.withPolicy tight).joinVerdict tuple condition = .error e' := by
  constructor
  · intro c
    have hc : OnlyRefuses loose tight ((ctx.withPolicy loose).verdict tuple c)
        ((ctx.withPolicy tight).verdict tuple c) := onlyRefuses_verdict h c
    exact ⟨fun v hv => hc.eq_ok hv, fun e he => hc.exists_eq_error he⟩
  · intro condition
    have hc : OnlyRefuses loose tight ((ctx.withPolicy loose).joinVerdict tuple condition)
        ((ctx.withPolicy tight).joinVerdict tuple condition) := onlyRefuses_joinVerdict h condition
    exact ⟨fun v hv => hc.eq_ok hv, fun e he => hc.exists_eq_error he⟩

/-- The second of two selectors has no node and is required by the tighter policy only: a disjunction
that does not come to it keeps its verdict, a conjunction that does fails under both policies, with
another error each. -/
theorem verdict_eq_of_tightens_outer :
    let ctx := ofTree .empty
    let tuple : NodeTuple := ⟨[(⟨"a"⟩, some 0), (⟨"b"⟩, none)]⟩
    let tight := Policy.lenient.require ⟨"b"⟩
    let other : Constraint := .not (.structural .same ⟨"b"⟩ .root)
    let guarded : Constraint := .or (.structural .same ⟨"a"⟩ .root) other
    let broken : Constraint := .and other (.structural .same ⟨"a"⟩ ⟨true, [.parent]⟩)
    let join : JoinCondition := .sameNode ⟨"a"⟩ ⟨"a"⟩ none
    tight.Tightens .lenient ∧
      (ctx.withPolicy .lenient).verdict tuple other = .ok .satisfied ∧
      (ctx.withPolicy tight).verdict tuple other = .error (.selectorNotBound ⟨"b"⟩) ∧
      (ctx.withPolicy tight).verdict tuple guarded = .ok .satisfied ∧
      (ctx.withPolicy .lenient).verdict tuple guarded = .ok .satisfied ∧
      (ctx.withPolicy .lenient).verdict tuple broken =
        .error (.malformedPath ⟨true, [.parent]⟩) ∧
      (∃ e, (ctx.withPolicy tight).verdict tuple broken = .error e) ∧
      (ctx.withPolicy tight).joinVerdict tuple join = .ok .satisfied ∧
      (ctx.withPolicy .lenient).joinVerdict tuple join = .ok .satisfied := by
  intro ctx tuple tight other guarded broken join
  have htight : tight.Tightens .lenient := Policy.tightens_require .lenient ⟨"b"⟩
  have hguarded : (ctx.withPolicy tight).verdict tuple guarded = .ok .satisfied := by decide +kernel
  have hbroken : (ctx.withPolicy .lenient).verdict tuple broken =
      .error (.malformedPath ⟨true, [.parent]⟩) := by decide +kernel
  have hjoin : (ctx.withPolicy tight).joinVerdict tuple join = .ok .satisfied := by decide +kernel
  have h := verdict_eq_of_tightens ctx tuple htight
  exact ⟨htight, by decide +kernel, by decide +kernel, hguarded, (h.1 guarded).1 _ hguarded,
    hbroken, (h.1 broken).2 _ hbroken, hjoin, (h.2 join).1 _ hjoin⟩

end Context

end ContentQuery
