import ContentQuery.Evaluation.Verdict
import ContentQuery.Proofs.Evaluation.Operand

/-! # Conditions that lack nodes

A condition that is not made of others reads the nodes of its selectors in order, and the first one
that is missing decides: the evaluation fails with that selector if it is required, and otherwise the
condition is not satisfied. For a condition on one selector this is what the policy asks. A join reads
two, and a selector that need not be bound hides one behind it that must: the main statement is that
this is the only way in which a required selector is passed over.
-/

namespace ContentQuery

namespace NodeTuple

/-- The first of some selectors that has no node. -/
def firstUnbound? (tuple : NodeTuple) (selectors : List SelectorName) : Option SelectorName :=
  selectors.find? fun s => (tuple.node? s).isNone

/-- The nodes that a tuple binds are nodes of the tree. -/
def IsIn (tuple : NodeTuple) (t : Tree) : Prop := ∀ s n, tuple.node? s = some n → n < t.size

variable {tuple : NodeTuple} {selectors : List SelectorName} {s : SelectorName}

/-- The first unbound selector is one of them, and unbound. -/
theorem node?_of_firstUnbound? (hs : tuple.firstUnbound? selectors = some s) :
    s ∈ selectors ∧ tuple.node? s = none :=
  ⟨List.mem_of_find?_eq_some hs, by simpa using List.find?_some hs⟩

theorem node?_ne_none_of_firstUnbound? (hs : tuple.firstUnbound? selectors = none) :
    ∀ s ∈ selectors, tuple.node? s ≠ none := by
  intro s hmem hnone
  have hsome := List.find?_eq_none.mp hs s hmem
  simp [hnone] at hsome

/-- Of two selectors the first one without a node is the first, or else the second. -/
theorem firstUnbound?_pair {s₁ s₂ : SelectorName} (hs : tuple.firstUnbound? [s₁, s₂] = some s) :
    (s = s₁ ∧ tuple.node? s₁ = none) ∨
      (s = s₂ ∧ (∃ n, tuple.node? s₁ = some n) ∧ tuple.node? s₂ = none) := by
  obtain ⟨hmem, hnone⟩ := node?_of_firstUnbound? hs
  cases hfirst : tuple.node? s₁ with
  | none =>
    rw [firstUnbound?, List.find?_cons_of_pos (by simp [hfirst])] at hs
    exact .inl ⟨(Option.some.inj hs).symm, rfl⟩
  | some n =>
    rcases List.mem_pair.mp hmem with rfl | rfl
    · rw [hfirst] at hnone
      cases hnone
    · exact .inr ⟨rfl, ⟨n, rfl⟩, hnone⟩

/-- A tuple is in a tree if the nodes of its entries are. -/
theorem isIn_of_forall_entries {t : Tree} (h : ∀ entry ∈ tuple.entries, ∀ n ∈ entry.2, n < t.size) :
    tuple.IsIn t := by
  intro s n hn
  obtain ⟨before, after, hentries, -⟩ := List.lookup_eq_some_iff.mp (Option.join_eq_some_iff.mp hn)
  exact h (s, some n) (by simp [hentries]) n rfl

end NodeTuple

namespace Policy

/-- The selector has no node and must have one. -/
def Misses (policy : Policy) (tuple : NodeTuple) (s : SelectorName) : Prop :=
  tuple.node? s = none ∧ policy.isRequired s = true

/-- What the policy asks of a condition on some selectors: to fail with a selector that it misses, if
it misses one, and otherwise not to be satisfied if one has no node. -/
structure Honours (policy : Policy) (tuple : NodeTuple) (selectors : List SelectorName)
    (result : Eval Verdict) : Prop where
  fails : (∃ s ∈ selectors, policy.Misses tuple s) →
    ∃ r ∈ selectors, policy.Misses tuple r ∧ result = .error (.selectorNotBound r)
  unsatisfied : (∃ s ∈ selectors, tuple.node? s = none) →
    (∀ s ∈ selectors, ¬ policy.Misses tuple s) → result = .ok .unsatisfied

/-- The first selector without a node need not have one, and another one must. -/
def Overlooks (policy : Policy) (tuple : NodeTuple) (selectors : List SelectorName) : Prop :=
  ∃ s, tuple.firstUnbound? selectors = some s ∧ policy.isRequired s = false ∧
    ∃ r ∈ selectors, policy.Misses tuple r

variable {policy : Policy} {tuple : NodeTuple} {selectors : List SelectorName} {s : SelectorName}

/-- Nothing is asked of a condition whose selectors are all bound. -/
theorem honours_of_bound (hs : tuple.firstUnbound? selectors = none) (result : Eval Verdict) :
    policy.Honours tuple selectors result ∧ ¬ policy.Overlooks tuple selectors := by
  have hbound := NodeTuple.node?_ne_none_of_firstUnbound? hs
  refine ⟨⟨?_, ?_⟩, ?_⟩
  · rintro ⟨s, hmem, hmisses⟩
    exact absurd hmisses.1 (hbound s hmem)
  · rintro ⟨s, hmem, hnone⟩ -
    exact absurd hnone (hbound s hmem)
  · rintro ⟨s, hfirst, -⟩
    rw [hs] at hfirst
    cases hfirst

/-- The first selector without a node decides as the policy asks, unless it hides a required one. -/
theorem honours_settle_iff (hs : tuple.firstUnbound? selectors = some s) :
    policy.Honours tuple selectors (policy.settle (.error (.selectorNotBound s))) ↔
      ¬ policy.Overlooks tuple selectors := by
  obtain ⟨hmem, hnone⟩ := NodeTuple.node?_of_firstUnbound? hs
  cases hrequired : policy.isRequired s with
  | true =>
    have hsettle : policy.settle (.error (.selectorNotBound s)) = .error (.selectorNotBound s) := by
      rw [settle, if_pos hrequired]
    have hhonours : policy.Honours tuple selectors (.error (.selectorNotBound s)) :=
      ⟨fun _ => ⟨s, hmem, ⟨hnone, hrequired⟩, rfl⟩,
        fun _ hnot => absurd ⟨hnone, hrequired⟩ (hnot s hmem)⟩
    rw [hsettle]
    refine iff_of_true hhonours ?_
    rintro ⟨s', hfirst, hoptional, -⟩
    cases hs.symm.trans hfirst
    rw [hrequired] at hoptional
    cases hoptional
  | false =>
    -- quietly unsatisfied, as it should be unless another unbound selector is required
    have hsettle : policy.settle (.error (.selectorNotBound s)) = .ok .unsatisfied := by
      rw [settle, if_neg (by simp [hrequired])]
    rw [hsettle]
    constructor
    · rintro hhonours ⟨-, -, -, hmisses⟩
      obtain ⟨r, -, -, hfails⟩ := hhonours.fails hmisses
      cases hfails
    · intro hnot
      refine ⟨fun hmisses => absurd ⟨s, hs, hrequired, hmisses⟩ hnot, fun _ _ => rfl⟩

/-- A condition on one selector overlooks none. -/
theorem not_overlooks_singleton (s : SelectorName) : ¬ policy.Overlooks tuple [s] := by
  rintro ⟨first, hfirst, hoptional, r, hr, hmisses⟩
  obtain rfl := List.mem_singleton.mp hr
  obtain rfl := List.mem_singleton.mp (NodeTuple.node?_of_firstUnbound? hfirst).1
  rw [hmisses.2] at hoptional
  cases hoptional

end Policy

namespace Context

variable {ctx : Context} {tuple : NodeTuple} {s : SelectorName}

/-! ## Conditions on one selector -/

/-- A constraint that is not made of others, and whose static operand, if it has one, gives at most
one value; for a full-text search a value that has a text. -/
def IsReadyLeaf (ctx : Context) : Constraint → Prop
  | .and .. | .or .. | .not _ => False
  | .exists .. | .structural .. => True
  | .comparison _ _ right => ∃ found, ctx.singleValue right = .ok found
  | .fullText predicate => ∃ found, ctx.singleValue predicate.expression = .ok found ∧
      ∀ v ∈ found, ∃ text, ctx.lexical v = .ok text

/-- Without the node of its selector a constraint that is not made of others is left to the policy,
once its static operand has been read. -/
theorem verdict_of_unbound {c : Constraint} (hc : ctx.IsReadyLeaf c)
    (hs : tuple.firstUnbound? c.selectors = some s) :
    c.selectors = [s] ∧ ctx.verdict tuple c = ctx.policy.settle (.error (.selectorNotBound s)) := by
  obtain ⟨hmem, hnone⟩ := NodeTuple.node?_of_firstUnbound? hs
  -- a leaf has one selector, which is read once the fixed side is known to be fine
  cases c with
  | and | or | not => exact hc.elim
  | comparison left operator right =>
    obtain rfl := List.mem_singleton.mp hmem
    obtain ⟨found, hfound⟩ := hc
    refine ⟨rfl, ?_⟩
    rw [verdict, comparison, hfound, values_of_unbound hnone]
    cases found <;> rfl
  | «exists» selector name =>
    obtain rfl := List.mem_singleton.mp hmem
    refine ⟨rfl, ?_⟩
    rw [verdict, propertyExists, propertyValues_of_unbound hnone]
    rfl
  | fullText predicate =>
    obtain rfl := List.mem_singleton.mp hmem
    obtain ⟨found, hfound, htext⟩ := hc
    refine ⟨rfl, ?_⟩
    rw [verdict, fullText, hfound, bound_eq_error hnone]
    cases found with
    | none => rfl
    | some v =>
      obtain ⟨text, htext⟩ := htext v rfl
      show (ctx.lexical v >>= _) = _
      rw [htext]
      rfl
  | structural relation selector path =>
    obtain rfl := List.mem_singleton.mp hmem
    refine ⟨rfl, ?_⟩
    rw [verdict, structural, bound_eq_error hnone]
    rfl

/-! ## Joins -/

/-- A join on equal values reports the first of its two selectors that is unbound. -/
theorem equalJoin_of_unbound {left right : PropertyOperand} (htuple : tuple.IsIn ctx.tree)
    (hs : tuple.firstUnbound? [left.selector, right.selector] = some s) :
    ctx.equalJoin tuple left right = .error (.selectorNotBound s) := by
  obtain ⟨rfl, hleft⟩ | ⟨rfl, ⟨n, hleft⟩, hright⟩ := NodeTuple.firstUnbound?_pair hs
  · rw [equalJoin, propertyValues_of_unbound hleft]
    rfl
  · -- the left values can be read, so the right selector is reached
    obtain ⟨values, hvalues⟩ : ∃ values, ctx.propertyValues tuple left = .ok values :=
      exists_propertyValues hleft (htuple _ _ hleft)
    rw [equalJoin, hvalues, propertyValues_of_unbound hright]
    rfl

/-- Whatever reads the nodes of two selectors fails with the first that has none. -/
theorem bound_pair_of_unbound {s₁ s₂ : SelectorName} (hs : tuple.firstUnbound? [s₁, s₂] = some s)
    (f : NodeId → NodeId → Eval Verdict) :
    (do
      let first ← bound tuple s₁
      let second ← bound tuple s₂
      f first second) = .error (.selectorNotBound s) := by
  obtain ⟨rfl, hfirst⟩ | ⟨rfl, ⟨n, hfirst⟩, hsecond⟩ := NodeTuple.firstUnbound?_pair hs
  · rw [bound_eq_error hfirst]
    rfl
  · rw [bound_eq_ok hfirst, bound_eq_error hsecond]
    rfl

/-- A join is left to the policy with the first of its selectors that has no node. -/
theorem joinVerdict_of_unbound {condition : JoinCondition} (htuple : tuple.IsIn ctx.tree)
    (hs : tuple.firstUnbound? condition.selectors = some s) :
    ctx.joinVerdict tuple condition = ctx.policy.settle (.error (.selectorNotBound s)) := by
  refine congrArg ctx.policy.settle ?_
  cases condition with
  | equal s₁ p₁ s₂ p₂ => exact equalJoin_of_unbound htuple hs
  | sameNode s₁ s₂ path => exact bound_pair_of_unbound hs _
  | childNode child parent => exact bound_pair_of_unbound hs (ctx.related .child)
  | descendantNode descendant ancestor => exact bound_pair_of_unbound hs (ctx.related .descendant)

/-! ## What the policy asks -/

/-- **Required selectors are passed over by joins only, behind one that is not required.** For every
policy and every tuple of nodes of the tree: a constraint that is not made of others, its static side
once read, does what the policy asks, and so does a join condition, unless its first selector without
a node need not have one and the other one must. -/
theorem required_selectors_honoured_iff (ctx : Context) (tuple : NodeTuple)
    (htuple : tuple.IsIn ctx.tree) :
    (∀ c, ctx.IsReadyLeaf c → ctx.policy.Honours tuple c.selectors (ctx.verdict tuple c)) ∧
      ∀ condition : JoinCondition,
        ctx.policy.Honours tuple condition.selectors (ctx.joinVerdict tuple condition) ↔
          ¬ ctx.policy.Overlooks tuple condition.selectors := by
  constructor
  -- a leaf has one selector, behind which none is overlooked
  · intro c hc
    cases hs : tuple.firstUnbound? c.selectors with
    | none => exact (Policy.honours_of_bound hs _).1
    | some s =>
      obtain ⟨hselectors, hverdict⟩ := verdict_of_unbound hc hs
      rw [hverdict, Policy.honours_settle_iff hs, hselectors]
      exact Policy.not_overlooks_singleton s
  · intro condition
    cases hs : tuple.firstUnbound? condition.selectors with
    | none =>
      obtain ⟨hhonours, hnot⟩ := Policy.honours_of_bound hs (ctx.joinVerdict tuple condition)
      exact iff_of_true hhonours hnot
    | some s => rw [joinVerdict_of_unbound htuple hs, Policy.honours_settle_iff hs]

/-- The root for one selector, and none for another one that is required. -/
theorem required_selectors_honoured_iff_second :
    let ctx := { ofTree .empty with policy := ⟨false, [⟨"b"⟩]⟩ }
    let tuple : NodeTuple := ⟨[(⟨"a"⟩, some 0), (⟨"b"⟩, none)]⟩
    tuple.IsIn ctx.tree ∧ ctx.IsReadyLeaf (.structural .child ⟨"b"⟩ .root) ∧
      ctx.policy.Honours tuple [⟨"b"⟩]
        (ctx.verdict tuple (.structural .child ⟨"b"⟩ .root)) ∧
      (ctx.policy.Honours tuple [⟨"a"⟩, ⟨"b"⟩] (ctx.joinVerdict tuple (.childNode ⟨"a"⟩ ⟨"b"⟩)) ↔
        ¬ ctx.policy.Overlooks tuple [⟨"a"⟩, ⟨"b"⟩]) ∧
      ctx.joinVerdict tuple (.childNode ⟨"a"⟩ ⟨"b"⟩) = .error (.selectorNotBound ⟨"b"⟩) := by
  intro ctx tuple
  have htuple : tuple.IsIn ctx.tree := NodeTuple.isIn_of_forall_entries (by decide)
  have h := required_selectors_honoured_iff ctx tuple htuple
  exact ⟨htuple, trivial, h.1 (.structural .child ⟨"b"⟩ .root) trivial,
    h.2 (.childNode ⟨"a"⟩ ⟨"b"⟩), by decide +kernel⟩

/-- Neither selector of a join has a node, and only the second one must: the join is decided all the
same. -/
theorem required_selector_overlooked :
    let ctx := { ofTree .empty with policy := ⟨false, [⟨"b"⟩]⟩ }
    let tuple : NodeTuple := ⟨[(⟨"a"⟩, none), (⟨"b"⟩, none)]⟩
    tuple.IsIn ctx.tree ∧ ctx.policy.Misses tuple ⟨"b"⟩ ∧
      ctx.joinVerdict tuple (.childNode ⟨"a"⟩ ⟨"b"⟩) = .ok .unsatisfied ∧
      ¬ ctx.policy.Honours tuple [⟨"a"⟩, ⟨"b"⟩]
        (ctx.joinVerdict tuple (.childNode ⟨"a"⟩ ⟨"b"⟩)) := by
  intro ctx tuple
  have hmisses : ctx.policy.Misses tuple ⟨"b"⟩ := ⟨by decide +kernel, by decide +kernel⟩
  have hverdict : ctx.joinVerdict tuple (.childNode ⟨"a"⟩ ⟨"b"⟩) = .ok .unsatisfied := by
    decide +kernel
  refine ⟨NodeTuple.isIn_of_forall_entries (by decide), hmisses, hverdict, fun hhonours => ?_⟩
  obtain ⟨r, -, -, hfails⟩ := hhonours.fails ⟨⟨"b"⟩, by simp, hmisses⟩
  rw [hverdict] at hfails
  cases hfails

end Context

end ContentQuery
