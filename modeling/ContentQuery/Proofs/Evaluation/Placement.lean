import ContentQuery.Evaluation.Verdict
import ContentQuery.Proofs.Evaluation.Operand

/-! # What the conditions on places mean

A condition that places a node of a tuple relative to another node, the one at a path or the one of
another selector, is decided by depths and by a look into the lineage. `Tree.Stands` says what it
means: the nodes are the same, or the other one is the parent, or an ancestor. The main statement is
that the verdict is positive exactly if this holds, and what it is where a path leads nowhere.
-/

namespace ContentQuery

open Naming

/-- The node stands in the relation to the other one. -/
def Tree.Stands (t : Tree) : NodeRelation → NodeId → NodeId → Prop
  | .same, node, other => node = other
  | .child, node, other => t.IsParent node other
  | .descendant, node, other => Relation.TransGen t.IsParent node other

/-- The result is a verdict, and positive exactly if the proposition holds. -/
def Eval.Decides (result : Eval Verdict) (p : Prop) : Prop :=
  ∃ v, result = .ok v ∧ (v = .satisfied ↔ p)

@[simp] theorem Verdict.ofBool_eq_satisfied_iff {b : Bool} : Verdict.ofBool b = .satisfied ↔ b := by
  cases b <;> simp [Verdict.ofBool]

namespace Context

variable {ctx : Context} {tuple : NodeTuple}

/-! ## Nodes in a relation -/

/-- A node is found below another one exactly if that one is in its lineage, less deep, and not more
steps away than the limit allows. -/
theorem isBelow_decides (h : ctx.tree.WellFormed) {ancestor node : NodeId}
    (ha : ancestor < ctx.tree.size) (hn : node < ctx.tree.size) (limit : Option ℕ) :
    (ctx.isBelow ancestor node limit).Decides
      (ancestor ∈ ctx.tree.lineage node ∧ ctx.tree.depthOf ancestor < ctx.tree.depthOf node ∧
        ∀ steps ∈ limit, ctx.tree.depthOf node ≤ ctx.tree.depthOf ancestor + steps) := by
  rw [isBelow, Tree.depth_eq_ok ha, Tree.depth_eq_ok hn]
  show (if _ then _ else _ : Eval Verdict).Decides _
  split
  -- by their depths alone the one cannot be above the other
  · next htoo =>
    refine ⟨.unsatisfied, rfl, ?_⟩
    simp only [reduceCtorEq, false_iff, not_and, not_forall]
    intro _ hdepth
    rcases htoo with hle | hany
    · omega
    · obtain ⟨steps, hsteps, hlt⟩ := (Option.any_eq_true ..).mp hany
      have hlt : steps < ctx.tree.depthOf node - ctx.tree.depthOf ancestor := by simpa using hlt
      exact ⟨steps, hsteps, by omega⟩
  -- otherwise the ancestor at its depth tells
  · next hnot =>
    rw [not_or] at hnot
    rw [Tree.ancestorAt_eq_ok hn]
    refine ⟨_, rfl, ?_⟩
    rw [Verdict.ofBool_eq_satisfied_iff, beq_iff_eq, h.getElem?_reverse_lineage_iff]
    refine ⟨fun hmem => ⟨hmem, by omega, ?_⟩, fun hbelow => hbelow.1⟩
    rintro steps rfl
    have hle : ¬ steps < ctx.tree.depthOf node - ctx.tree.depthOf ancestor := by simpa using hnot.2
    omega

/-- Depths and lineages decide how two nodes stand to each other. -/
theorem related_decides (h : ctx.tree.WellFormed) {node other : NodeId} (hn : node < ctx.tree.size)
    (ho : other < ctx.tree.size) (relation : NodeRelation) :
    (ctx.related relation node other).Decides (ctx.tree.Stands relation node other) := by
  cases relation with
  | same => exact ⟨_, rfl, by simp [Tree.Stands]⟩
  | child =>
    obtain ⟨v, hv, hiff⟩ := isBelow_decides h ho hn (some 1)
    refine ⟨v, hv, hiff.trans ?_⟩
    rw [Tree.Stands, h.isParent_iff]
    simp only [Option.mem_some_iff, forall_eq']
    refine and_congr_right fun _ => ?_
    omega
  | descendant =>
    obtain ⟨v, hv, hiff⟩ := isBelow_decides h ho hn none
    refine ⟨v, hv, hiff.trans ?_⟩
    rw [Tree.Stands, h.transGen_isParent_iff]
    simp

/-! ## Conditions on a path or a selector -/

/-- A path that can be normalized leads to the node the tree resolves it to. -/
theorem resolve_eq_ok {p : Path} (hp : p.toAbsolute.normalize? ≠ none) :
    ctx.resolve p = .ok (ctx.tree.resolve? p) := by
  obtain ⟨q, hq⟩ := Option.ne_none_iff_exists'.mp hp
  rw [resolve, hq, ← Tree.resolve?_of_normalize? hq]

/-- A condition on a bound selector asks for a node by its path and then for the place of one below the
other. -/
theorem structural_eq {s : SelectorName} {n : NodeId} (hs : tuple.node? s = some n)
    (relation : NodeRelation) (p : Path) :
    ctx.structural tuple relation s p = (do
      match ← ctx.resolve p with
      | some other => ctx.related relation n other
      | none => return .unsatisfied) := by
  rw [structural, bound_eq_ok hs]
  rfl

/-- A policy leaves verdicts as they are. -/
theorem settle_decides {policy : Policy} {result : Eval Verdict} {p : Prop}
    (h : result.Decides p) : (policy.settle result).Decides p := by
  obtain ⟨v, rfl, hv⟩ := h
  exact ⟨v, rfl, hv⟩

/-- Such a join asks for the same place of two bound nodes. -/
theorem belowJoin_decides (h : ctx.tree.WellFormed) {s₁ s₂ : SelectorName} {n a : NodeId}
    (hs₁ : tuple.node? s₁ = some n) (hn : n < ctx.tree.size) (hs₂ : tuple.node? s₂ = some a)
    (ha : a < ctx.tree.size) (relation : NodeRelation) :
    (ctx.belowJoin tuple relation s₁ s₂).Decides (ctx.tree.Stands relation n a) := by
  rw [belowJoin, bound_eq_ok hs₁, bound_eq_ok hs₂]
  exact related_decides h hn ha relation

/-- **Conditions on places mean what they say.** In every tree that is reached by changes and for
every selector with a node of it: where a path climbs above the root, every condition on it fails
with the path as the reason; where it leads to no node that shows, none is satisfied; and where it
leads to a node, that node is the same, the stored parent, or reached by one or more steps to the
parent, exactly if the condition that says so is satisfied. The joins on parents and ancestors decide
the same relations between the nodes of two selectors. -/
theorem verdict_structural_means (ctx : Context) (ht : Tree.Reachable ctx.tree) (tuple : NodeTuple)
    (s : SelectorName) (n : NodeId) (hs : tuple.node? s = some n) (hn : n < ctx.tree.size) :
    (∀ p relation, p.toAbsolute.normalize? = none →
        ctx.verdict tuple (.structural relation s p) = .error (.malformedPath p)) ∧
      (∀ p relation, p.toAbsolute.normalize? ≠ none → ctx.tree.resolve? p = none →
        ctx.verdict tuple (.structural relation s p) = .ok .unsatisfied) ∧
      (∀ p relation a, ctx.tree.resolve? p = some a →
        (ctx.verdict tuple (.structural relation s p)).Decides (ctx.tree.Stands relation n a)) ∧
      ∀ s' a, tuple.node? s' = some a → a < ctx.tree.size →
        (ctx.joinVerdict tuple (.childNode s s')).Decides (ctx.tree.Stands .child n a) ∧
          (ctx.joinVerdict tuple (.descendantNode s s')).Decides
            (ctx.tree.Stands .descendant n a) := by
  have h := ht.wellFormed
  refine ⟨fun p relation hp => ?_, fun p relation hp hnone => ?_, fun p relation a ha => ?_,
    fun s' a hs' ha => ⟨?_, ?_⟩⟩
  · rw [verdict, structural_eq hs, resolve, hp]
    rfl
  · rw [verdict, structural_eq hs, resolve_eq_ok hp, hnone]
    rfl
  -- a path that leads to a node does not climb out
  · have hp : p.toAbsolute.normalize? ≠ none := by
      intro hp
      rw [Tree.resolve?, hp] at ha
      cases ha
    rw [verdict, structural_eq hs, resolve_eq_ok hp, ha]
    exact settle_decides (related_decides h hn (h.lt_size_of_resolve? ha) relation)
  · exact settle_decides (belowJoin_decides h hs hn hs' ha .child)
  · exact settle_decides (belowJoin_decides h hs hn hs' ha .descendant)

end Context

/-- The nodes `/a`, `/a/b`, `/a/b/c` in a row, and `/a/x`, which is hidden. -/
def branchedTree : Tree where
  nodes := #[
    ⟨.empty, none, [1], ⟨[]⟩, false⟩, ⟨⟨"", "a"⟩, some 0, [2, 4], ⟨[]⟩, false⟩,
    ⟨⟨"", "b"⟩, some 1, [3], ⟨[]⟩, false⟩, ⟨⟨"", "c"⟩, some 2, [], ⟨[]⟩, false⟩,
    ⟨⟨"", "x"⟩, some 1, [], ⟨[]⟩, true⟩]

theorem reachable_branchedTree : Tree.Reachable branchedTree := by
  have hc := Tree.Reachable.empty.addPath (show Tree.empty.addPath
    ⟨true, [.named ⟨"", "a"⟩ 1, .named ⟨"", "b"⟩ 1, .named ⟨"", "c"⟩ 1]⟩ = .ok (_, 3) from rfl)
  have hx := hc.addPath
    (show Tree.addPath _ ⟨true, [.named ⟨"", "a"⟩ 1, .named ⟨"", "x"⟩ 1]⟩ = .ok (_, 4) from rfl)
  exact hx.hide (show Tree.hide _ 4 = .ok branchedTree from rfl)

namespace Context

theorem verdict_structural_means_branched :
    let ctx := ofTree branchedTree
    let tuple : NodeTuple := ⟨[(⟨"s"⟩, some 3), (⟨"t"⟩, some 1)]⟩
    Tree.Reachable ctx.tree ∧ tuple.node? ⟨"s"⟩ = some 3 ∧ 3 < ctx.tree.size ∧
      (∀ relation, ctx.verdict tuple (.structural relation ⟨"s"⟩ ⟨false, [.parent]⟩) =
        .error (.malformedPath ⟨false, [.parent]⟩)) ∧
      (∀ relation, ctx.verdict tuple (.structural relation ⟨"s"⟩
        ⟨true, [.named ⟨"", "a"⟩ 1, .named ⟨"", "x"⟩ 1]⟩) = .ok .unsatisfied) ∧
      (∀ relation, (ctx.verdict tuple (.structural relation ⟨"s"⟩
        ⟨false, [.named ⟨"", "a"⟩ 0, .current]⟩)).Decides (ctx.tree.Stands relation 3 1)) ∧
      ((ctx.joinVerdict tuple (.childNode ⟨"s"⟩ ⟨"t"⟩)).Decides (ctx.tree.Stands .child 3 1) ∧
        (ctx.joinVerdict tuple (.descendantNode ⟨"s"⟩ ⟨"t"⟩)).Decides
          (ctx.tree.Stands .descendant 3 1)) ∧
      ctx.joinVerdict tuple (.childNode ⟨"s"⟩ ⟨"t"⟩) = .ok .unsatisfied ∧
      ctx.joinVerdict tuple (.descendantNode ⟨"s"⟩ ⟨"t"⟩) = .ok .satisfied := by
  intro ctx tuple
  have hmeans := verdict_structural_means ctx reachable_branchedTree tuple ⟨"s"⟩ 3
    (by decide +kernel) (by decide)
  exact ⟨reachable_branchedTree, by decide +kernel, by decide,
    fun relation => hmeans.1 _ relation (by decide +kernel),
    fun relation => hmeans.2.1 _ relation (by decide +kernel) (by decide +kernel),
    fun relation => hmeans.2.2.1 _ relation 1 (by decide +kernel),
    hmeans.2.2.2 ⟨"t"⟩ 1 (by decide +kernel) (by decide), by decide +kernel, by decide +kernel⟩

end Context

end ContentQuery
