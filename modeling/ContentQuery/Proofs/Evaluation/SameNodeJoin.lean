import ContentQuery.Proofs.Evaluation.Placement
import ContentQuery.Proofs.Tree.Walks

/-! # Joins on a relative path

A join on the same node with a relative path takes the path from the second node, by joining it to
the path of that node. Where nothing is hidden, the joined path leads to the end of a walk from the
second node, so the join asks whether the first node is there. But a walk that would climb above the
root has no joined path, and the join then fails where it should not be satisfied: the verdict is the
meant one exactly if there are no more climbs than the second node is deep.
-/

namespace ContentQuery.Context

open Naming

variable {ctx : Context} {tuple : NodeTuple}

/-- A join on the same node and a relative path resolves the path joined to that of the second
node. -/
theorem sameNodeJoin_eq {s₁ s₂ : SelectorName} {n₁ n₂ : NodeId} (hs₁ : tuple.node? s₁ = some n₁)
    (hs₂ : tuple.node? s₂ = some n₂) (hn₂ : n₂ < ctx.tree.size) {r : Path} (hr : r.absolute = false) :
    ctx.sameNodeJoin tuple s₁ s₂ (some r) = (do
      match ← ctx.resolve ⟨true, ctx.tree.stepsTo n₂ ++ r.steps⟩ with
      | some target => return .ofBool (n₁ == target)
      | none => return .unsatisfied) := by
  have hjoin : (⟨true, ctx.tree.stepsTo n₂⟩ : Path).join r =
      ⟨true, ctx.tree.stepsTo n₂ ++ r.steps⟩ := by
    simp [Path.join, hr]
  have hpath : ctx.tree.pathOf n₂ = .ok ⟨true, ctx.tree.stepsTo n₂⟩ :=
    Tree.pathOf_eq_ok_iff.mpr ⟨hn₂, rfl⟩
  rw [sameNodeJoin, bound_eq_ok hs₁, bound_eq_ok hs₂, ← hjoin]
  show (Eval.ofNavigation (ctx.tree.pathOf n₂) >>= _) = _
  rw [hpath]
  rfl

/-- A path that leads where a walk does decides whether a node is there. -/
theorem resolve_decides {p q : Path} (hp : p.toAbsolute.normalize? = some q) {n : NodeId}
    {meant : Prop} (hiff : ctx.tree.descend? Tree.root q.steps = some n ↔ meant) :
    Eval.Decides (do
      match ← ctx.resolve p with
      | some target => return .ofBool (n == target)
      | none => return .unsatisfied) meant := by
  have hresolve : ctx.resolve p = .ok (ctx.tree.descend? Tree.root q.steps) := by
    rw [resolve_eq_ok (by simp [hp]), Tree.resolve?, hp, Option.bind_some]
  rw [hresolve, ← hiff]
  cases ctx.tree.descend? Tree.root q.steps with
  | none => exact ⟨.unsatisfied, rfl, by simp⟩
  | some target =>
    refine ⟨_, rfl, ?_⟩
    rw [Verdict.ofBool_eq_satisfied_iff, beq_iff_eq, Option.some.injEq, eq_comm]

/-- **A join on a relative path follows the tree unless the path climbs above the root.** In every tree
that is reached by changes, with nothing hidden and fewer than 2³² children to a node, a relative path
is normalized to climbs with descents behind them. The join with it is satisfied exactly if these lead
from the second node to the first one, and not satisfied otherwise, if and only if there are no more
climbs than the second node is deep. With more it fails, with the joined path as the reason. -/
theorem sameNodeJoin_walks_iff (ctx : Context) (ht : Tree.Reachable ctx.tree)
    (hshown : ∀ id, ctx.tree.isHidden id = false)
    (hcount : ∀ id, (ctx.tree.children id).length < 2 ^ 32) (tuple : NodeTuple)
    (s₁ s₂ : SelectorName) (n₁ n₂ : NodeId) (hs₁ : tuple.node? s₁ = some n₁)
    (hs₂ : tuple.node? s₂ = some n₂) (hn₂ : n₂ < ctx.tree.size) (r : Path)
    (hr : r.absolute = false) :
    ∃ k down, Descents down ∧ r.normalize? = some ⟨false, List.replicate k .parent ++ down⟩ ∧
      ((ctx.joinVerdict tuple (.sameNode s₁ s₂ (some r))).Decides
        (ctx.tree.Walks n₂ (List.replicate k .parent ++ down) n₁) ↔ k ≤ ctx.tree.depthOf n₂) ∧
      (ctx.tree.depthOf n₂ < k → ctx.joinVerdict tuple (.sameNode s₁ s₂ (some r)) =
        .error (.malformedPath ⟨true, ctx.tree.stepsTo n₂ ++ r.steps⟩)) := by
  have h := ht.wellFormed
  obtain ⟨k, down, hdown, hrelative, habsolute⟩ := Path.exists_normalize?_relative hr
  -- the joined path climbs from the second node, as far as there are nodes above it
  have hjoined : (⟨true, ctx.tree.stepsTo n₂ ++ r.steps⟩ : Path).toAbsolute.normalize? =
      if k ≤ ctx.tree.depthOf n₂ then
        some ⟨true, (ctx.tree.stepsTo n₂).take (ctx.tree.depthOf n₂ - k) ++ down⟩
      else none := by
    have hbase := habsolute _ (Tree.descents_stepsTo (t := ctx.tree) n₂)
    rwa [Tree.length_stepsTo] at hbase
  have hfails : ctx.tree.depthOf n₂ < k → ctx.joinVerdict tuple (.sameNode s₁ s₂ (some r)) =
      .error (.malformedPath ⟨true, ctx.tree.stepsTo n₂ ++ r.steps⟩) := by
    intro hk
    rw [if_neg (Nat.not_le.mpr hk)] at hjoined
    rw [joinVerdict, sameNodeJoin_eq hs₁ hs₂ hn₂ hr, resolve, hjoined]
    rfl
  refine ⟨k, down, hdown, hrelative, ⟨?_, fun hk => ?_⟩, hfails⟩
  -- an error decides nothing, so the join has not climbed out
  · rintro ⟨v, hv, -⟩
    by_contra hk
    rw [hfails (Nat.not_le.mp hk)] at hv
    cases hv
  · rw [if_pos hk] at hjoined
    rw [joinVerdict, sameNodeJoin_eq hs₁ hs₂ hn₂ hr]
    exact settle_decides
      (resolve_decides hjoined (h.descend?_take_stepsTo hshown hcount hn₂ hk hdown))

/-- The nodes `/a`, `/a/b`, `/a/b[2]` and `/a/b/c`. -/
def cousinTree : Tree where
  nodes := #[
    ⟨.empty, none, [1], ⟨[]⟩, false⟩, ⟨⟨"", "a"⟩, some 0, [2, 3], ⟨[]⟩, false⟩,
    ⟨⟨"", "b"⟩, some 1, [4], ⟨[]⟩, false⟩, ⟨⟨"", "b"⟩, some 1, [], ⟨[]⟩, false⟩,
    ⟨⟨"", "c"⟩, some 2, [], ⟨[]⟩, false⟩]

theorem reachable_cousinTree : Tree.Reachable cousinTree := by
  have hb := Tree.Reachable.empty.addPath (show Tree.empty.addPath
    ⟨true, [.named ⟨"", "a"⟩ 1, .named ⟨"", "b"⟩ 2]⟩ = .ok (_, 3) from rfl)
  exact hb.addPath (show Tree.addPath _
    ⟨true, [.named ⟨"", "a"⟩ 1, .named ⟨"", "b"⟩ 1, .named ⟨"", "c"⟩ 1]⟩ = .ok (cousinTree, 4) from rfl)

theorem shown_cousinTree (id : NodeId) : cousinTree.isHidden id = false := by
  by_cases hid : id < 5
  · interval_cases id <;> rfl
  · rw [Tree.isHidden, Array.getElem?_eq_none (Nat.not_lt.mp hid)]
    rfl

theorem length_children_cousinTree (id : NodeId) : (cousinTree.children id).length < 2 ^ 32 :=
  lt_of_le_of_lt (reachable_cousinTree.wellFormed.length_children_le id) (by decide)

/-- From `/a/b/c`, the path `../.././b[2]` leads to `/a/b[2]`, and `x/../../../../..` above the root. -/
theorem sameNodeJoin_walks_iff_cousins :
    let ctx := ofTree cousinTree
    let tuple : NodeTuple := ⟨[(⟨"s"⟩, some 3), (⟨"t"⟩, some 4)]⟩
    let join := fun r => ctx.joinVerdict tuple (.sameNode ⟨"s"⟩ ⟨"t"⟩ (some r))
    let follows := fun r : Path => ∃ k down, Descents down ∧
      r.normalize? = some ⟨false, List.replicate k .parent ++ down⟩ ∧
        ((join r).Decides (ctx.tree.Walks 4 (List.replicate k .parent ++ down) 3) ↔
          k ≤ ctx.tree.depthOf 4) ∧
        (ctx.tree.depthOf 4 < k →
          join r = .error (.malformedPath ⟨true, ctx.tree.stepsTo 4 ++ r.steps⟩))
    let near : Path := ⟨false, [.parent, .parent, .current, .named ⟨"", "b"⟩ 2]⟩
    let far : Path := ⟨false, [.named ⟨"", "x"⟩ 1, .parent, .parent, .parent, .parent, .parent]⟩
    Tree.Reachable ctx.tree ∧ (∀ id, ctx.tree.isHidden id = false) ∧
      (∀ id, (ctx.tree.children id).length < 2 ^ 32) ∧ tuple.node? ⟨"s"⟩ = some 3 ∧
      tuple.node? ⟨"t"⟩ = some 4 ∧ 4 < ctx.tree.size ∧ near.absolute = false ∧
      far.absolute = false ∧ follows near ∧ join near = .ok .satisfied ∧ follows far ∧
      join far = .error (.malformedPath ⟨true, ctx.tree.stepsTo 4 ++ far.steps⟩) := by
  intro ctx tuple join follows near far
  have hs : tuple.node? ⟨"s"⟩ = some 3 := by decide +kernel
  have ht : tuple.node? ⟨"t"⟩ = some 4 := by decide +kernel
  have hfollows : ∀ r : Path, r.absolute = false → follows r :=
    sameNodeJoin_walks_iff ctx reachable_cousinTree shown_cousinTree length_children_cousinTree
      tuple ⟨"s"⟩ ⟨"t"⟩ 3 4 hs ht (by decide)
  exact ⟨reachable_cousinTree, shown_cousinTree, length_children_cousinTree, hs, ht, by decide, rfl,
    rfl, hfollows near rfl, by decide +kernel, hfollows far rfl, by decide +kernel⟩

/-- A join on a relative path that climbs above the root fails. -/
theorem sameNodeJoin_above_root_fails :
    let ctx := ofTree cousinTree
    let tuple : NodeTuple := ⟨[(⟨"s"⟩, some 1), (⟨"t"⟩, some 1)]⟩
    Tree.Reachable ctx.tree ∧ (∀ id, ctx.tree.isHidden id = false) ∧
      tuple.node? ⟨"s"⟩ = some 1 ∧ tuple.node? ⟨"t"⟩ = some 1 ∧ 1 < ctx.tree.size ∧
      ¬ ∃ v, ctx.joinVerdict tuple (.sameNode ⟨"s"⟩ ⟨"t"⟩ (some ⟨false, [.parent, .parent]⟩)) =
        .ok v := by
  intro ctx tuple
  have hfails : ctx.joinVerdict tuple (.sameNode ⟨"s"⟩ ⟨"t"⟩ (some ⟨false, [.parent, .parent]⟩)) =
      .error (.malformedPath ⟨true, [.named ⟨"", "a"⟩ 1, .parent, .parent]⟩) := by
    decide +kernel
  refine ⟨reachable_cousinTree, shown_cousinTree, by decide +kernel, by decide +kernel, by decide, ?_⟩
  rintro ⟨v, hv⟩
  rw [hfails] at hv
  cases hv

end ContentQuery.Context
