import ContentQuery.Proofs.Tree.Ancestors

/-! # Hidden nodes

Each step down asks whether the node it comes to is hidden. So where steps lead to a node, everything
in its lineage shows as far down as the steps began. Paths begin at the root, which no step comes to:
nobody asks whether the root is hidden. Hence nothing hidden is above a node that a path leads to, the
root apart, and the root is no exception exactly if it shows.
-/

namespace ContentQuery.Tree

open Naming

variable {t : Tree}

/-- What steps lead to shows, with everything above it up to where they began. -/
theorem WellFormed.isHidden_of_descend? (h : t.WellFormed) {start id : NodeId} {steps : List Step}
    (hdescend : t.descend? start steps = some id) :
    ∀ a ∈ t.lineage id, a ∈ t.lineage start ∨ t.isHidden a = false := by
  induction steps generalizing start with
  | nil =>
    obtain rfl : start = id := Option.some.inj hdescend
    exact fun a ha => .inl ha
  | cons step steps ih =>
    cases step with
    | current | parent => cases hdescend
    | named name index =>
      rw [descend?] at hdescend
      split at hdescend
      · next child hfind =>
        split at hdescend
        · cases hdescend
        · next hshown =>
          -- the lineage of the child is the child, which shows, and the lineage of the start
          intro a ha
          obtain hchild | hshows := ih hdescend a ha
          · rw [h.lineage_of_parentOf? (h.stepTo_of_findChild? hfind).1, List.mem_cons] at hchild
            obtain rfl | hstart := hchild
            · exact .inr (Bool.not_eq_true _ ▸ hshown)
            · exact .inl hstart
          · exact .inr hshows
      · cases hdescend

/-- Nothing is above the root. -/
theorem WellFormed.lineage_root (h : t.WellFormed) : t.lineage root = [root] :=
  lineage_of_parentOf?_eq_none h.parentOf?_root

theorem resolve?_root : t.resolve? .root = some root := rfl

/-- **Nothing hidden is above what a path leads to, the root apart.** In every tree that is reached by
changes, a node that a path leads to and all its ancestors but the root show. The root need not: they
all show exactly if it is not hidden, as its own path leads to it all the same. -/
theorem resolve?_shows_iff (ht : Reachable t) :
    (∀ p id a, t.resolve? p = some id → Relation.ReflTransGen t.IsParent id a → a ≠ root →
        t.isHidden a = false) ∧
      ((∀ p id a, t.resolve? p = some id → Relation.ReflTransGen t.IsParent id a →
        t.isHidden a = false) ↔ t.isHidden root = false) := by
  have h := ht.wellFormed
  -- the walk asks for the flag of every node that it enters, so all but its start
  have hbelow : ∀ p id a, t.resolve? p = some id → Relation.ReflTransGen t.IsParent id a →
      a ≠ root → t.isHidden a = false := by
    intro p id a hresolve hreach hroot
    obtain ⟨q, -, hdescend⟩ := Option.bind_eq_some_iff.mp hresolve
    obtain hstart | hshown := h.isHidden_of_descend? hdescend a (h.mem_lineage_iff.mpr hreach)
    · rw [h.lineage_root, List.mem_singleton] at hstart
      exact absurd hstart hroot
    · exact hshown
  refine ⟨hbelow, fun hall => hall .root root root resolve?_root .refl, fun hroot => ?_⟩
  intro p id a hresolve hreach
  by_cases ha : a = root
  · rw [ha, hroot]
  · exact hbelow p id a hresolve hreach ha

/-- A hidden root above `/a`, which shows, and `/a/x`, which is hidden. -/
def hiddenRootTree : Tree where
  nodes := #[
    ⟨.empty, none, [1], ⟨[]⟩, true⟩, ⟨⟨"", "a"⟩, some 0, [2], ⟨[]⟩, false⟩,
    ⟨⟨"", "x"⟩, some 1, [], ⟨[]⟩, true⟩]

theorem reachable_hiddenRootTree : Reachable hiddenRootTree := by
  have hpath := Reachable.empty.addPath (show empty.addPath
    ⟨true, [.named ⟨"", "a"⟩ 1, .named ⟨"", "x"⟩ 1]⟩ = .ok (_, 2) from rfl)
  have hx := hpath.hide (show Tree.hide _ 2 = .ok _ from rfl)
  exact hx.hide (show Tree.hide _ 0 = .ok hiddenRootTree from rfl)

theorem resolve?_shows_iff_hiddenRoot :
    Reachable hiddenRootTree ∧ hiddenRootTree.resolve? ⟨true, [.named ⟨"", "a"⟩ 1]⟩ = some 1 ∧
      hiddenRootTree.isHidden 1 = false ∧
      ((∀ p id a, hiddenRootTree.resolve? p = some id →
        Relation.ReflTransGen hiddenRootTree.IsParent id a → hiddenRootTree.isHidden a = false) ↔
          hiddenRootTree.isHidden root = false) ∧
      hiddenRootTree.isHidden root = true ∧
      hiddenRootTree.resolve? ⟨true, [.named ⟨"", "a"⟩ 1, .named ⟨"", "x"⟩ 1]⟩ = none := by
  have hpath : hiddenRootTree.resolve? ⟨true, [.named ⟨"", "a"⟩ 1]⟩ = some 1 := by decide +kernel
  have hshows := resolve?_shows_iff reachable_hiddenRootTree
  exact ⟨reachable_hiddenRootTree, hpath, hshows.1 _ 1 1 hpath .refl (by decide), hshows.2,
    by decide +kernel, by decide +kernel⟩

/-- Hiding the root does not keep the root's own path from leading to it. -/
theorem hidden_root_resolves :
    ¬ ∀ t : Tree, Reachable t → ∀ p id, t.resolve? p = some id →
      ∀ a, Relation.ReflTransGen t.IsParent id a → t.isHidden a = false := by
  intro hall
  have hroot : hiddenRootTree.isHidden root = false :=
    hall hiddenRootTree reachable_hiddenRootTree .root root resolve?_root root .refl
  revert hroot
  decide +kernel

end ContentQuery.Tree
