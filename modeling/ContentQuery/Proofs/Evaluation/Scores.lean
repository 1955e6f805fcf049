import ContentQuery.Evaluation.Verdict
import ContentQuery.Proofs.Evaluation.Operand
import ContentQuery.Proofs.FullText.WholeNode

/-! # Scores and the searches they come from

The score of a selector is the sum of the scores of its full-text searches, wherever they stand in the
constraint. A sum of zeros is zero, so a score other than zero has a summand other than zero, and the
search that it belongs to reads the same expression, property and node as the constraint does and is
satisfied.
-/

namespace ContentQuery

open Naming Number

/-! ## Sums of zeros -/

/-- Adding up scores of which all are zero gives zero. -/
theorem foldl_add_zero {scores : List Double} (h : ∀ x ∈ scores, x = .zero) :
    scores.foldl Double.add .zero = .zero := by
  have hzero : Double.zero.add .zero = .zero := by decide +kernel
  induction scores with
  | nil => rfl
  | cons x scores ih =>
    rw [List.forall_mem_cons] at h
    rw [List.foldl_cons, h.1, hzero]
    exact ih h.2

/-! ## The searches of a constraint -/

/-- A constraint stands in another one, at any depth. -/
inductive Constraint.Within (part : Constraint) : Constraint → Prop
  | self : Within part part
  | andLeft {left : Constraint} (right : Constraint) (h : Within part left) :
      Within part (.and left right)
  | andRight (left : Constraint) {right : Constraint} (h : Within part right) :
      Within part (.and left right)
  | orLeft {left : Constraint} (right : Constraint) (h : Within part left) :
      Within part (.or left right)
  | orRight (left : Constraint) {right : Constraint} (h : Within part right) :
      Within part (.or left right)
  | not {constraint : Constraint} (h : Within part constraint) : Within part (.not constraint)

/-- The full-text searches collected from a constraint are those that stand in it. -/
theorem Constraint.mem_fullTextPredicates_iff {predicate : FullTextPredicate} {c : Constraint} :
    predicate ∈ c.fullTextPredicates ↔ (Constraint.fullText predicate).Within c := by
  constructor
  -- the predicates are collected along the constraint
  · intro h
    induction c with
    | and left right ihl ihr =>
      rcases List.mem_append.mp h with h | h
      · exact .andLeft right (ihl h)
      · exact .andRight left (ihr h)
    | or left right ihl ihr =>
      rcases List.mem_append.mp h with h | h
      · exact .orLeft right (ihl h)
      · exact .orRight left (ihr h)
    | not c ih => exact .not (ih h)
    | fullText predicate' =>
      obtain rfl := List.mem_singleton.mp h
      exact .self
    | comparison | «exists» | structural => cases h
  · intro h
    -- and each step inwards is found again in the collection
    induction h with
    | self => exact List.mem_singleton_self predicate
    | andLeft right _ ih | orLeft right _ ih => exact List.mem_append_left _ ih
    | andRight left _ ih | orRight left _ ih => exact List.mem_append_right _ ih
    | not _ ih => exact ih

namespace Context

variable {ctx : Context} {tuple : NodeTuple} {s : SelectorName} {n : NodeId}
  {predicate : FullTextPredicate}

/-! ## From a score to a search -/

theorem node_of_bound (h : bound tuple s = .ok n) : tuple.node? s = some n := by
  unfold bound at h
  split at h
  · next node hnode => rw [hnode, Except.ok.inj h]
  · cases h

/-- A search with a score other than zero is satisfied as a constraint. -/
theorem verdict_of_predicateScore (hsearcher : ctx.searcher = FullText.termMatch)
    (hn : tuple.node? predicate.selector = some n) {x : Double}
    (hscore : ctx.predicateScore n predicate = .ok (some x)) (hx : x ≠ .zero) :
    ctx.verdict tuple (.fullText predicate) = .ok .satisfied := by
  obtain ⟨found, hfound, hrest⟩ := bind_eq_ok_iff.mp hscore
  cases found with
  | none => cases hrest
  | some v =>
    obtain ⟨expression, hexpression, hrest⟩ := bind_eq_ok_iff.mp hrest
    obtain ⟨x', hx', hvalue⟩ := bind_eq_ok_iff.mp hrest
    obtain rfl : x' = x := Option.some.inj (pure_eq_ok_iff.mp hvalue)
    -- the constraint makes the same request as the score
    have hsearch : Eval.ofSearch (ctx.searcher.search ctx.tree
        ⟨predicate.selector, n, predicate.property, expression⟩) = .ok true := by
      rw [hsearcher] at hx' ⊢
      exact mapError_eq_ok_iff.mpr
        (FullText.search_of_score_ne_zero (mapError_eq_ok_iff.mp hx') hx)
    rw [verdict, fullText, hfound]
    show ctx.lexical v >>= _ = _
    rw [hexpression]
    show ctx.policy.settle (bound tuple predicate.selector >>= _) = _
    rw [bound_eq_ok hn]
    show ctx.policy.settle (Eval.ofSearch _ >>= _) = _
    rw [hsearch]
    rfl

/-- A score other than zero has a search whose score is not zero. -/
theorem exists_predicateScore_ne_zero {x : Double} (hscore : ctx.score tuple s = .ok x)
    (hx : x ≠ .zero) : ∃ n predicate y, tuple.node? s = some n ∧ predicate ∈ ctx.predicates ∧
      predicate.selector = s ∧ ctx.predicateScore n predicate = .ok (some y) ∧ y ≠ .zero := by
  obtain ⟨n, hn, hrest⟩ := bind_eq_ok_iff.mp hscore
  obtain ⟨scores, hscores, hsum⟩ := bind_eq_ok_iff.mp hrest
  rw [pure_eq_ok_iff] at hsum
  have hsome : ∃ y ∈ scores.filterMap id, y ≠ .zero := by
    by_contra! hzero
    exact hx (hsum ▸ foldl_add_zero hzero)
  obtain ⟨y, hy, hne⟩ := hsome
  obtain ⟨predicate, hpredicate, hvalue⟩ := exists_mem_of_mapM hscores (some y) (by simpa using hy)
  obtain ⟨hmem, hselector⟩ := List.mem_filter.mp hpredicate
  exact ⟨n, predicate, y, node_of_bound hn, hmem, by simpa using hselector, hvalue, hne⟩

/-- The same context, with the searcher for words and the searches that scores are taken from being
those of a constraint. -/
def scoring (ctx : Context) (c : Constraint) : Context :=
  { ctx with searcher := FullText.termMatch, predicates := c.fullTextPredicates }

/-- **Scores agree with verdicts.** Scores are taken from the full-text searches of a constraint. If a
selector's score is not zero, a search for that selector somewhere in the constraint, also under
negations, is satisfied. If the constraint has no search for a selector that is bound, the score is
zero. -/
theorem score_agrees_with_searches (ctx : Context) (c : Constraint) (tuple : NodeTuple)
    (s : SelectorName) :
    (∀ x, (ctx.scoring c).values tuple (.score s) = .ok [.double x] → x ≠ .zero →
      ∃ predicate, (Constraint.fullText predicate).Within c ∧ predicate.selector = s ∧
        (ctx.scoring c).verdict tuple (.fullText predicate) = .ok .satisfied) ∧
    ((∀ predicate, (Constraint.fullText predicate).Within c → predicate.selector ≠ s) →
      ∀ n, tuple.node? s = some n →
        (ctx.scoring c).values tuple (.score s) = .ok [.double .zero]) := by
  constructor
  -- a sum that is not zero has a summand that is not
  · intro x hvalues hx
    obtain ⟨x', hscore, hvalue⟩ := bind_eq_ok_iff.mp hvalues
    obtain rfl : x' = x := by simpa using hvalue
    obtain ⟨n, predicate, y, hn, hmem, rfl, hy, hne⟩ := exists_predicateScore_ne_zero hscore hx
    exact ⟨predicate, Constraint.mem_fullTextPredicates_iff.mp hmem, rfl,
      verdict_of_predicateScore rfl hn hy hne⟩
  -- without searches of the selector nothing is added up
  · intro hnone n hn
    have hfilter : c.fullTextPredicates.filter (·.selector = s) = [] := by
      rw [List.filter_eq_nil_iff]
      intro predicate hpredicate
      simpa using hnone predicate (Constraint.mem_fullTextPredicates_iff.mp hpredicate)
    have hscores : (c.fullTextPredicates.filter (·.selector = s)).mapM
        ((ctx.scoring c).predicateScore n) = .ok [] := by
      rw [hfilter]
      rfl
    have hscore : (ctx.scoring c).score tuple s = .ok .zero :=
      bind_eq_ok_iff.mpr ⟨n, bound_eq_ok hn, bind_eq_ok_iff.mpr ⟨[], hscores, rfl⟩⟩
    rw [values, hscore]
    rfl

/-- A search for `world`, made twice below a negation, gives the selector `s` the score one and is
satisfied; the selector `u` has no search and the score zero. -/
theorem score_agrees_with_searches_negated :
    let search : FullTextPredicate := ⟨⟨"s"⟩, none, .literal (.string "world")⟩
    let c : Constraint :=
      .or (.exists ⟨"u"⟩ ⟨"", "x"⟩) (.not (.and (.fullText search) (.fullText search)))
    let ctx := ofTree FullText.greetingTree
    let tuple : NodeTuple := ⟨[(⟨"s"⟩, some 1), (⟨"u"⟩, some 0)]⟩
    (ctx.scoring c).values tuple (.score ⟨"s"⟩) = .ok [.double (.ofInt 1)] ∧
      Double.ofInt 1 ≠ .zero ∧
      (∃ predicate, (Constraint.fullText predicate).Within c ∧ predicate.selector = ⟨"s"⟩ ∧
        (ctx.scoring c).verdict tuple (.fullText predicate) = .ok .satisfied) ∧
      (∀ predicate, (Constraint.fullText predicate).Within c → predicate.selector ≠ ⟨"u"⟩) ∧
      (ctx.scoring c).values tuple (.score ⟨"u"⟩) = .ok [.double .zero] := by
  intro search c ctx tuple
  have hvalues : (ctx.scoring c).values tuple (.score ⟨"s"⟩) = .ok [.double (.ofInt 1)] := by
    decide +kernel
  have hone : Double.ofInt 1 ≠ .zero := by decide +kernel
  have hnone : ∀ predicate, (Constraint.fullText predicate).Within c →
      predicate.selector ≠ ⟨"u"⟩ := by
    intro predicate hpredicate
    have hmem : predicate ∈ [search, search] := Constraint.mem_fullTextPredicates_iff.mpr hpredicate
    rcases List.mem_pair.mp hmem with rfl | rfl <;> decide
  obtain ⟨hsatisfied, -⟩ := score_agrees_with_searches ctx c tuple ⟨"s"⟩
  obtain ⟨-, hzero⟩ := score_agrees_with_searches ctx c tuple ⟨"u"⟩
  exact ⟨hvalues, hone, hsatisfied _ hvalues hone, hnone, hzero hnone 0 rfl⟩

end Context

end ContentQuery
