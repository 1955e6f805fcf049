import ContentQuery.Proofs.Evaluation.Placement

/-! # Evaluating valid queries

A valid query refers only to selectors that it declares. On a tuple that has a node of the tree for
each of these, every read of a node succeeds, and every node reached from one, by a path or upwards,
is in the tree again. So what can still fail are the texts of the query and its variables: names,
paths, expressions and static operands. `FailsOnly` is carried through each function of the
evaluation, one lemma for each, and through constraints and operands by induction.
-/

namespace ContentQuery

open Naming

/-- The error is about the query and its variables, not about a missing node. -/
def EvalError.ConcernsQuery : EvalError → Prop
  | .unknownVariable _ | .multipleValues _ | .unresolvableName _ | .malformedPath _
  | .fullText (.invalidExpression ..) | .fullText (.unavailable _) => True
  | .selectorNotBound _ | .navigation _ | .fullText (.index _) => False

/-- The tuple has a node of the tree for the selector. -/
def NodeTuple.Binds (tuple : NodeTuple) (t : Tree) (s : SelectorName) : Prop :=
  ∃ n, tuple.node? s = some n ∧ n < t.size

/-! ## What a valid query refers to -/

/-- The join conditions inside a source. -/
def Source.conditions : Source → List JoinCondition
  | selector .. => []
  | join left right _ condition => left.conditions ++ right.conditions ++ [condition]

/-- The selectors of all join conditions are referred to. -/
theorem Source.mem_referenced_of_mem_conditions {source : Source} {condition : JoinCondition}
    (hc : condition ∈ source.conditions) {s : SelectorName} (hs : s ∈ condition.selectors) :
    s ∈ source.referenced := by
  induction source with
  | selector nodeType selector => cases hc
  | join left right type own ihl ihr =>
    simp only [conditions, List.mem_append, List.mem_singleton] at hc
    simp only [referenced, List.mem_append]
    rcases hc with (hc | hc) | rfl
    · exact .inl (.inl (ihl hc))
    · exact .inl (.inr (ihr hc))
    · exact .inr hs

/-- What a valid query refers to is declared in it. -/
theorem Query.mem_declared_of_validate {query : Query} (h : query.validate = .ok ())
    {s : SelectorName} (hs : s ∈ query.referenced) : s ∈ query.declared := by
  unfold validate at h
  split at h
  · cases h
  · split at h
    · cases h
    · next hnone => simpa using List.find?_eq_none.mp hnone s hs

namespace Context

variable {ctx : Context} {tuple : NodeTuple}

/-! ## Reading nodes -/

/-- What reads the node of a bound selector fails with what it fails with on a node of the tree. -/
theorem failsOnly_bound_bind {α : Type} {s : SelectorName} {f : NodeId → Eval α}
    (hs : tuple.Binds ctx.tree s)
    (hf : ∀ n < ctx.tree.size, FailsOnly EvalError.ConcernsQuery (f n)) :
    FailsOnly EvalError.ConcernsQuery (bound tuple s >>= f) := by
  obtain ⟨n, hs, hn⟩ := hs
  rw [bound_eq_ok hs]
  exact hf n hn

/-- A bound selector has a node in the tree, so reading its property cannot fail. -/
theorem failsOnly_propertyValues {operand : PropertyOperand}
    (hs : tuple.Binds ctx.tree operand.selector) :
    FailsOnly EvalError.ConcernsQuery (ctx.propertyValues tuple operand) := by
  obtain ⟨n, hs, hn⟩ := hs
  obtain ⟨values, hvalues⟩ := exists_propertyValues hs hn
  exact .of_eq_ok hvalues

theorem failsOnly_nodeName {n : NodeId} (hn : n < ctx.tree.size) :
    FailsOnly EvalError.ConcernsQuery (Eval.ofNavigation (ctx.tree.nodeName n)) := by
  obtain ⟨node, hnode⟩ := Tree.exists_node_eq_ok hn
  rw [Tree.nodeName, hnode]
  exact .ok _

/-! ## Texts and static operands -/

theorem failsOnly_ofResolve {α : Type} (result : Except ResolveError α) :
    FailsOnly EvalError.ConcernsQuery (Eval.ofResolve result) :=
  .mapError fun _ _ => trivial

/-- A fixed side fails for variables that have no value, or more than one. -/
theorem failsOnly_singleValue (operand : StaticOperand) :
    FailsOnly EvalError.ConcernsQuery (ctx.singleValue operand) := by
  have hvalues : FailsOnly EvalError.ConcernsQuery (ctx.staticValues operand) := by
    cases operand with
    | literal v => exact .ok [v]
    | «variable» v =>
      rw [staticValues]
      split
      · exact .ok _
      · exact .error trivial
  refine .bind hvalues fun values _ => ?_
  split
  · exact .ok none
  · exact .ok (some _)
  · exact .error trivial

theorem failsOnly_lengthOf (v : Value) : FailsOnly EvalError.ConcernsQuery (ctx.lengthOf v) := by
  unfold lengthOf
  split
  · exact .ok _
  · exact .bind (failsOnly_ofResolve _) fun _ _ => .ok _

/-! ## Searches -/

/-- The text of a node of the tree can be read. -/
theorem exists_textOfNode {t : Tree} {n : NodeId} (hn : n < t.size) (property : Option Name) :
    ∃ text, FullText.textOfNode t n property = .ok text := by
  obtain ⟨node, hnode⟩ := Tree.exists_node_eq_ok hn
  -- every property of the node can be read
  have hvalues : ∀ names : List Name, ∃ values, names.mapM (fun name =>
      (t.propertyValues n name).mapError FullText.SearchError.index) = .ok values := by
    refine fun names => exists_mapM_eq_ok fun name _ => ?_
    rw [Tree.propertyValues, hnode]
    exact ⟨_, rfl⟩
  unfold FullText.textOfNode
  cases property with
  | some name =>
    obtain ⟨values, h⟩ := hvalues [name]
    exact ⟨_, bind_eq_ok_iff.mpr ⟨[name], rfl, bind_eq_ok_iff.mpr ⟨values, h, rfl⟩⟩⟩
  | none =>
    obtain ⟨values, h⟩ := hvalues node.properties.names
    refine ⟨_, bind_eq_ok_iff.mpr ⟨node.properties.names, ?_, bind_eq_ok_iff.mpr ⟨values, h, rfl⟩⟩⟩
    rw [Tree.propertyNames, hnode]
    rfl

/-- Reading an expression and the text of a node of the tree, whatever is made of the two, fails with
the expression only. -/
theorem failsOnly_readText {α : Type} {t : Tree} {request : FullText.Request}
    (hn : request.node < t.size) (f : FullText.Query → String → α) :
    FailsOnly (fun e => (EvalError.fullText e).ConcernsQuery) (do
      let query ← FullText.readExpression request.expression
      return f query (← FullText.textOfNode t request.node request.property)) := by
  obtain ⟨text, htext⟩ := exists_textOfNode hn request.property
  have hread : FailsOnly (fun e => (EvalError.fullText e).ConcernsQuery)
      (FullText.readExpression request.expression) := .mapError fun _ _ => trivial
  exact .bind hread fun _ _ => .bind (.of_eq_ok htext) fun _ _ => .ok _

/-- A searcher for words, or the lack of one. -/
def HasPlainSearcher (ctx : Context) : Prop :=
  ctx.searcher = FullText.unavailable ∨ ctx.searcher = FullText.termMatch

/-- A plain searcher refuses expressions only, as the node is there. -/
theorem failsOnly_search (hsearcher : ctx.HasPlainSearcher) {request : FullText.Request}
    (hn : request.node < ctx.tree.size) :
    FailsOnly EvalError.ConcernsQuery (Eval.ofSearch (ctx.searcher.search ctx.tree request)) := by
  refine .mapError ?_
  obtain hs | hs := hsearcher <;> rw [hs]
  · exact .error trivial
  · exact failsOnly_readText hn FullText.Query.isMatch

theorem failsOnly_searchScore (hsearcher : ctx.HasPlainSearcher) {request : FullText.Request}
    (hn : request.node < ctx.tree.size) :
    FailsOnly EvalError.ConcernsQuery (Eval.ofSearch (ctx.searcher.score ctx.tree request)) := by
  refine .mapError ?_
  obtain hs | hs := hsearcher <;> rw [hs]
  · exact .ok _
  · exact failsOnly_readText hn FullText.Query.score

/-! ## Operands -/

/-- All scores of a bound selector are of a node in the tree. -/
theorem failsOnly_score (hsearcher : ctx.HasPlainSearcher) {s : SelectorName}
    (hs : tuple.Binds ctx.tree s) : FailsOnly EvalError.ConcernsQuery (ctx.score tuple s) := by
  refine failsOnly_bound_bind hs fun n hn => ?_
  refine .bind (.mapM fun predicate _ => ?_) fun _ _ => .ok _
  refine .bind (failsOnly_singleValue _) fun found _ => ?_
  cases found with
  | none => exact .ok none
  | some v =>
    exact .bind (failsOnly_ofResolve _) fun _ _ =>
      .bind (failsOnly_searchScore hsearcher hn) fun _ _ => .ok _

/-- The values of an operand whose selector is bound. -/
theorem failsOnly_values (hsearcher : ctx.HasPlainSearcher) {operand : DynamicOperand}
    (hs : tuple.Binds ctx.tree operand.selector) :
    FailsOnly EvalError.ConcernsQuery (ctx.values tuple operand) := by
  induction operand with
  | property operand => exact failsOnly_propertyValues hs
  | length operand =>
    exact .bind (failsOnly_propertyValues hs) fun _ _ => .mapM fun v _ => failsOnly_lengthOf v
  | nodeName s | localName s =>
    exact failsOnly_bound_bind hs fun n hn => .bind (failsOnly_nodeName hn) fun _ _ => .ok _
  | score s => exact .bind (failsOnly_score hsearcher hs) fun _ _ => .ok _
  | upper operand ih | lower operand ih => exact .bind (ih hs) fun _ _ => .ok _

/-! ## Constraints -/

/-- The comparisons of a loop fail by names that cannot be resolved. -/
theorem failsOnly_anyValue (operator : Operator) (fixed : Value) (values : List Value) :
    FailsOnly EvalError.ConcernsQuery (ctx.anyValue operator fixed values) := by
  induction values with
  | nil => exact .ok _
  | cons v rest ih =>
    refine .bind (failsOnly_ofResolve _) fun holds _ => ?_
    cases holds
    · exact ih
    · exact .ok _

theorem failsOnly_settle {policy : Policy} {result : Eval Verdict}
    (h : FailsOnly EvalError.ConcernsQuery result) :
    FailsOnly EvalError.ConcernsQuery (policy.settle result) := by
  unfold Policy.settle
  split
  · next s => exact (h (.selectorNotBound s) rfl).elim
  · exact h

/-- A path that climbs out of the tree is an error of the query. -/
theorem failsOnly_resolve (path : Path) : FailsOnly EvalError.ConcernsQuery (ctx.resolve path) := by
  unfold resolve
  split
  · exact .ok _
  · exact .error trivial

/-- Two nodes of the tree can be compared by their places without failure. -/
theorem failsOnly_related (h : ctx.tree.WellFormed) {node other : NodeId}
    (hn : node < ctx.tree.size) (ho : other < ctx.tree.size) (relation : NodeRelation) :
    FailsOnly EvalError.ConcernsQuery (ctx.related relation node other) := by
  obtain ⟨v, hv, -⟩ := related_decides h hn ho relation
  exact .of_eq_ok hv

/-- A path leads to nodes of the tree only. -/
theorem lt_size_of_resolve (h : ctx.tree.WellFormed) {path : Path} {n : NodeId}
    (hresolve : ctx.resolve path = .ok (some n)) : n < ctx.tree.size := by
  unfold resolve at hresolve
  split at hresolve
  · exact h.lt_size_of_resolve? (Except.ok.inj hresolve)
  · cases hresolve

theorem failsOnly_structural (h : ctx.tree.WellFormed) {s : SelectorName}
    (hs : tuple.Binds ctx.tree s) (relation : NodeRelation) (path : Path) :
    FailsOnly EvalError.ConcernsQuery (ctx.structural tuple relation s path) := by
  refine failsOnly_bound_bind hs fun n hn => ?_
  refine .bind (failsOnly_resolve path) fun found hfound => ?_
  cases found with
  | none => exact .ok _
  | some other => exact failsOnly_related h hn (lt_size_of_resolve h hfound) relation

/-- The verdict on a constraint whose selectors are bound. -/
theorem failsOnly_verdict (h : ctx.tree.WellFormed) (hsearcher : ctx.HasPlainSearcher)
    {c : Constraint} (hs : ∀ s ∈ c.selectors, tuple.Binds ctx.tree s) :
    FailsOnly EvalError.ConcernsQuery (ctx.verdict tuple c) := by
  induction c with
  | and left right ihl ihr | or left right ihl ihr =>
    simp only [Constraint.selectors, List.forall_mem_append] at hs
    refine .bind (ihl hs.1) fun v _ => ?_
    -- one of the two verdicts settles it, and with the other the right side is asked
    cases v
    all_goals first | exact .ok _ | exact ihr hs.2
  | not c ih => exact .bind (ih hs) fun _ _ => .ok _
  | comparison left operator right =>
    have hleft := failsOnly_values hsearcher (hs _ (List.mem_singleton_self _))
    refine .bind (failsOnly_singleValue right) fun found _ => ?_
    cases found with
    | none => exact failsOnly_settle (.bind hleft fun _ _ => .ok _)
    | some fixed => exact failsOnly_settle (.bind hleft fun _ _ => failsOnly_anyValue _ _ _)
  | «exists» s name =>
    have hvalues : FailsOnly EvalError.ConcernsQuery (ctx.propertyValues tuple ⟨s, some name⟩) :=
      failsOnly_propertyValues (hs s (List.mem_singleton_self s))
    exact failsOnly_settle (.bind hvalues fun _ _ => .ok _)
  | fullText predicate =>
    have hbound := hs predicate.selector (List.mem_singleton_self _)
    refine .bind (failsOnly_singleValue _) fun found _ => ?_
    cases found with
    | none => exact failsOnly_settle (failsOnly_bound_bind hbound fun _ _ => .ok _)
    | some v =>
      refine .bind (failsOnly_ofResolve _) fun text _ => failsOnly_settle ?_
      exact failsOnly_bound_bind hbound fun n hn =>
        .bind (failsOnly_search hsearcher hn) fun _ _ => .ok _
  | structural relation s path =>
    exact failsOnly_settle
      (failsOnly_structural h (hs s (List.mem_singleton_self _)) relation path)

/-! ## Joins -/

theorem failsOnly_anyPair (left right : List Value) :
    FailsOnly EvalError.ConcernsQuery (ctx.anyPair left right) := by
  induction right with
  | nil => exact .ok _
  | cons v rest ih =>
    refine .bind (failsOnly_anyValue _ _ _) fun found _ => ?_
    cases found
    · exact .ok _
    · exact ih

theorem failsOnly_belowJoin (h : ctx.tree.WellFormed) {s₁ s₂ : SelectorName}
    (hs₁ : tuple.Binds ctx.tree s₁) (hs₂ : tuple.Binds ctx.tree s₂) (relation : NodeRelation) :
    FailsOnly EvalError.ConcernsQuery (ctx.belowJoin tuple relation s₁ s₂) :=
  failsOnly_bound_bind hs₁ fun _ hn => failsOnly_bound_bind hs₂ fun _ ha =>
    failsOnly_related h hn ha relation

/-- Only the joined path can fail, by climbing out of the tree. -/
theorem failsOnly_sameNodeJoin {s₁ s₂ : SelectorName} (hs₁ : tuple.Binds ctx.tree s₁)
    (hs₂ : tuple.Binds ctx.tree s₂) (path : Option Path) :
    FailsOnly EvalError.ConcernsQuery (ctx.sameNodeJoin tuple s₁ s₂ path) := by
  refine failsOnly_bound_bind hs₁ fun n _ => failsOnly_bound_bind hs₂ fun a ha => ?_
  cases path with
  | none => exact .ok _
  | some path =>
    have hstart : Eval.ofNavigation (ctx.tree.pathOf a) = .ok ⟨true, ctx.tree.stepsTo a⟩ :=
      congrArg Eval.ofNavigation (Tree.pathOf_eq_ok_iff.mpr ⟨ha, rfl⟩)
    refine .bind (.of_eq_ok hstart) fun _ _ => .bind (failsOnly_resolve _) fun found _ => ?_
    cases found <;> exact .ok _

/-- The verdict on a join condition whose selectors are bound. -/
theorem failsOnly_joinVerdict (h : ctx.tree.WellFormed) {condition : JoinCondition}
    (hs : ∀ s ∈ condition.selectors, tuple.Binds ctx.tree s) :
    FailsOnly EvalError.ConcernsQuery (ctx.joinVerdict tuple condition) := by
  refine failsOnly_settle ?_
  cases condition with
  | equal s₁ p₁ s₂ p₂ =>
    simp only [JoinCondition.selectors, List.forall_mem_cons] at hs
    exact .bind (failsOnly_propertyValues hs.1) fun _ _ =>
      .bind (failsOnly_propertyValues hs.2.1) fun _ _ => failsOnly_anyPair _ _
  | sameNode s₁ s₂ path =>
    simp only [JoinCondition.selectors, List.forall_mem_cons] at hs
    exact failsOnly_sameNodeJoin hs.1 hs.2.1 path
  | childNode s₁ s₂ | descendantNode s₁ s₂ =>
    simp only [JoinCondition.selectors, List.forall_mem_cons] at hs
    exact failsOnly_belowJoin h hs.1 hs.2.1 _

/-! ## Valid queries -/

/-- **Evaluating a valid query never misses a node.** In every tree that is reached by changes, for
every tuple that has a node of it for each selector the query declares, and whatever the policy, the
variables and the predicates are: deciding the constraint and the join conditions, and reading the
operands of the orderings, fail with errors about the query and its variables only. -/
theorem valid_query_failsOnly (query : Query) (hquery : query.validate = .ok ()) (ctx : Context)
    (ht : Tree.Reachable ctx.tree) (hsearcher : ctx.HasPlainSearcher) (tuple : NodeTuple)
    (htuple : ∀ s ∈ query.declared, tuple.Binds ctx.tree s) :
    (∀ c ∈ query.constraint, FailsOnly EvalError.ConcernsQuery (ctx.verdict tuple c)) ∧
      (∀ condition ∈ query.source.conditions,
        FailsOnly EvalError.ConcernsQuery (ctx.joinVerdict tuple condition)) ∧
      ∀ ordering ∈ query.orderings,
        FailsOnly EvalError.ConcernsQuery (ctx.values tuple ordering.operand) := by
  have h := ht.wellFormed
  -- what a valid query refers to is declared, and so bound
  have hbinds : ∀ s ∈ query.referenced, tuple.Binds ctx.tree s := fun s hs =>
    htuple s (Query.mem_declared_of_validate hquery hs)
  simp only [Query.referenced, List.forall_mem_append] at hbinds
  obtain ⟨⟨⟨hsource, hconstraint⟩, horderings⟩, -⟩ := hbinds
  refine ⟨fun c hc => ?_, fun condition hc => ?_, fun ordering ho => ?_⟩
  · refine failsOnly_verdict h hsearcher fun s hs => hconstraint s ?_
    rw [show query.constraint = some c from hc]
    exact hs
  · exact failsOnly_joinVerdict h fun s hs =>
      hsource s (Source.mem_referenced_of_mem_conditions hc hs)
  · exact failsOnly_values hsearcher (horderings _ (List.mem_map_of_mem ho))

/-- A query with a join by a path, a negated search and a score. -/
def scoredQuery : Query where
  source := .join (.selector ⟨"", "base"⟩ ⟨"s"⟩) (.selector ⟨"", "base"⟩ ⟨"t"⟩) .inner
    (.sameNode ⟨"s"⟩ ⟨"t"⟩ (some ⟨false, [.parent, .parent]⟩))
  constraint := some (.not (.fullText ⟨⟨"s"⟩, none, .variable ⟨"words"⟩⟩))
  orderings := [⟨.upper (.score ⟨"s"⟩), .descending⟩]
  columns := []

theorem valid_query_failsOnly_scored :
    let join : JoinCondition := .sameNode ⟨"s"⟩ ⟨"t"⟩ (some ⟨false, [.parent, .parent]⟩)
    let search : Constraint := .not (.fullText ⟨⟨"s"⟩, none, .variable ⟨"words"⟩⟩)
    let ctx := { ofTree branchedTree with
      policy := ⟨true, []⟩
      predicates := search.fullTextPredicates }
    let tuple : NodeTuple := ⟨[(⟨"s"⟩, some 3), (⟨"t"⟩, some 1)]⟩
    scoredQuery.validate = .ok () ∧ Tree.Reachable ctx.tree ∧ ctx.HasPlainSearcher ∧
      (∀ s ∈ scoredQuery.declared, tuple.Binds ctx.tree s) ∧
      FailsOnly EvalError.ConcernsQuery (ctx.verdict tuple search) ∧
      FailsOnly EvalError.ConcernsQuery (ctx.joinVerdict tuple join) ∧
      FailsOnly EvalError.ConcernsQuery (ctx.values tuple (.upper (.score ⟨"s"⟩))) ∧
      ctx.verdict tuple search = .error (.unknownVariable ⟨"words"⟩) ∧
      ctx.values tuple (.upper (.score ⟨"s"⟩)) = .error (.unknownVariable ⟨"words"⟩) ∧
      ctx.joinVerdict tuple join =
        .error (.malformedPath ⟨true, [.named ⟨"", "a"⟩ 1, .parent, .parent]⟩) := by
  intro join search ctx tuple
  have hbinds : ∀ s ∈ scoredQuery.declared, tuple.Binds ctx.tree s := by
    intro s hs
    rcases List.mem_pair.mp hs with rfl | rfl
    · exact ⟨3, by decide +kernel, by decide⟩
    · exact ⟨1, by decide +kernel, by decide⟩
  have h := valid_query_failsOnly scoredQuery (by decide +kernel) ctx reachable_branchedTree
    (.inr rfl) tuple hbinds
  exact ⟨by decide +kernel, reachable_branchedTree, .inr rfl, hbinds, h.1 search rfl,
    h.2.1 join (List.mem_singleton_self _),
    h.2.2 ⟨.upper (.score ⟨"s"⟩), .descending⟩ (List.mem_singleton_self _), by decide +kernel,
    by decide +kernel, by decide +kernel⟩

end Context

end ContentQuery
