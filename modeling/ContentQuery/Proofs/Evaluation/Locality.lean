import ContentQuery.Evaluation.Verdict
import ContentQuery.Proofs.Evaluation.Operand

/-! # What evaluation reads

Two evaluations with the same tree, names, policy, searcher and predicates are compared, on tuples
that agree on the selectors of what is evaluated and with variables that agree where it and the
predicates mention them. Each function of the evaluation gives the same in both, whether a result or
an error: the leaves because the one node and the one static operand they read are the same, the rest
by induction on operands and constraints.
-/

namespace ContentQuery

open Naming

/-- The variables of a static operand. -/
def StaticOperand.variableNames : StaticOperand → List VariableName
  | .literal _ => []
  | .variable v => [v]

/-- The variables that occur in a constraint. -/
def Constraint.variableNames : Constraint → List VariableName
  | .and left right => left.variableNames ++ right.variableNames
  | .or left right => left.variableNames ++ right.variableNames
  | .not constraint => constraint.variableNames
  | .comparison _ _ right => right.variableNames
  | .fullText predicate => predicate.expression.variableNames
  | .exists .. | .structural .. => []

/-- Two tuples have the same node, or none, for each of the selectors. -/
def NodeTuple.AgreeOn (tuple tuple' : NodeTuple) (selectors : List SelectorName) : Prop :=
  ∀ s ∈ selectors, tuple.node? s = tuple'.node? s

theorem NodeTuple.AgreeOn.pair {tuple tuple' : NodeTuple} {s₁ s₂ : SelectorName}
    (h : tuple.AgreeOn tuple' [s₁, s₂]) :
    tuple.node? s₁ = tuple'.node? s₁ ∧ tuple.node? s₂ = tuple'.node? s₂ :=
  ⟨h s₁ (by simp), h s₂ (by simp)⟩

/-- Two sets of bindings have the same values, or none, for each of the variables. -/
def Bindings.AgreeOn (bindings bindings' : Bindings) (names : List VariableName) : Prop :=
  ∀ v ∈ names, bindings.values? v = bindings'.values? v

namespace Context

/-- The same context with other values of the variables. -/
def rebind (ctx : Context) (bindings : Bindings) : Context := { ctx with bindings := bindings }

/-- Other bindings of the variables leave the registry alone, and everything else in the context. -/
theorem names_rebind (ctx : Context) (bindings : Bindings) : ctx.names = (ctx.rebind bindings).names :=
  rfl

/-- The expressions of the predicates mention only variables that other bindings agree on. -/
def PredicatesAgree (ctx : Context) (bindings : Bindings) : Prop :=
  ∀ predicate ∈ ctx.predicates, ctx.bindings.AgreeOn bindings predicate.expression.variableNames

variable {ctx : Context} {bindings : Bindings} {tuple tuple' : NodeTuple}

/-! ## Nodes and static operands -/

theorem bound_congr {s : SelectorName} (hs : tuple.node? s = tuple'.node? s) :
    bound tuple s = bound tuple' s := by
  rw [bound, hs, bound]

/-- A fixed side reads the variables that it names and nothing of the tuple. -/
theorem singleValue_congr {operand : StaticOperand}
    (hv : ctx.bindings.AgreeOn bindings operand.variableNames) :
    ctx.singleValue operand = (ctx.rebind bindings).singleValue operand := by
  cases operand with
  | literal v => rfl
  | «variable» v =>
    have hvalues : ctx.bindings.values? v = (ctx.rebind bindings).bindings.values? v :=
      hv v (List.mem_singleton_self v)
    simp only [singleValue, staticValues, hvalues]

theorem propertyValues_congr {operand : PropertyOperand}
    (hs : tuple.node? operand.selector = tuple'.node? operand.selector) :
    ctx.propertyValues tuple operand = (ctx.rebind bindings).propertyValues tuple' operand := by
  rw [propertyValues, bound_congr hs]
  rfl

/-! ## Operands -/

/-- A score depends on the variables that its expression names. -/
theorem predicateScore_congr {predicate : FullTextPredicate}
    (hv : ctx.bindings.AgreeOn bindings predicate.expression.variableNames) (n : NodeId) :
    ctx.predicateScore n predicate = (ctx.rebind bindings).predicateScore n predicate := by
  rw [predicateScore, singleValue_congr hv]
  rfl

/-- A score reads the node of its selector and the expressions of the predicates. -/
theorem score_congr {s : SelectorName} (hs : tuple.node? s = tuple'.node? s)
    (hpredicates : ctx.PredicatesAgree bindings) :
    ctx.score tuple s = (ctx.rebind bindings).score tuple' s := by
  have hscores : ∀ n, (ctx.predicates.filter (·.selector = s)).mapM (ctx.predicateScore n) =
      (ctx.predicates.filter (·.selector = s)).mapM ((ctx.rebind bindings).predicateScore n) :=
    fun n => mapM_congr fun predicate hmem =>
      predicateScore_congr (hpredicates predicate (List.mem_filter.mp hmem).1) n
  simp only [score, bound_congr hs, hscores]
  rfl

/-- An operand reads the node of its selector, and the expressions of the predicates in scores. -/
theorem values_congr {operand : DynamicOperand}
    (hs : tuple.node? operand.selector = tuple'.node? operand.selector)
    (hpredicates : ctx.PredicatesAgree bindings) :
    ctx.values tuple operand = (ctx.rebind bindings).values tuple' operand := by
  -- case conversions are nested; below them one selector is read
  induction operand with
  | property operand => exact propertyValues_congr hs
  | length operand =>
    rw [values, propertyValues_congr hs]
    rfl
  | nodeName s | localName s =>
    have hbound : bound tuple s = bound tuple' s := bound_congr hs
    rw [values, hbound]
    rfl
  | score s =>
    have hscore : ctx.score tuple s = (ctx.rebind bindings).score tuple' s :=
      score_congr hs hpredicates
    rw [values, hscore]
    rfl
  | upper operand ih | lower operand ih =>
    rw [values, ih hs]
    rfl

/-! ## Constraints -/

/-- A comparison with each of some values reads the names only. -/
theorem anyValue_congr {ctx ctx' : Context} (hnames : ctx.names = ctx'.names) (operator : Operator)
    (fixed : Value) (values : List Value) :
    ctx.anyValue operator fixed values = ctx'.anyValue operator fixed values := by
  induction values with
  | nil => rfl
  | cons v rest ih => rw [anyValue, anyValue, ih, hnames]

/-- A comparison reads one selector and the variables of its fixed side. -/
theorem comparison_congr {left : DynamicOperand} {right : StaticOperand}
    (hs : tuple.node? left.selector = tuple'.node? left.selector)
    (hv : ctx.bindings.AgreeOn bindings right.variableNames)
    (hpredicates : ctx.PredicatesAgree bindings) (operator : Operator) :
    ctx.comparison tuple left operator right =
      (ctx.rebind bindings).comparison tuple' left operator right := by
  have hany : ctx.anyValue operator = (ctx.rebind bindings).anyValue operator :=
    funext₂ (anyValue_congr (names_rebind ctx bindings) operator)
  rw [comparison, singleValue_congr hv, values_congr hs hpredicates, hany]
  rfl

theorem fullText_congr {predicate : FullTextPredicate}
    (hs : tuple.node? predicate.selector = tuple'.node? predicate.selector)
    (hv : ctx.bindings.AgreeOn bindings predicate.expression.variableNames) :
    ctx.fullText tuple predicate = (ctx.rebind bindings).fullText tuple' predicate := by
  rw [fullText, singleValue_congr hv, bound_congr hs]
  rfl

theorem structural_congr {s : SelectorName} (hs : tuple.node? s = tuple'.node? s)
    (relation : NodeRelation) (path : Path) :
    ctx.structural tuple relation s path =
      (ctx.rebind bindings).structural tuple' relation s path := by
  rw [structural, bound_congr hs]
  rfl

/-- A constraint reads the nodes of its selectors and the values of its variables, and the
expressions of the predicates in scores. -/
theorem verdict_congr {c : Constraint} (hs : tuple.AgreeOn tuple' c.selectors)
    (hv : ctx.bindings.AgreeOn bindings c.variableNames)
    (hpredicates : ctx.PredicatesAgree bindings) :
    ctx.verdict tuple c = (ctx.rebind bindings).verdict tuple' c := by
  -- along the constraint: what it reads is what its parts read
  induction c with
  | and left right ihl ihr | or left right ihl ihr =>
    obtain ⟨hsl, hsr⟩ := List.forall_mem_append.mp hs
    obtain ⟨hvl, hvr⟩ := List.forall_mem_append.mp hv
    rw [verdict, verdict, ihl hsl hvl, ihr hsr hvr]
  | not c ih => rw [verdict, verdict, ih hs hv]
  | comparison left operator right =>
    rw [verdict, verdict, comparison_congr (hs _ (List.mem_singleton_self _)) hv hpredicates]
  | «exists» s name =>
    have hvalues : ctx.propertyValues tuple ⟨s, some name⟩ =
        (ctx.rebind bindings).propertyValues tuple' ⟨s, some name⟩ :=
      propertyValues_congr (hs s (List.mem_singleton_self s))
    rw [verdict, propertyExists, hvalues]
    rfl
  | fullText predicate =>
    rw [verdict, verdict, fullText_congr (hs _ (List.mem_singleton_self _)) hv]
  | structural relation s path =>
    rw [verdict, structural_congr (hs s (List.mem_singleton_self s))]
    rfl

/-! ## Joins -/

/-- So does a comparison of each value with each other one. -/
theorem anyPair_congr {ctx ctx' : Context} (hnames : ctx.names = ctx'.names)
    (left right : List Value) : ctx.anyPair left right = ctx'.anyPair left right := by
  induction right with
  | nil => rfl
  | cons v rest ih => rw [anyPair, anyPair, ih, anyValue_congr hnames]

/-- A join on equal values reads its two selectors and no variables. -/
theorem equalJoin_congr {left right : PropertyOperand}
    (hs : tuple.AgreeOn tuple' [left.selector, right.selector]) :
    ctx.equalJoin tuple left right = (ctx.rebind bindings).equalJoin tuple' left right := by
  obtain ⟨hleft, hright⟩ := hs.pair
  have hpair : ctx.anyPair = (ctx.rebind bindings).anyPair :=
    funext₂ (anyPair_congr (names_rebind ctx bindings))
  rw [equalJoin, propertyValues_congr hleft, propertyValues_congr hright, hpair]
  rfl

theorem sameNodeJoin_congr {s₁ s₂ : SelectorName} (hs : tuple.AgreeOn tuple' [s₁, s₂])
    (path : Option Path) :
    ctx.sameNodeJoin tuple s₁ s₂ path = (ctx.rebind bindings).sameNodeJoin tuple' s₁ s₂ path := by
  obtain ⟨hs₁, hs₂⟩ := hs.pair
  rw [sameNodeJoin, bound_congr hs₁, bound_congr hs₂]
  rfl

theorem belowJoin_congr {s₁ s₂ : SelectorName} (hs : tuple.AgreeOn tuple' [s₁, s₂])
    (relation : NodeRelation) :
    ctx.belowJoin tuple relation s₁ s₂ =
      (ctx.rebind bindings).belowJoin tuple' relation s₁ s₂ := by
  obtain ⟨hs₁, hs₂⟩ := hs.pair
  rw [belowJoin, bound_congr hs₁, bound_congr hs₂]
  rfl

/-- A join condition reads the nodes of its two selectors. -/
theorem joinVerdict_congr {condition : JoinCondition}
    (hs : tuple.AgreeOn tuple' condition.selectors) :
    ctx.joinVerdict tuple condition = (ctx.rebind bindings).joinVerdict tuple' condition := by
  refine congrArg ctx.policy.settle ?_
  cases condition with
  | equal s₁ p₁ s₂ p₂ => exact equalJoin_congr hs
  | sameNode s₁ s₂ path => exact sameNodeJoin_congr hs path
  | childNode child parent => exact belowJoin_congr hs .child
  | descendantNode descendant ancestor => exact belowJoin_congr hs .descendant

/-- **Evaluation reads nothing it does not name.** With the same tree, names, policy, searcher and
predicates, on tuples that agree on the selectors of an operand, a constraint or a join condition, and
with variables that agree where it and the predicates mention them, evaluating it gives the same
values, the same verdict or the same error. -/
theorem evaluation_eq_of_agree (ctx : Context) (bindings : Bindings) (tuple tuple' : NodeTuple)
    (hpredicates : ctx.PredicatesAgree bindings) :
    (∀ operand : DynamicOperand, tuple.AgreeOn tuple' [operand.selector] →
        ctx.values tuple operand = (ctx.rebind bindings).values tuple' operand) ∧
      (∀ c : Constraint, tuple.AgreeOn tuple' c.selectors →
        ctx.bindings.AgreeOn bindings c.variableNames →
          ctx.verdict tuple c = (ctx.rebind bindings).verdict tuple' c) ∧
      ∀ condition : JoinCondition, tuple.AgreeOn tuple' condition.selectors →
        ctx.joinVerdict tuple condition = (ctx.rebind bindings).joinVerdict tuple' condition :=
  ⟨fun _ hs => values_congr (hs _ (List.mem_singleton_self _)) hpredicates,
    fun _ hs hv => verdict_congr hs hv hpredicates, fun _ hs => joinVerdict_congr hs⟩

/-- A score whose search mentions one of two variables, on tuples that differ in another selector,
with bindings that differ in the other variable. -/
theorem evaluation_eq_of_agree_score :
    let search : FullTextPredicate := ⟨⟨"s"⟩, none, .variable ⟨"words"⟩⟩
    let ctx : Context := { ofTree .empty with
      bindings := ⟨[(⟨"words"⟩, [.string "a"]), (⟨"other"⟩, [])]⟩
      predicates := [search] }
    let bindings : Bindings := ⟨[(⟨"other"⟩, [.boolean true]), (⟨"words"⟩, [.string "a"])]⟩
    let tuple : NodeTuple := ⟨[(⟨"s"⟩, some 0), (⟨"t"⟩, none)]⟩
    let tuple' : NodeTuple := ⟨[(⟨"t"⟩, some 0), (⟨"s"⟩, some 0)]⟩
    let join : JoinCondition := .sameNode ⟨"s"⟩ ⟨"s"⟩ none
    ctx.PredicatesAgree bindings ∧
      tuple.AgreeOn tuple' [⟨"s"⟩] ∧ tuple.AgreeOn tuple' join.selectors ∧
      ctx.bindings.AgreeOn bindings (Constraint.fullText search).variableNames ∧
      ctx.values tuple (.score ⟨"s"⟩) = (ctx.rebind bindings).values tuple' (.score ⟨"s"⟩) ∧
      ctx.verdict tuple (.fullText search) =
        (ctx.rebind bindings).verdict tuple' (.fullText search) ∧
      ctx.joinVerdict tuple join = (ctx.rebind bindings).joinVerdict tuple' join ∧
      ctx.verdict tuple (.structural .same ⟨"t"⟩ .root) ≠
        (ctx.rebind bindings).verdict tuple' (.structural .same ⟨"t"⟩ .root) := by
  intro search ctx bindings tuple tuple' join
  have hwords : ctx.bindings.AgreeOn bindings search.expression.variableNames := by
    intro v hv
    obtain rfl := List.mem_singleton.mp hv
    decide +kernel
  have hpredicates : ctx.PredicatesAgree bindings := by
    intro predicate hmem
    obtain rfl := List.mem_singleton.mp hmem
    exact hwords
  have hs : tuple.AgreeOn tuple' [⟨"s"⟩] := by
    intro s hs
    obtain rfl := List.mem_singleton.mp hs
    decide +kernel
  have hjoin : tuple.AgreeOn tuple' join.selectors := by
    intro s hmem
    exact hs s (by simpa [join, JoinCondition.selectors] using hmem)
  have h := evaluation_eq_of_agree ctx bindings tuple tuple' hpredicates
  exact ⟨hpredicates, hs, hjoin, hwords, h.1 (.score ⟨"s"⟩) hs, h.2.1 (.fullText search) hs hwords,
    h.2.2 join hjoin, by decide +kernel⟩

end Context

end ContentQuery
