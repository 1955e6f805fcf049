import ContentQuery.Proofs.Outcome
import ContentQuery.Query.Builder
import ContentQuery.Query.Statement

/-! # The namespaces a statement needs

A statement writes each name with the prefix of its namespace. The namespaces of a query are listed in
the order in which its text comes to them, and writing a part of it fails with the first of its
namespaces that has no prefix, and not otherwise (`NeedsPrefixes`). Sequences keep this with the lists
joined, so each writer has the list of its part by its own shape.
-/

namespace ContentQuery

open Naming

/-! ## Namespaces in the order of the text -/

/-- The namespace of the name that a step descends to. -/
def Naming.Step.namespaces : Step → List String
  | .named n _ => [n.uri]
  | .current | .parent => []

/-- The namespaces of the names in a path. -/
def Naming.Path.namespaces (p : Path) : List String := p.steps.flatMap Step.namespaces

/-- The namespaces of a name or of a path; other values have none. -/
def Value.namespaces : Value → List String
  | .name n => [n.uri]
  | .path p => p.namespaces
  | _ => []

/-- The namespaces of a static operand. -/
def StaticOperand.namespaces : StaticOperand → List String
  | literal v => v.namespaces
  | «variable» _ => []

/-- The namespace of a property; all properties together have none. -/
def PropertyOperand.namespaces (operand : PropertyOperand) : List String :=
  (operand.property.map Name.uri).toList

/-- The namespaces of a dynamic operand. -/
def DynamicOperand.namespaces : DynamicOperand → List String
  | property operand | length operand => operand.namespaces
  | nodeName _ | localName _ | score _ => []
  | upper operand | lower operand => operand.namespaces

/-- The namespaces of a constraint, from left to right. -/
def Constraint.namespaces : Constraint → List String
  | and left right | or left right => left.namespaces ++ right.namespaces
  | not constraint => constraint.namespaces
  | comparison left _ right => left.namespaces ++ right.namespaces
  | «exists» _ p => [p.uri]
  | fullText predicate =>
    (predicate.property.map Name.uri).toList ++ predicate.expression.namespaces
  | structural _ _ p => p.namespaces

/-- The namespaces of a join condition. -/
def JoinCondition.namespaces : JoinCondition → List String
  | equal _ p₁ _ p₂ => [p₁.uri, p₂.uri]
  | sameNode _ _ path => (path.map Path.namespaces).getD []
  | childNode .. | descendantNode .. => []

/-- The namespaces of a source: of both sides of a join, then of its condition. -/
def Source.namespaces : Source → List String
  | selector type _ => [type.uri]
  | join left right _ condition => left.namespaces ++ right.namespaces ++ condition.namespaces

/-- The namespaces of a query: of its columns, source, constraint and orderings. -/
def Query.namespaces (query : Query) : List String :=
  query.columns.flatMap (·.operand.namespaces) ++ query.source.namespaces ++
    (query.constraint.map Constraint.namespaces).getD [] ++
    query.orderings.flatMap (·.operand.namespaces)

namespace Statement

variable {α β : Type} {names : Registry}

/-! ## Needing prefixes -/

/-- A computation that fails with the first of the namespaces that has no prefix, and succeeds if all
of them have one. -/
def NeedsPrefixes (names : Registry) (uris : List String) (x : Except ResolveError α) : Prop :=
  match uris.find? fun uri => (names.prefixOf? uri).isNone with
  | some uri => x = .error (.unknownNamespace uri)
  | none => ∃ a, x = .ok a

theorem NeedsPrefixes.ok (a : α) : NeedsPrefixes names [] (.ok a) := ⟨a, rfl⟩

/-- A sequence needs what its first step needs, and then what its second step needs. -/
theorem NeedsPrefixes.bind {uris uris' : List String} {x : Except ResolveError α}
    {f : α → Except ResolveError β} (hx : NeedsPrefixes names uris x)
    (hf : ∀ a, NeedsPrefixes names uris' (f a)) :
    NeedsPrefixes names (uris ++ uris') (x >>= f) := by
  unfold NeedsPrefixes at hx
  rw [NeedsPrefixes, List.find?_append]
  cases hfirst : uris.find? fun uri => (names.prefixOf? uri).isNone with
  | some uri =>
    rw [hfirst] at hx
    rw [hx]
    rfl
  | none =>
    rw [hfirst] at hx
    obtain ⟨a, rfl⟩ := hx
    exact hf a

/-- Making something of a result needs nothing more. -/
theorem NeedsPrefixes.map {uris : List String} {x : Except ResolveError α}
    (hx : NeedsPrefixes names uris x) (g : α → β) :
    NeedsPrefixes names uris (do return g (← x)) := by
  have hbind := hx.bind fun a => .ok (g a)
  rwa [List.append_nil] at hbind

/-- Going through a list needs what its members need, in their order. -/
theorem NeedsPrefixes.mapM {f : α → Except ResolveError β} {uris : α → List String}
    (h : ∀ a, NeedsPrefixes names (uris a) (f a)) (as : List α) :
    NeedsPrefixes names (as.flatMap uris) (as.mapM f) := by
  induction as with
  | nil => exact .ok []
  | cons a as ih =>
    rw [List.mapM_cons, List.flatMap_cons]
    exact (h a).bind fun b => ih.map fun bs => b :: bs

/-- A text that needs prefixes fails exactly if one of them is missing. -/
theorem NeedsPrefixes.exists_error_iff {uris : List String} {x : Except ResolveError α}
    (h : NeedsPrefixes names uris x) :
    (∃ e, x = .error e) ↔ ∃ uri ∈ uris, names.prefixOf? uri = none := by
  unfold NeedsPrefixes at h
  cases hfirst : uris.find? fun uri => (names.prefixOf? uri).isNone with
  | some uri =>
    rw [hfirst] at h
    exact iff_of_true ⟨_, h⟩ ⟨uri, List.mem_of_find?_eq_some hfirst, by
      simpa using List.find?_some hfirst⟩
  | none =>
    rw [hfirst] at h
    obtain ⟨a, rfl⟩ := h
    refine iff_of_false (by rintro ⟨e, ⟨⟩⟩) ?_
    rintro ⟨uri, hmem, hnone⟩
    simpa [hnone] using List.find?_eq_none.mp hfirst uri hmem

/-- The error tells the first namespace without a prefix. -/
theorem NeedsPrefixes.eq_error_iff {uris : List String} {x : Except ResolveError α}
    (h : NeedsPrefixes names uris x) (e : ResolveError) :
    x = .error e ↔ ∃ before uri after, uris = before ++ uri :: after ∧
      (∀ u ∈ before, names.prefixOf? u ≠ none) ∧ names.prefixOf? uri = none ∧
      e = .unknownNamespace uri := by
  unfold NeedsPrefixes at h
  constructor
  · rintro rfl
    -- the error names the first namespace that is found without a prefix
    cases hfirst : uris.find? fun uri => (names.prefixOf? uri).isNone with
    | some uri =>
      rw [hfirst] at h
      obtain ⟨hnone, before, after, huris, hbefore⟩ := List.find?_eq_some_iff_append.mp hfirst
      exact ⟨before, uri, after, huris, by simpa [Option.isSome_iff_ne_none] using hbefore,
        by simpa using hnone, Except.error.inj h⟩
    | none =>
      rw [hfirst] at h
      obtain ⟨a, ⟨⟩⟩ := h
  · rintro ⟨before, uri, after, huris, hbefore, hnone, rfl⟩
    have hfirst : (uris.find? fun uri => (names.prefixOf? uri).isNone) = some uri :=
      List.find?_eq_some_iff_append.mpr
        ⟨by simpa using hnone, before, after, huris,
          by simpa [Option.isSome_iff_ne_none] using hbefore⟩
    rwa [hfirst] at h

/-! ## Names and paths -/

theorem needsPrefixes_name (n : Name) : NeedsPrefixes names [n.uri] (names.nameText n) := by
  rw [NeedsPrefixes, Registry.nameText]
  cases hlabel : names.prefixOf? n.uri with
  | none => simp [hlabel]
  | some label => simp [hlabel]

/-- A step needs one if it is a name. -/
theorem needsPrefixes_step (s : Step) :
    NeedsPrefixes names s.namespaces (names.stepText s) := by
  cases s with
  | current | parent => exact .ok _
  | named n index => exact (needsPrefixes_name n).map fun t => Step.textWith t index

/-- A path needs those of its steps, from the first on. -/
theorem needsPrefixes_path (p : Path) :
    NeedsPrefixes names p.namespaces (names.pathText p) :=
  (NeedsPrefixes.mapM needsPrefixes_step p.steps).map (Path.textOfSteps p.absolute)

theorem needsPrefixes_nameText (n : Name) : NeedsPrefixes names [n.uri] (nameText names n) :=
  (needsPrefixes_name n).map escapeName

theorem needsPrefixes_pathText (p : Path) : NeedsPrefixes names p.namespaces (pathText names p) :=
  (needsPrefixes_path p).map escapePath

/-! ## Operands -/

/-- A property needs that of its name, and a whole selector none. -/
theorem needsPrefixes_propertyText (operand : PropertyOperand) :
    NeedsPrefixes names operand.namespaces (propertyText names operand) := by
  obtain ⟨s, property⟩ := operand
  cases property with
  | none => exact .ok _
  | some n => exact (needsPrefixes_nameText n).map fun t => selectorText s ++ "." ++ t

/-- Of the values only names and paths need prefixes. -/
theorem needsPrefixes_lexical (v : Value) : NeedsPrefixes names v.namespaces (v.lexical names) := by
  cases v with
  | name n => exact needsPrefixes_name n
  | path p => exact needsPrefixes_path p
  | _ => exact .ok _

/-- A literal needs the prefixes of its text, if it has to be cast. -/
theorem needsPrefixes_literalText (v : Value) :
    NeedsPrefixes names v.namespaces (literalText names v) := by
  cases v with
  | string | long | double => exact .ok _
  | boolean | date | binary | name | path | reference =>
    exact (needsPrefixes_lexical _).map fun t => castText t _

/-- A literal needs those of its value, and a variable none. -/
theorem needsPrefixes_staticText (operand : StaticOperand) :
    NeedsPrefixes names operand.namespaces (staticText names operand) := by
  cases operand with
  | literal v => exact needsPrefixes_literalText v
  | «variable» v => exact .ok _

theorem needsPrefixes_dynamicText (operand : DynamicOperand) :
    NeedsPrefixes names operand.namespaces (dynamicText names operand) := by
  induction operand with
  | property operand => exact needsPrefixes_propertyText operand
  | length operand => exact (needsPrefixes_propertyText operand).map fun t => "LENGTH(" ++ t ++ ")"
  | nodeName s | localName s | score s => exact .ok _
  | upper operand ih => exact ih.map fun t => "UPPER(" ++ t ++ ")"
  | lower operand ih => exact ih.map fun t => "LOWER(" ++ t ++ ")"

/-! ## Constraints and sources -/

/-- A constraint needs those of its parts, from the left to the right. -/
theorem needsPrefixes_constraintText (c : Constraint) :
    NeedsPrefixes names c.namespaces (constraintText names c) := by
  induction c with
  | and left right ihl ihr => exact ihl.bind fun _ => ihr.map _
  | or left right ihl ihr => exact ihl.bind fun _ => ihr.map _
  | not c ih => exact ih.map _
  | comparison left operator right =>
    exact (needsPrefixes_dynamicText left).bind fun _ => (needsPrefixes_staticText right).map _
  | «exists» s p => exact (needsPrefixes_propertyText ⟨s, some p⟩).map _
  | fullText predicate =>
    exact (needsPrefixes_propertyText ⟨predicate.selector, predicate.property⟩).bind fun _ =>
      (needsPrefixes_staticText predicate.expression).map _
  | structural relation s p => exact (needsPrefixes_pathText p).map _

/-- A join condition needs those of its properties, or of its path. -/
theorem needsPrefixes_conditionText (condition : JoinCondition) :
    NeedsPrefixes names condition.namespaces (conditionText names condition) := by
  cases condition with
  | equal s₁ p₁ s₂ p₂ =>
    exact (needsPrefixes_propertyText ⟨s₁, some p₁⟩).bind fun _ =>
      (needsPrefixes_propertyText ⟨s₂, some p₂⟩).map _
  | sameNode s₁ s₂ path =>
    cases path with
    | none => exact .ok _
    | some p => exact (needsPrefixes_pathText p).map _
  | childNode child parent => exact .ok _
  | descendantNode descendant ancestor => exact .ok _

/-- A source needs those of its node types and conditions, in the order of the text. -/
theorem needsPrefixes_sourceText (source : Source) :
    NeedsPrefixes names source.namespaces (sourceText names source) := by
  induction source with
  | selector type s => exact (needsPrefixes_nameText type).map _
  | join left right type condition ihl ihr =>
    rw [Source.namespaces, List.append_assoc]
    exact ihl.bind fun _ => ihr.bind fun _ => (needsPrefixes_conditionText condition).map _

/-! ## Queries -/

theorem needsPrefixes_columnText (column : Column) :
    NeedsPrefixes names column.operand.namespaces (columnText names column) := by
  obtain ⟨operand, label⟩ := column
  cases label with
  | none => exact (needsPrefixes_propertyText operand).map _
  | some label => exact (needsPrefixes_propertyText operand).map _

theorem needsPrefixes_orderingText (ordering : SortCriterion) :
    NeedsPrefixes names ordering.operand.namespaces (orderingText names ordering) :=
  (needsPrefixes_dynamicText ordering.operand).map _

/-- Columns need theirs one after the other. -/
theorem needsPrefixes_columnsText (columns : List Column) :
    NeedsPrefixes names (columns.flatMap (·.operand.namespaces)) (columnsText names columns) := by
  cases columns with
  | nil => exact .ok _
  | cons column columns =>
    rw [columnsText, if_neg (List.cons_ne_nil _ _)]
    exact (NeedsPrefixes.mapM needsPrefixes_columnText _).map _

theorem needsPrefixes_whereText (c : Option Constraint) :
    NeedsPrefixes names ((c.map Constraint.namespaces).getD []) (whereText names c) := by
  cases c with
  | none => exact .ok _
  | some c => exact (needsPrefixes_constraintText c).map _

theorem needsPrefixes_orderByText (orderings : List SortCriterion) :
    NeedsPrefixes names (orderings.flatMap (·.operand.namespaces)) (orderByText names orderings) := by
  cases orderings with
  | nil => exact .ok _
  | cons ordering orderings =>
    rw [orderByText, if_neg (List.cons_ne_nil _ _)]
    exact (NeedsPrefixes.mapM needsPrefixes_orderingText _).map _

/-- A query needs those of its columns, source, constraint and orderings, in this order. -/
theorem needsPrefixes_queryText (query : Query) :
    NeedsPrefixes names query.namespaces (queryText names query) := by
  rw [Query.namespaces, List.append_assoc, List.append_assoc]
  exact (needsPrefixes_columnsText query.columns).bind fun _ =>
    (needsPrefixes_sourceText query.source).bind fun _ =>
      (needsPrefixes_whereText query.constraint).bind fun _ =>
        (needsPrefixes_orderByText query.orderings).map _

/-- The builder reports what cannot be resolved as such. -/
theorem resolved_eq_error_iff {x : Except ResolveError α} {e : QueryError} :
    Builder.resolved x = .error e ↔ ∃ cause, x = .error cause ∧ e = .unresolvableName cause := by
  cases x <;> simp [Builder.resolved, Except.mapError, eq_comm]

/-- **A statement cannot be written exactly for want of a prefix.** Writing a query fails if a name in
it, or a name in a path in it, has a namespace without a prefix, and only then; and it fails with the
first such namespace in the order of columns, source, constraint and orderings. -/
theorem queryText_eq_error_iff (names : Registry) (query : Query) :
    ((∃ e, Builder.resolved (queryText names query) = .error e) ↔
      ∃ uri ∈ query.namespaces, names.prefixOf? uri = none) ∧
    ∀ e, Builder.resolved (queryText names query) = .error e ↔
      ∃ before uri after, query.namespaces = before ++ uri :: after ∧
        (∀ u ∈ before, names.prefixOf? u ≠ none) ∧ names.prefixOf? uri = none ∧
        e = .unresolvableName (.unknownNamespace uri) := by
  -- the text fails for its prefixes only, in the order of rendering
  have hneeds : NeedsPrefixes names query.namespaces (queryText names query) :=
    needsPrefixes_queryText query
  constructor
  · rw [← hneeds.exists_error_iff]
    simp only [resolved_eq_error_iff]
    constructor
    · rintro ⟨e, cause, hcause, -⟩
      exact ⟨cause, hcause⟩
    · rintro ⟨cause, hcause⟩
      exact ⟨_, cause, hcause, rfl⟩
  · intro e
    rw [resolved_eq_error_iff]
    constructor
    · rintro ⟨cause, hcause, rfl⟩
      obtain ⟨before, uri, after, huris, hbefore, hnone, rfl⟩ :=
        (hneeds.eq_error_iff cause).mp hcause
      exact ⟨before, uri, after, huris, hbefore, hnone, rfl⟩
    · rintro ⟨before, uri, after, huris, hbefore, hnone, rfl⟩
      exact ⟨_, (hneeds.eq_error_iff _).mpr ⟨before, uri, after, huris, hbefore, hnone, rfl⟩, rfl⟩

/-- Of two namespaces without prefixes the one in the columns is told, which are written before the
source. -/
example :
    let query : Query := ⟨.selector ⟨"urn:b", "type"⟩ ⟨"s"⟩, none, [],
      [⟨⟨⟨"s"⟩, some ⟨"urn:a", "p"⟩⟩, none⟩]⟩
    queryText .standard query = .error (.unknownNamespace "urn:a") := by
  decide +kernel

end Statement

end ContentQuery
