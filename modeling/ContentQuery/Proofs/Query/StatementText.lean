import ContentQuery.Proofs.Naming.Registry
import ContentQuery.Proofs.Query.ConstraintText
import ContentQuery.Proofs.Query.SourceText

/-! # A statement determines its query

A statement is its columns, source, constraint and orderings, each in front of the keyword of the
next. All four are delimited by these keywords, so two queries that are built from any texts and
written alike are one query.
-/

namespace ContentQuery.Statement

open Naming Text

variable {names : Registry}

/-! ## Columns and orderings -/

/-- All that is read of a column is legal. -/
def IsLegalColumn (c : Column) : Prop := c.operand.IsLegal

/-- All that is read of an ordering is legal. -/
def IsLegalOrdering (o : SortCriterion) : Prop := o.operand.IsLegal

/-- What follows a column: no label. -/
def EndsColumn (rest : List Char) : Prop :=
  Ends rest ∧ ∀ after, rest ≠ " AS ".toList ++ after

/-- A column is a property, and maybe a label. -/
theorem columnText_cases {c : Column} {t : String} (h : columnText names c = .ok t) :
    ∃ p rest, propertyText names c.operand = .ok p ∧ t.toList = p.toList ++ rest ∧
      (c.label = none ∧ rest = [] ∨
        ∃ label, c.label = some label ∧ rest = " AS ".toList ++ (escapeName label).toList) := by
  obtain ⟨operand, label⟩ := c
  simp only [columnText, bind_eq_ok_iff] at h
  obtain ⟨p, hp, h⟩ := h
  cases label with
  | none =>
    rw [pure_eq_ok_iff] at h
    exact ⟨p, [], hp, by simp [h], .inl ⟨rfl, rfl⟩⟩
  | some label =>
    rw [pure_eq_ok_iff] at h
    exact ⟨p, " AS ".toList ++ (escapeName label).toList, hp, by simp [← h],
      .inr ⟨label, rfl, rfl⟩⟩

section Parts

variable (hp : names.Paired)
include hp

/-- A column shows where it ends, unless a label follows. -/
theorem delimited_columnText (c : Column) :
    Delimited EndsColumn (Writes IsLegalColumn (columnText names)) c := by
  rintro c' s t u v ⟨hc, hs⟩ ⟨hc', ht⟩ ⟨hu, hnou⟩ ⟨hv, hnov⟩ h
  obtain ⟨p, rest, hps, hs, hcase⟩ := columnText_cases hs
  obtain ⟨p', rest', hps', ht, hcase'⟩ := columnText_cases ht
  rw [hs, ht, List.append_assoc, List.append_assoc] at h
  have hends : Ends (rest ++ u) := by
    rcases hcase with ⟨-, rfl⟩ | ⟨label, -, rfl⟩
    · exact hu
    · simp
  have hends' : Ends (rest' ++ v) := by
    rcases hcase' with ⟨-, rfl⟩ | ⟨label, -, rfl⟩
    · exact hv
    · simp
  obtain ⟨hoperand, hrest⟩ :=
    delimited_propertyText hp _ ⟨hc, hps⟩ ⟨hc', hps'⟩ hends hends' h
  suffices hlabel : c.label = c'.label ∧ u = v from
    ⟨congrArg₂ Column.mk hoperand hlabel.1, hlabel.2⟩
  -- both columns have a label or none has, as none may be followed by one
  rcases hcase with ⟨hl, rfl⟩ | ⟨label, hl, rfl⟩ <;>
    rcases hcase' with ⟨hl', rfl⟩ | ⟨label', hl', rfl⟩
  · exact ⟨hl.trans hl'.symm, hrest⟩
  · rw [List.append_assoc] at hrest
    exact absurd hrest (hnou _)
  · rw [List.append_assoc] at hrest
    exact absurd hrest.symm (hnov _)
  · rw [List.append_assoc, List.append_assoc] at hrest
    obtain ⟨rfl, huv⟩ := escapeName_append_cancel hu hv (List.append_cancel_left hrest)
    exact ⟨hl.trans hl'.symm, huv⟩

omit hp in
/-- A direction is known from the text it stands in front of. -/
theorem direction_append_cancel {d d' : Direction} {u v : List Char}
    (h : d.keyword.toList ++ u = d'.keyword.toList ++ v) : d = d' ∧ u = v := by
  cases d <;> cases d' <;> simp [Direction.keyword] at h ⊢ <;> exact h

/-- An ordering shows where it ends. -/
theorem delimited_orderingText (o : SortCriterion) :
    Delimited Ends (Writes IsLegalOrdering (orderingText names)) o := by
  rintro o' s t u v ⟨ho, hs⟩ ⟨ho', ht⟩ hu hv h
  simp only [orderingText, bind_eq_ok_iff, pure_eq_ok_iff] at hs ht
  obtain ⟨a, ha, rfl⟩ := hs
  obtain ⟨b, hb, rfl⟩ := ht
  have hparts : a.toList ++ (" ".toList ++ (o.direction.keyword.toList ++ u)) =
      b.toList ++ (" ".toList ++ (o'.direction.keyword.toList ++ v)) := by simpa using h
  obtain ⟨hoperand, hrest⟩ :=
    delimited_dynamicText hp _ ⟨ho, ha⟩ ⟨ho', hb⟩ (by simp) (by simp) hparts
  obtain ⟨hdirection, huv⟩ := direction_append_cancel (List.append_cancel_left hrest)
  exact ⟨congrArg₂ SortCriterion.mk hoperand hdirection, huv⟩

/-! ## Clauses -/

/-- What follows the columns: no label and no further column. -/
def EndsColumns (rest : List Char) : Prop := EndsColumn rest ∧ rest.head? ≠ some ','

omit hp in
/-- The columns are a star, or a list with commas. -/
theorem columnsText_cases {columns : List Column} (hcolumns : ∀ c ∈ columns, IsLegalColumn c)
    {t : String} (h : columnsText names columns = .ok t) :
    (columns = [] ∧ t.toList = ['*']) ∨
      CommaList (Writes IsLegalColumn (columnText names)) columns t := by
  unfold columnsText at h
  split at h
  · next hnil =>
    rw [pure_eq_ok_iff] at h
    exact .inl ⟨hnil, by simp [← h]⟩
  · next hne =>
    simp only [bind_eq_ok_iff, pure_eq_ok_iff, mapM_eq_ok_iff] at h
    obtain ⟨texts, htexts, rfl⟩ := h
    exact .inr ⟨hne, texts, (List.forall₂_and_left _ _).mpr ⟨hcolumns, htexts⟩, rfl⟩

omit hp in
/-- A list of columns does not start with a star. -/
theorem commaList_columnText_ne_star {columns : List Column} {t : String}
    (h : CommaList (Writes IsLegalColumn (columnText names)) columns t) (u v : List Char) :
    t.toList ++ u ≠ '*' :: v := by
  obtain ⟨c, rest, s, ss, rfl, ⟨-, hs⟩, -, ht⟩ := h.cases
  obtain ⟨p, after, hps, hs, -⟩ := columnText_cases hs
  obtain ⟨property, hproperty, -⟩ := propertyText_cases hps
  rw [ht, hs, hproperty]
  simp only [List.append_assoc]
  exact escapeName_append_ne_cons _ (by decide) (by decide) (by decide) _ _

/-- The columns show where they end. -/
theorem delimited_columnsText (columns : List Column) :
    Delimited EndsColumns (Writes (∀ c ∈ ·, IsLegalColumn c) (columnsText names)) columns := by
  rintro columns' s t u v ⟨hlegal, hs⟩ ⟨hlegal', ht⟩ hu hv h
  rcases columnsText_cases hlegal hs with ⟨rfl, hstar⟩ | hlist <;>
    rcases columnsText_cases hlegal' ht with ⟨rfl, hstar'⟩ | hlist'
  · rw [hstar, hstar'] at h
    exact ⟨rfl, (List.cons.inj h).2⟩
  · rw [hstar] at h
    exact absurd h.symm (commaList_columnText_ne_star hlist' v _)
  · rw [hstar'] at h
    exact absurd h (commaList_columnText_ne_star hlist u _)
  · exact delimited_commaList (fun u => ⟨by simp, by simp⟩) (delimited_columnText hp) columns hlist
      hlist' hu hv h

omit hp in
/-- The orderings are nothing, or a list with commas behind the keyword. -/
theorem orderByText_cases {orderings : List SortCriterion}
    (horderings : ∀ o ∈ orderings, IsLegalOrdering o) {t : String}
    (h : orderByText names orderings = .ok t) :
    (orderings = [] ∧ t.toList = []) ∨
      ∃ list, CommaList (Writes IsLegalOrdering (orderingText names)) orderings list ∧
        t.toList = " ORDER BY ".toList ++ list.toList := by
  unfold orderByText at h
  split at h
  · next hnil =>
    rw [pure_eq_ok_iff] at h
    exact .inl ⟨hnil, by simp [← h]⟩
  · next hne =>
    simp only [bind_eq_ok_iff, pure_eq_ok_iff, mapM_eq_ok_iff] at h
    obtain ⟨texts, htexts, rfl⟩ := h
    exact .inr ⟨_, ⟨hne, texts, (List.forall₂_and_left _ _).mpr ⟨horderings, htexts⟩, rfl⟩, by simp⟩

/-- The orderings are known from their text. -/
theorem orderings_eq_of_orderByText {orderings orderings' : List SortCriterion}
    (hlegal : ∀ o ∈ orderings, IsLegalOrdering o) (hlegal' : ∀ o ∈ orderings', IsLegalOrdering o)
    {s t : String} (hs : orderByText names orderings = .ok s)
    (ht : orderByText names orderings' = .ok t) (h : s.toList = t.toList) :
    orderings = orderings' := by
  rcases orderByText_cases hlegal hs with ⟨rfl, hsText⟩ | ⟨list, hlist, hsText⟩ <;>
    rcases orderByText_cases hlegal' ht with ⟨rfl, htText⟩ | ⟨list', hlist', htText⟩ <;>
    rw [hsText, htText] at h
  · simp at h
  · simp at h
  · have hlists : list.toList ++ [] = list'.toList ++ [] := by simpa using h
    exact (delimited_commaList (by simp) (delimited_orderingText hp) orderings hlist hlist'
      ⟨by simp, by simp⟩ ⟨by simp, by simp⟩ hlists).1

omit hp in
/-- The constraint is nothing, or stands behind the keyword. -/
theorem whereText_cases {c : Option Constraint} {t : String} (h : whereText names c = .ok t) :
    (c = none ∧ t.toList = []) ∨ ∃ c' s, c = some c' ∧ constraintText names c' = .ok s ∧
      t.toList = " WHERE ".toList ++ s.toList := by
  cases c with
  | none =>
    cases h
    exact .inl ⟨rfl, rfl⟩
  | some c =>
    simp only [whereText, bind_eq_ok_iff, pure_eq_ok_iff] at h
    obtain ⟨s, hs, rfl⟩ := h
    exact .inr ⟨c, s, rfl, hs, by simp⟩

/-- What follows a constraint in a statement: the orderings, if there are any. -/
def OrderingsFollow (rest : List Char) : Prop := rest = [] ∨ ∃ after, rest = " ORDER BY ".toList ++ after

/-- The constraint shows where it ends if orderings or nothing follow. -/
theorem delimited_whereText (hr : names.PrefixesAvoid ['/', '[', ']']) (c : Option Constraint) :
    Delimited OrderingsFollow (Writes (∀ c ∈ ·, c.IsLegal) (whereText names)) c := by
  have hends : ∀ {u}, OrderingsFollow u → EndsConstraint u := by
    rintro u (rfl | ⟨after, rfl⟩) <;> exact ⟨by simp, by simp⟩
  -- what may follow never starts like a constraint, so there is one in both texts or in none
  have hno : ∀ {u after}, OrderingsFollow u → u ≠ " WHERE ".toList ++ after := by
    rintro u after (rfl | ⟨after', rfl⟩) <;> simp
  rintro c' s t u v ⟨hc, hs⟩ ⟨hc', ht⟩ hu hv h
  rcases whereText_cases hs with ⟨rfl, hsText⟩ | ⟨c₁, s₁, rfl, hs₁, hsText⟩ <;>
    rcases whereText_cases ht with ⟨rfl, htText⟩ | ⟨c₂, t₁, rfl, ht₁, htText⟩ <;> rw [hsText, htText] at h
  · exact ⟨rfl, h⟩
  · rw [List.append_assoc] at h
    exact absurd h (hno hu)
  · rw [List.append_assoc] at h
    exact absurd h.symm (hno hv)
  · rw [List.append_assoc, List.append_assoc] at h
    obtain ⟨rfl, huv⟩ := delimited_constraintText hp hr c₁ ⟨hc c₁ rfl, hs₁⟩ ⟨hc' c₂ rfl, ht₁⟩
      (hends hu) (hends hv) (List.append_cancel_left h)
    exact ⟨rfl, huv⟩

/-! ## Statements -/

omit hp in
/-- Behind a source stand the constraint and the orderings, neither of which is a join. -/
theorem endsSource_clauses {c : Option Constraint} {w : String} (hw : whereText names c = .ok w)
    {o : List Char} (ho : OrderingsFollow o) : EndsSource (w.toList ++ o) := by
  have hno : ∀ rest, rest = [] ∨ (∃ after, rest = " WHERE ".toList ++ after) ∨
      (∃ after, rest = " ORDER BY ".toList ++ after) → EndsSource rest := by
    rintro rest (rfl | ⟨after, rfl⟩ | ⟨after, rfl⟩) <;> refine ⟨by simp, fun type after' => ?_⟩ <;>
      cases type <;> simp [JoinType.keywords, JoinType.shortKeywords]
  rcases whereText_cases hw with ⟨-, hw⟩ | ⟨_, s, -, -, hw⟩ <;> rw [hw]
  · rcases ho with rfl | ⟨after, rfl⟩
    · exact hno _ (.inl rfl)
    · exact hno _ (.inr (.inr ⟨after, rfl⟩))
  · rw [List.append_assoc]
    exact hno _ (.inr (.inl ⟨_, rfl⟩))

omit hp in
/-- What stands behind a constraint is nothing, or a space and the keywords of the orderings. -/
theorem orderingsFollow_orderByText {orderings : List SortCriterion}
    (horderings : ∀ o ∈ orderings, IsLegalOrdering o) {t : String}
    (h : orderByText names orderings = .ok t) : OrderingsFollow t.toList := by
  rcases orderByText_cases horderings h with ⟨-, ht⟩ | ⟨list, -, ht⟩
  · exact .inl ht
  · exact .inr ⟨list.toList, ht⟩

/-- Two legal queries with one statement are one query. -/
theorem query_eq_of_legal (hr : names.PrefixesAvoid ['/', '[', ']']) {q q' : Query}
    (hq : q.IsLegal) (hq' : q'.IsLegal) {t : String} (h : queryText names q = .ok t)
    (h' : queryText names q' = .ok t) : q = q' := by
  simp only [queryText, bind_eq_ok_iff, pure_eq_ok_iff] at h h'
  obtain ⟨c, hc, s, hs, w, hw, o, ho, rfl⟩ := h
  obtain ⟨c', hc', s', hs', w', hw', o', ho', htext⟩ := h'
  have hclauses : c.toList ++ (" FROM ".toList ++ (s.toList ++ (w.toList ++ o.toList))) =
      c'.toList ++ (" FROM ".toList ++ (s'.toList ++ (w'.toList ++ o'.toList))) := by
    simpa using congrArg String.toList htext.symm
  have hfollow := orderingsFollow_orderByText hq.orderings ho
  have hfollow' := orderingsFollow_orderByText hq'.orderings ho'
  -- part after part, from left to right, each known where it ends
  obtain ⟨hcolumns, hfrom⟩ := delimited_columnsText hp _ ⟨hq.columns, hc⟩ ⟨hq'.columns, hc'⟩
    ⟨⟨by simp, by simp⟩, by simp⟩ ⟨⟨by simp, by simp⟩, by simp⟩ hclauses
  obtain ⟨hsource, hwhere⟩ := delimited_sourceText hp hr _ ⟨hq.source, hs⟩ ⟨hq'.source, hs'⟩
    (endsSource_clauses hw hfollow) (endsSource_clauses hw' hfollow')
    (List.append_cancel_left hfrom)
  obtain ⟨hconstraint, hrest⟩ := delimited_whereText hp hr _ ⟨hq.constraint, hw⟩
    ⟨hq'.constraint, hw'⟩ hfollow hfollow' hwhere
  have horderings := orderings_eq_of_orderByText hp hq.orderings hq'.orderings ho ho' hrest
  cases q; cases q'
  rw [Query.mk.injEq]
  exact ⟨hsource, hconstraint, horderings, hcolumns⟩

end Parts

/-- **A statement determines its query.** Where no prefix holds a slash or a bracket, two queries
that are built from any texts, read with any registries, and written alike are one query. -/
theorem query_eq_of_queryText (calls : List (String × String))
    (hr : (Registry.standard.registerAll calls).PrefixesAvoid ['/', '[', ']']) {q q' : Query}
    (hq : q.IsBuilt) (hq' : q'.IsBuilt) {t : String}
    (h : queryText (Registry.standard.registerAll calls) q = .ok t)
    (h' : queryText (Registry.standard.registerAll calls) q' = .ok t) : q = q' :=
  query_eq_of_legal (Registry.paired_registerAll_standard calls) hr hq.isLegal hq'.isLegal h h'

/-- A query whose selectors and labels are reserved words, or hold dots and brackets. -/
def awkwardQuery : Query where
  source := .join (.selector ⟨"urn:x", "base"⟩ ⟨"order"⟩) (.selector ⟨"urn:x", "base"⟩ ⟨"a.b"⟩)
    .leftOuter (.childNode ⟨"a.b"⟩ ⟨"order"⟩)
  constraint := some (.not (.or
    (.comparison (.upper (.property ⟨⟨"order"⟩, some ⟨"urn:x", "title"⟩⟩)) .like
      (.literal (.string "it's %")))
    (.fullText ⟨⟨"a.b"⟩, none, .variable ⟨"words"⟩⟩)))
  orderings := [⟨.score ⟨"a.b"⟩, .descending⟩]
  columns := [⟨⟨⟨"order"⟩, none⟩, some "x]y"⟩, ⟨⟨⟨"a.b"⟩, some ⟨"urn:x", "as"⟩⟩, none⟩]

/-- The registry that the texts of `awkwardQuery` are read with. -/
def awkwardNames : Registry := Registry.standard.registerAll [("ex", "urn:x")]

theorem isBuilt_awkwardQuery : awkwardQuery.IsBuilt := by
  have hleft : (Source.selector ⟨"urn:x", "base"⟩ ⟨"order"⟩).IsBuilt :=
    .selector (show Builder.selector awkwardNames "ex:base" "order" = _ by decide +kernel)
  have hright : (Source.selector ⟨"urn:x", "base"⟩ ⟨"a.b"⟩).IsBuilt :=
    .selector (show Builder.selector awkwardNames "{urn:x}base" " a.b " = _ by decide +kernel)
  have hcondition : (JoinCondition.childNode ⟨"a.b"⟩ ⟨"order"⟩).IsBuilt :=
    .childNode (show Builder.childNodeJoin "a.b" "order" = _ by decide +kernel)
  have htitle : (DynamicOperand.property ⟨⟨"order"⟩, some ⟨"urn:x", "title"⟩⟩).IsBuilt :=
    .property (show Builder.property awkwardNames "order" "ex:title" = _ by decide +kernel)
  have hwords : (StaticOperand.variable ⟨"words"⟩).IsBuilt :=
    .variable (show Builder.boundVariable "words" = _ by decide +kernel)
  have hscore : (DynamicOperand.score ⟨"a.b"⟩).IsBuilt :=
    .score (show Builder.score "a.b" = _ by decide +kernel)
  have hlike : (Constraint.comparison (.upper (.property ⟨⟨"order"⟩, some ⟨"urn:x", "title"⟩⟩)) .like
      (.literal (.string "it's %"))).IsBuilt :=
    .comparison (.upper htitle) (.string "it's %")
      (show Builder.comparison _ "like" _ = _ by decide +kernel)
  have hfullText : (Constraint.fullText ⟨⟨"a.b"⟩, none, .variable ⟨"words"⟩⟩).IsBuilt :=
    .fullText hwords (show Builder.fullText awkwardNames "a.b" none _ = _ by decide +kernel)
  refine ⟨.join hleft hright hcondition (show Builder.join _ _ "left outer" _ = _ by decide +kernel),
    ?_, ?_, ?_⟩
  · rintro c ⟨⟩
    exact .not (.or hlike hfullText)
  · intro o ho
    obtain rfl := List.mem_singleton.mp ho
    exact .directed hscore .descending
  · intro c hc
    rcases List.mem_pair.mp hc with rfl | rfl
    · exact ⟨awkwardNames, "order", none, some "x]y", by decide +kernel⟩
    · exact ⟨awkwardNames, "a.b", some "ex:as", none, by decide +kernel⟩

theorem query_eq_of_queryText_awkward :
    awkwardNames.PrefixesAvoid ['/', '[', ']'] ∧ awkwardQuery.IsBuilt ∧
      queryText awkwardNames awkwardQuery = .ok
        ("SELECT [order].* AS 'x]y', [a.b].ex:as FROM ex:base AS [order] LEFT OUTER JOIN " ++
          "ex:base AS [a.b] ON ISCHILDNODE([a.b], [order]) WHERE NOT (UPPER([order].ex:title) " ++
          "LIKE 'it''s %' OR CONTAINS([a.b].*, $words)) ORDER BY SCORE([a.b]) DESC") ∧
      awkwardQuery = awkwardQuery := by
  have hempty : Registry.empty.PrefixesAvoid ['/', '[', ']'] := fun label hlabel =>
    absurd hlabel (Registry.not_hasPrefix_empty label)
  have hr : awkwardNames.PrefixesAvoid ['/', '[', ']'] :=
    (hempty.registerAll (by simp)).registerAll (by simp)
  have h : queryText awkwardNames awkwardQuery = .ok
      ("SELECT [order].* AS 'x]y', [a.b].ex:as FROM ex:base AS [order] LEFT OUTER JOIN " ++
        "ex:base AS [a.b] ON ISCHILDNODE([a.b], [order]) WHERE NOT (UPPER([order].ex:title) " ++
        "LIKE 'it''s %' OR CONTAINS([a.b].*, $words)) ORDER BY SCORE([a.b]) DESC") := by
    decide +kernel
  exact ⟨hr, isBuilt_awkwardQuery, h, query_eq_of_queryText [("ex", "urn:x")] hr
    isBuilt_awkwardQuery isBuilt_awkwardQuery h h⟩

end ContentQuery.Statement
