import ContentQuery.Proofs.Query.OperandText

/-! # Source texts

Joins nest to the left, so a source is its leftmost selector and the list of what is joined to it,
each with the type and the condition of the join. Only sources on the right stand in parentheses.
The list is delimited if the sources on the right are, and these are by induction.
-/

namespace ContentQuery.Statement

open Naming Text

variable {names : Registry}

/-! ## Join conditions -/

/-- How a join condition opens, unless it opens with a property. -/
def conditionOpening : JoinCondition → Option (String × Char)
  | .equal .. => none
  | .sameNode .. => some ("ISSAMENODE", '(')
  | .childNode .. => some ("ISCHILDNODE", '(')
  | .descendantNode .. => some ("ISDESCENDANTNODE", '(')

/-- The text of a join condition in front of anything opens with its function, if it has one. -/
theorem opensWith_conditionText {j : JoinCondition} {t : String}
    (h : conditionText names j = .ok t) (u : List Char) :
    OpensWith (t.toList ++ u) (conditionOpening j) := by
  match j with
  | .equal s₁ p₁ s₂ p₂ =>
    simp only [conditionText, bind_eq_ok_iff, pure_eq_ok_iff] at h
    obtain ⟨a, ha, b, -, rfl⟩ := h
    simp only [String.toList_append, List.append_assoc]
    exact opensWith_propertyText ha _
  | .sameNode s₁ s₂ (some p) =>
    simp only [conditionText, bind_eq_ok_iff, pure_eq_ok_iff] at h
    obtain ⟨a, -, rfl⟩ := h
    exact opensWith_keyword (by simp [isNameChar]) (by simp) (by simp; rfl)
  | .sameNode s₁ s₂ none | .childNode _ _ | .descendantNode _ _ =>
    cases h
    exact opensWith_keyword (by simp [isNameChar]) (by simp) (by simp; rfl)

/-- The text of a condition on one node ends behind the selectors, or names a path. -/
theorem sameNodeText_cases {s₁ s₂ : SelectorName} {path : Option Path} {t : String}
    (h : conditionText names (.sameNode s₁ s₂ path) = .ok t) :
    ∃ rest, t.toList = "ISSAMENODE(".toList ++
        ((selectorText s₁).toList ++ (", ".toList ++ ((selectorText s₂).toList ++ rest))) ∧
      (path = none ∧ rest = [')'] ∨ ∃ p pt, path = some p ∧ pathText names p = .ok pt ∧
        rest = ", ".toList ++ (pt.toList ++ [')'])) := by
  cases path with
  | none =>
    cases h
    exact ⟨_, by simp, .inl ⟨rfl, rfl⟩⟩
  | some p =>
    simp only [conditionText, bind_eq_ok_iff, pure_eq_ok_iff] at h
    obtain ⟨pt, hpt, rfl⟩ := h
    exact ⟨", ".toList ++ (pt.toList ++ [')']), by simp, .inr ⟨p, pt, rfl, hpt, rfl⟩⟩

/-- A function of two selectors shows both and where it ends. -/
theorem selectors_append_cancel {a b a' b' : SelectorName} {u v : List Char} (hu : Ends u)
    (hv : Ends v)
    (h : (selectorText a).toList ++ (", ".toList ++ ((selectorText b).toList ++ u)) =
      (selectorText a').toList ++ (", ".toList ++ ((selectorText b').toList ++ v))) :
    a = a' ∧ b = b' ∧ u = v := by
  obtain ⟨ha, hrest⟩ := selectorText_append_cancel (by simp) (by simp) h
  obtain ⟨hb, huv⟩ := selectorText_append_cancel hu hv (List.append_cancel_left hrest)
  exact ⟨ha, hb, huv⟩

section Parts

variable (hp : names.Paired) (hr : names.PrefixesAvoid ['/', '[', ']'])
include hp hr

omit hr in
/-- Equated properties show both and where they end. -/
theorem equalText_append_cancel {s₁ s₂ s₁' s₂' : SelectorName} {p₁ p₂ p₁' p₂' : Name}
    {s t : String} {u v : List Char}
    (hs : Writes JoinCondition.IsLegal (conditionText names) (.equal s₁ p₁ s₂ p₂) s)
    (ht : Writes JoinCondition.IsLegal (conditionText names) (.equal s₁' p₁' s₂' p₂') t)
    (hu : Ends u) (hv : Ends v) (h : s.toList ++ u = t.toList ++ v) :
    JoinCondition.equal s₁ p₁ s₂ p₂ = .equal s₁' p₁' s₂' p₂' ∧ u = v := by
  obtain ⟨hj, hs⟩ := hs
  obtain ⟨hj', ht⟩ := ht
  simp only [conditionText, bind_eq_ok_iff, pure_eq_ok_iff] at hs ht
  obtain ⟨a, ha, b, hb, rfl⟩ := hs
  obtain ⟨a', ha', b', hb', rfl⟩ := ht
  have hsides : a.toList ++ (" = ".toList ++ (b.toList ++ u)) =
      a'.toList ++ (" = ".toList ++ (b'.toList ++ v)) := by simpa using h
  have hlegal : ∀ {s : SelectorName} {p : Name}, p.IsLegal →
      PropertyOperand.IsLegal ⟨s, some p⟩ := by simp [PropertyOperand.IsLegal]
  -- the left property ends at the sign, and the right one where the condition does
  obtain ⟨hleft, hrest⟩ := delimited_propertyText hp _ ⟨hlegal hj.1, ha⟩ ⟨hlegal hj'.1, ha'⟩
    (by simp) (by simp) hsides
  obtain ⟨hright, huv⟩ := delimited_propertyText hp _ ⟨hlegal hj.2, hb⟩ ⟨hlegal hj'.2, hb'⟩
    hu hv (List.append_cancel_left hrest)
  cases hleft
  cases hright
  exact ⟨rfl, huv⟩

/-- A condition on one node shows its selectors, its path and where it ends. -/
theorem sameNodeText_append_cancel {s₁ s₂ s₁' s₂' : SelectorName} {path path' : Option Path}
    {s t : String} {u v : List Char}
    (hs : Writes JoinCondition.IsLegal (conditionText names) (.sameNode s₁ s₂ path) s)
    (ht : Writes JoinCondition.IsLegal (conditionText names) (.sameNode s₁' s₂' path') t)
    (h : s.toList ++ u = t.toList ++ v) :
    JoinCondition.sameNode s₁ s₂ path = .sameNode s₁' s₂' path' ∧ u = v := by
  obtain ⟨hj, hs⟩ := hs
  obtain ⟨hj', ht⟩ := ht
  obtain ⟨rest, hs, hcase⟩ := sameNodeText_cases hs
  obtain ⟨rest', ht, hcase'⟩ := sameNodeText_cases ht
  rw [hs, ht] at h
  simp only [List.append_assoc] at h
  have hends : Ends (rest ++ u) := by
    rcases hcase with ⟨-, rfl⟩ | ⟨p, pt, -, -, rfl⟩ <;> simp
  have hends' : Ends (rest' ++ v) := by
    rcases hcase' with ⟨-, rfl⟩ | ⟨p, pt, -, -, rfl⟩ <;> simp
  obtain ⟨rfl, rfl, hrest⟩ := selectors_append_cancel hends hends' (List.append_cancel_left h)
  -- both have a path or none has: a comma comes before it, and a parenthesis without it
  rcases hcase with ⟨rfl, rfl⟩ | ⟨p, pt, rfl, hpt, rfl⟩ <;>
    rcases hcase' with ⟨rfl, rfl⟩ | ⟨p', pt', rfl, hpt', rfl⟩
  · exact ⟨rfl, (List.cons.inj hrest).2⟩
  · simp at hrest
  · simp at hrest
  · simp only [List.append_assoc] at hrest
    obtain ⟨rfl, huv⟩ := delimited_pathText hp hr p ⟨hj p rfl, hpt⟩ ⟨hj' p' rfl, hpt'⟩
      (by simp) (by simp) (List.append_cancel_left hrest)
    exact ⟨rfl, (List.cons.inj huv).2⟩

/-- A join condition shows where it ends. -/
theorem delimited_conditionText (j : JoinCondition) :
    Delimited Ends (Writes JoinCondition.IsLegal (conditionText names)) j := by
  intro j' s t u v hs ht hu hv h
  have hopen : conditionOpening j = conditionOpening j' :=
    (opensWith_conditionText hs.2 u).unique (h ▸ opensWith_conditionText ht.2 v)
  -- the opening leaves two conditions of one kind
  cases j <;> cases j' <;> simp [conditionOpening] at hopen
  case equal.equal => exact equalText_append_cancel hp hs ht hu hv h
  case sameNode.sameNode => exact sameNodeText_append_cancel hp hr hs ht h
  case childNode.childNode | descendantNode.descendantNode =>
    cases hs.2
    cases ht.2
    obtain ⟨rfl, rfl, huv⟩ := selectors_append_cancel (u := ')' :: u) (v := ')' :: v) (by simp)
      (by simp) (by simpa using h)
    exact ⟨rfl, (List.cons.inj huv).2⟩

/-! ## Sources as lists of joins -/

/-- The first selector of a source, with its node type. -/
def leftmost : Source → Name × SelectorName
  | .selector type s => (type, s)
  | .join left _ _ _ => leftmost left

/-- What is joined to the first selector of a source, from left to right. -/
def joined : Source → List (JoinType × Source × JoinCondition)
  | .selector _ _ => []
  | .join left right type condition => joined left ++ [(type, right, condition)]

omit hp hr in
/-- A source is known from its leftmost selector and what is joined to that. -/
theorem source_eq_of_joined_eq {s s' : Source} (hfirst : leftmost s = leftmost s')
    (hjoined : joined s = joined s') : s = s' := by
  -- down the left sides; the last join is the outermost one
  induction s generalizing s' with
  | selector type s =>
    cases s' with
    | selector type' s' =>
      cases hfirst
      rfl
    | join left' right' type' condition' => simp [joined] at hjoined
  | join left right type condition ihl _ =>
    cases s' with
    | selector type' s' => simp [joined] at hjoined
    | join left' right' type' condition' =>
      obtain ⟨hleft, hlast⟩ := List.append_inj' hjoined rfl
      have hfirst' : leftmost left = leftmost left' := hfirst
      cases hlast
      rw [ihl hfirst' hleft]

/-- A source on the right of a join. -/
def enclosedSourceText (names : Registry) (s : Source) : Written := do
  return parenthesizedIf s.isJoin (← sourceText names s)

/-- A selector with its node type. -/
def firstText (names : Registry) (first : Name × SelectorName) : Written := do
  return (← nameText names first.1) ++ " AS " ++ selectorText first.2

/-- What is joined, with its type and its condition. -/
def joinText (names : Registry) (join : JoinType × Source × JoinCondition) : Written := do
  let r ← enclosedSourceText names join.2.1
  let c ← conditionText names join.2.2
  return " " ++ join.1.keywords ++ " " ++ r ++ " ON " ++ c

/-- The source and the condition of a join are legal. -/
def IsLegalJoin (join : JoinType × Source × JoinCondition) : Prop :=
  join.2.1.IsLegal ∧ join.2.2.IsLegal

omit hp hr in
/-- A source is written as its first selector and what is joined to it. -/
theorem sourceText_eq_ok {s : Source} (hs : s.IsLegal) {t : String}
    (h : sourceText names s = .ok t) :
    ∃ a joins, (leftmost s).1.IsLegal ∧ firstText names (leftmost s) = .ok a ∧
      List.Forall₂ (Writes IsLegalJoin (joinText names)) (joined s) joins ∧
      t.toList = a.toList ++ joins.flatMap String.toList := by
  induction s generalizing t with
  | selector type s => exact ⟨t, [], hs, h, .nil, by simp⟩
  | join left right type condition ihl _ =>
    simp only [sourceText, bind_eq_ok_iff, pure_eq_ok_iff] at h
    obtain ⟨l, hl, r, hright, c, hc, rfl⟩ := h
    obtain ⟨a, joins, hlegal, ha, hjoins, hl⟩ := ihl hs.1 hl
    have hjoin : Writes IsLegalJoin (joinText names) (type, right, condition)
        (" " ++ type.keywords ++ " " ++ parenthesizedIf right.isJoin r ++ " ON " ++ c) :=
      ⟨hs.2, by simp [joinText, enclosedSourceText, hright, hc]⟩
    refine ⟨a, joins ++ [_], hlegal, ha, List.rel_append hjoins (.cons hjoin .nil), ?_⟩
    simp [hl]

omit hr in
/-- A selector with its node type shows where it ends. -/
theorem delimited_firstText (first : Name × SelectorName) :
    Delimited Ends (Writes (·.1.IsLegal) (firstText names)) first := by
  rintro first' s t u v ⟨hfirst, hs⟩ ⟨hfirst', ht⟩ hu hv h
  simp only [firstText, bind_eq_ok_iff, pure_eq_ok_iff] at hs ht
  obtain ⟨a, ha, rfl⟩ := hs
  obtain ⟨b, hb, rfl⟩ := ht
  have hparts : a.toList ++ (" AS ".toList ++ ((selectorText first.2).toList ++ u)) =
      b.toList ++ (" AS ".toList ++ ((selectorText first'.2).toList ++ v)) := by simpa using h
  obtain ⟨htype, hrest⟩ :=
    delimited_nameText hp _ ⟨hfirst, ha⟩ ⟨hfirst', hb⟩ (by simp) (by simp) hparts
  obtain ⟨hselector, huv⟩ := selectorText_append_cancel hu hv (List.append_cancel_left hrest)
  exact ⟨Prod.ext htype hselector, huv⟩

/-! ## Delimited sources -/

/-- What follows a source that stands by itself: no join. -/
def EndsSource (rest : List Char) : Prop :=
  Ends rest ∧ ∀ (type : JoinType) (after : List Char),
    rest ≠ (" " ++ type.keywords ++ " ").toList ++ after

omit hp hr in
/-- A further join is its keywords, the enclosed right side and the condition. -/
theorem joinText_cases {join : JoinType × Source × JoinCondition} {t : String}
    (h : joinText names join = .ok t) :
    ∃ r c, enclosedSourceText names join.2.1 = .ok r ∧ conditionText names join.2.2 = .ok c ∧
      t.toList = (" " ++ join.1.keywords ++ " ").toList ++
        (r.toList ++ (" ON ".toList ++ c.toList)) := by
  simp only [joinText, bind_eq_ok_iff, pure_eq_ok_iff] at h
  obtain ⟨r, hright, c, hc, rfl⟩ := h
  exact ⟨r, c, hright, hc, by simp⟩

omit hp hr in
/-- The type of a join is known from the keywords. -/
theorem joinType_append_cancel {type type' : JoinType} {u v : List Char}
    (h : (" " ++ type.keywords ++ " ").toList ++ u = (" " ++ type'.keywords ++ " ").toList ++ v) :
    type = type' ∧ u = v := by
  cases type <;> cases type' <;> simp [JoinType.keywords, JoinType.shortKeywords] at h ⊢ <;> exact h

/-- What is joined shows where it ends if the source on the right does. -/
theorem delimited_joinText {join : JoinType × Source × JoinCondition}
    (hright : Delimited Ends (Writes Source.IsLegal (enclosedSourceText names)) join.2.1) :
    Delimited Ends (Writes IsLegalJoin (joinText names)) join := by
  rintro join' s t u v ⟨hjoin, hs⟩ ⟨hjoin', ht⟩ hu hv h
  obtain ⟨r, c, hsource, hcondition, hs⟩ := joinText_cases hs
  obtain ⟨r', c', hsource', hcondition', ht⟩ := joinText_cases ht
  rw [hs, ht] at h
  simp only [List.append_assoc] at h
  obtain ⟨htype, hparts⟩ := joinType_append_cancel h
  obtain ⟨hsources, hrest⟩ :=
    hright ⟨hjoin.1, hsource⟩ ⟨hjoin'.1, hsource'⟩ (by simp) (by simp) hparts
  obtain ⟨hconditions, huv⟩ := delimited_conditionText hp hr _ ⟨hjoin.2, hcondition⟩
    ⟨hjoin'.2, hcondition'⟩ hu hv (List.append_cancel_left hrest)
  exact ⟨Prod.ext htype (Prod.ext hsources hconditions), huv⟩

/-- A source by itself is delimited if everything on the right of its joins is. -/
theorem delimited_sourceText_of {s : Source} (hright : ∀ join ∈ joined s,
      Delimited Ends (Writes Source.IsLegal (enclosedSourceText names)) join.2.1) :
    Delimited EndsSource (Writes Source.IsLegal (sourceText names)) s := by
  -- every further join starts with a space, which ends the source in front of it
  have hstart : ∀ (join : JoinType × Source × JoinCondition) (t : String),
      Writes IsLegalJoin (joinText names) join t → ∀ u, Ends (t.toList ++ u) := by
    rintro join t ⟨-, ht⟩ u
    obtain ⟨r, c, -, -, ht⟩ := joinText_cases ht
    simp [ht]
  -- but only keywords of a join go on with the source
  have hnext : ∀ (join : JoinType × Source × JoinCondition) (t : String),
      Writes IsLegalJoin (joinText names) join t → ∀ u, ¬ EndsSource (t.toList ++ u) := by
    rintro join t ⟨-, ht⟩ u hends
    obtain ⟨r, c, -, -, ht⟩ := joinText_cases ht
    exact hends.2 join.1 _ (by rw [ht, List.append_assoc])
  have hends : ∀ u, EndsSource u → Ends u := fun u hu => hu.1
  rintro s' a b u v ⟨hs, ha⟩ ⟨hs', hb⟩ hu hv h
  obtain ⟨first, joins, hlegal, hfirst, hjoins, ha⟩ := sourceText_eq_ok hs ha
  obtain ⟨first', joins', hlegal', hfirst', hjoins', hb⟩ := sourceText_eq_ok hs' hb
  rw [ha, hb, List.append_assoc, List.append_assoc] at h
  obtain ⟨hleftmost, htail⟩ := delimited_firstText hp _ ⟨hlegal, hfirst⟩ ⟨hlegal', hfirst'⟩
    (follow_flatMap hends hstart hjoins hu) (follow_flatMap hends hstart hjoins' hv) h
  obtain ⟨hjoined, huv⟩ := Delimited.flatMap hends hstart hnext
    (fun join hmem => delimited_joinText hp hr (hright join hmem)) hjoins hjoins' hu hv htail
  exact ⟨source_eq_of_joined_eq hleftmost hjoined, huv⟩

omit hp hr in
/-- A source on the right of a join is a selector, or a join in parentheses. -/
theorem enclosedSourceText_cases {s : Source} {t : String}
    (h : enclosedSourceText names s = .ok t) :
    (∃ type selector, s = .selector type selector ∧ firstText names (type, selector) = .ok t) ∨
      ∃ whole, sourceText names s = .ok whole ∧ t.toList = '(' :: (whole.toList ++ [')']) := by
  simp only [enclosedSourceText, bind_eq_ok_iff, pure_eq_ok_iff] at h
  obtain ⟨whole, hwhole, rfl⟩ := h
  cases s with
  | selector type selector => exact .inl ⟨type, selector, rfl, hwhole⟩
  | join => exact .inr ⟨whole, hwhole, by simp [parenthesizedIf, Source.isJoin]⟩

omit hp hr in
/-- A selector opens no parenthesis. -/
theorem firstText_append_ne_parenthesis {first : Name × SelectorName} {t : String}
    (h : firstText names first = .ok t) (u v : List Char) : t.toList ++ u ≠ '(' :: v := by
  simp only [firstText, nameText, bind_eq_ok_iff, pure_eq_ok_iff] at h
  obtain ⟨_, ⟨nt, -, rfl⟩, rfl⟩ := h
  rw [String.toList_append, String.toList_append, List.append_assoc, List.append_assoc]
  exact escapeName_append_ne_cons nt (by decide) (by decide) (by decide) _ _

omit hr in
/-- A source on the right of a join is delimited if it is by itself. -/
theorem delimited_enclosedSourceText_of {s : Source}
    (hwhole : Delimited EndsSource (Writes Source.IsLegal (sourceText names)) s) :
    Delimited Ends (Writes Source.IsLegal (enclosedSourceText names)) s := by
  rintro s' a b u v ⟨hs, ha⟩ ⟨hs', hb⟩ hu hv h
  -- no name opens with a parenthesis, so both sources are of one form
  rcases enclosedSourceText_cases ha with ⟨type, selector, rfl, hfirst⟩ | ⟨wa, hwa, hta⟩ <;>
    rcases enclosedSourceText_cases hb with ⟨type', selector', rfl, hfirst'⟩ | ⟨wb, hwb, htb⟩
  · have hlegal : (type, selector).1.IsLegal := hs
    have hlegal' : (type', selector').1.IsLegal := hs'
    obtain ⟨hselector, huv⟩ :=
      delimited_firstText hp _ ⟨hlegal, hfirst⟩ ⟨hlegal', hfirst'⟩ hu hv h
    cases hselector
    exact ⟨rfl, huv⟩
  · rw [htb, List.cons_append] at h
    exact absurd h (firstText_append_ne_parenthesis hfirst u _)
  · rw [hta, List.cons_append] at h
    exact absurd h.symm (firstText_append_ne_parenthesis hfirst' v _)
  · have hclose : ∀ w : List Char, EndsSource (')' :: w) := fun w => ⟨by simp, by simp⟩
    have hinner : wa.toList ++ ')' :: u = wb.toList ++ ')' :: v := by
      rw [hta, htb] at h
      simpa using h
    obtain ⟨rfl, huv⟩ := hwhole ⟨hs, hwa⟩ ⟨hs', hwb⟩ (hclose u) (hclose v) hinner
    exact ⟨rfl, (List.cons.inj huv).2⟩

/-- A source in brackets, if it is a join, is known from the text it stands in front of. -/
theorem delimited_enclosedSourceText (s : Source) :
    Delimited Ends (Writes Source.IsLegal (enclosedSourceText names)) s := by
  suffices hjoined : ∀ join ∈ joined s,
      Delimited Ends (Writes Source.IsLegal (enclosedSourceText names)) join.2.1 from
    delimited_enclosedSourceText_of hp (delimited_sourceText_of hp hr hjoined)
  -- by induction on the source, since its joins stand in one list but nest to the left
  induction s with
  | selector => simp [joined]
  | join left right type condition ihl ihr =>
    intro join hmem
    rcases List.mem_append.mp hmem with hmem | hmem
    · exact ihl join hmem
    · obtain rfl := List.mem_singleton.mp hmem
      exact delimited_enclosedSourceText_of hp (delimited_sourceText_of hp hr ihr)

/-- A source by itself shows where it ends, unless a join follows. -/
theorem delimited_sourceText (s : Source) :
    Delimited EndsSource (Writes Source.IsLegal (sourceText names)) s :=
  delimited_sourceText_of hp hr fun join _ => delimited_enclosedSourceText hp hr join.2.1

end Parts

end ContentQuery.Statement
