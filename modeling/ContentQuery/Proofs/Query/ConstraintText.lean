import ContentQuery.Proofs.Query.OperandText

/-! # Constraint texts

A constraint is delimited at two levels. As a part of another one it stands in parentheses if it is
compound, and anything that ends an escaped text may follow; by itself a connective may not follow.
A constraint by itself is delimited if its parts are, and a compound part if it is by itself, so
both levels go up the constraint together.
-/

namespace ContentQuery.Statement

open Naming Text

/-- A constraint as a part of another one. -/
def enclosedText (names : Registry) (c : Constraint) : Written := do
  return parenthesizedIf c.isCompound (← constraintText names c)

/-- The connective and the two parts of a compound constraint. -/
def connective : Constraint → Option (String × Constraint × Constraint)
  | .and left right => some (" AND ", left, right)
  | .or left right => some (" OR ", left, right)
  | _ => none

/-- What follows a constraint that stands by itself: no connective. -/
def EndsConstraint (rest : List Char) : Prop :=
  Ends rest ∧ ∀ k ∈ [" AND ", " OR "], ∀ after, rest ≠ k.toList ++ after

/-- A conjunction or disjunction is known from its keyword and its two sides. -/
theorem eq_of_connective_eq {c c' : Constraint} (hc : connective c ≠ none)
    (h : connective c = connective c') : c = c' := by
  cases c <;> cases c' <;> simp_all [connective]

/-- A connective is legal exactly if both of its sides are. -/
theorem isLegal_of_connective {c left right : Constraint} {k : String}
    (hc : connective c = some (k, left, right)) : c.IsLegal ↔ left.IsLegal ∧ right.IsLegal := by
  cases c <;> simp only [connective, Option.some.injEq, Prod.mk.injEq, reduceCtorEq] at hc
  all_goals
    obtain ⟨-, rfl, rfl⟩ := hc
    rfl

variable {names : Registry}

/-! ## The shape of the text -/

/-- A constraint that is not compound is written alike at both levels. -/
theorem enclosedText_of_connective_none {c : Constraint} (hc : connective c = none) :
    enclosedText names c = constraintText names c := by
  have hcompound : c.isCompound = false := by
    cases c <;> simp_all [connective, Constraint.isCompound]
  simp [enclosedText, hcompound, parenthesizedIf]

/-- A compound constraint is written with its connective between its parts. -/
theorem constraintText_of_connective {c left right : Constraint} {k t : String}
    (hc : connective c = some (k, left, right)) (h : constraintText names c = .ok t) :
    k ∈ [" AND ", " OR "] ∧ ∃ a b, enclosedText names left = .ok a ∧
      enclosedText names right = .ok b ∧ t.toList = a.toList ++ (k.toList ++ b.toList) := by
  cases c <;> simp only [connective, Option.some.injEq, Prod.mk.injEq, reduceCtorEq] at hc
  all_goals
    obtain ⟨rfl, rfl, rfl⟩ := hc
    simp only [constraintText, bind_eq_ok_iff, pure_eq_ok_iff] at h
    obtain ⟨l, hl, r, hr, rfl⟩ := h
    exact ⟨by simp, _, _, by simp [enclosedText, hl]; rfl, by simp [enclosedText, hr]; rfl, by simp⟩

/-- As a part, a compound constraint stands in parentheses. -/
theorem enclosedText_of_connective {c : Constraint} {p : String × Constraint × Constraint}
    {t : String} (hc : connective c = some p) (h : enclosedText names c = .ok t) :
    ∃ whole, constraintText names c = .ok whole ∧ t.toList = '(' :: (whole.toList ++ [')']) := by
  have hcompound : c.isCompound = true := by
    cases c <;> simp_all [connective, Constraint.isCompound]
  simp only [enclosedText, hcompound, bind_eq_ok_iff, pure_eq_ok_iff] at h
  obtain ⟨whole, hwhole, rfl⟩ := h
  exact ⟨whole, hwhole, by simp [parenthesizedIf]⟩

/-- A negation is its keyword in front of the enclosed constraint. -/
theorem enclosedText_not {c : Constraint} {t : String} (h : enclosedText names (.not c) = .ok t) :
    ∃ a, enclosedText names c = .ok a ∧ t.toList = "NOT".toList ++ ' ' :: a.toList := by
  rw [enclosedText_of_connective_none rfl] at h
  simp only [constraintText, bind_eq_ok_iff, pure_eq_ok_iff] at h
  obtain ⟨a, ha, rfl⟩ := h
  exact ⟨parenthesizedIf c.isCompound a, by simp [enclosedText, ha], by simp⟩

/-- A search is a call with its property and its expression. -/
theorem enclosedText_fullText {predicate : FullTextPredicate} {t : String}
    (h : enclosedText names (.fullText predicate) = .ok t) :
    ∃ a e, propertyText names ⟨predicate.selector, predicate.property⟩ = .ok a ∧
      staticText names predicate.expression = .ok e ∧
      t.toList = "CONTAINS".toList ++ '(' :: (a.toList ++ (", ".toList ++ (e.toList ++ [')']))) := by
  rw [enclosedText_of_connective_none rfl] at h
  simp only [constraintText, bind_eq_ok_iff, pure_eq_ok_iff] at h
  obtain ⟨a, ha, e, he, rfl⟩ := h
  exact ⟨a, e, ha, he, by simp⟩

/-- A condition on a place is a call with its selector and its path. -/
theorem enclosedText_structural {relation : NodeRelation} {s : SelectorName} {p : Path} {t : String}
    (h : enclosedText names (.structural relation s p) = .ok t) :
    ∃ a, pathText names p = .ok a ∧ t.toList = (relationFunction relation).toList ++
      '(' :: ((selectorText s).toList ++ (", ".toList ++ (a.toList ++ [')']))) := by
  rw [enclosedText_of_connective_none rfl] at h
  simp only [constraintText, bind_eq_ok_iff, pure_eq_ok_iff] at h
  obtain ⟨a, ha, rfl⟩ := h
  exact ⟨a, ha, by simp⟩

/-- The operand that a comparison or an existence is about. -/
def subject : Constraint → Option DynamicOperand
  | .comparison left _ _ => some left
  | .exists s p => some (.property ⟨s, some p⟩)
  | _ => none

theorem isLegal_of_subject {c : Constraint} {o : DynamicOperand} (ho : subject c = some o)
    (hc : c.IsLegal) : o.IsLegal := by
  cases c with
  | comparison left operator right =>
    cases ho
    exact hc.1
  | «exists» s p =>
    have hpl : p.IsLegal := hc
    cases ho
    simpa [DynamicOperand.IsLegal, PropertyOperand.IsLegal] using hpl
  | _ => simp [subject] at ho

/-- A comparison or existence is written with its subject first, a blank behind it. -/
theorem enclosedText_of_subject {c : Constraint} {o : DynamicOperand} {t : String}
    (ho : subject c = some o) (h : enclosedText names c = .ok t) :
    ∃ l rest, dynamicText names o = .ok l ∧ t.toList = l.toList ++ ' ' :: rest ∧
      ((∃ operator right r, c = .comparison o operator right ∧ staticText names right = .ok r ∧
          rest = operator.symbol.toList ++ ' ' :: r.toList) ∨
        ∃ s p, c = .exists s p ∧ rest = "IS NOT NULL".toList) := by
  cases c with
  | comparison left operator right =>
    cases ho
    rw [enclosedText_of_connective_none rfl] at h
    simp only [constraintText, bind_eq_ok_iff, pure_eq_ok_iff] at h
    obtain ⟨l, hl, r, hr, rfl⟩ := h
    exact ⟨l, _, hl, by simp, .inl ⟨operator, right, r, rfl, hr, rfl⟩⟩
  | «exists» s p =>
    cases ho
    rw [enclosedText_of_connective_none rfl] at h
    simp only [constraintText, bind_eq_ok_iff, pure_eq_ok_iff] at h
    obtain ⟨l, hl, rfl⟩ := h
    exact ⟨l, "IS NOT NULL".toList, hl, by simp, .inr ⟨s, p, rfl, rfl⟩⟩
  | _ => simp [subject] at ho

/-! ## Openings -/

/-- How a constraint that is a part opens, unless it opens with a property. -/
def constraintOpening : Constraint → Option (String × Char)
  | .and .. | .or .. => some ("", '(')
  | .not _ => some ("NOT", ' ')
  | .comparison left _ _ => (operandFunction left).map (·, '(')
  | .exists _ _ => none
  | .fullText _ => some ("CONTAINS", '(')
  | .structural relation _ _ => some (relationFunction relation, '(')

/-- A condition on an operand opens like the operand. -/
theorem constraintOpening_of_subject {c : Constraint} {o : DynamicOperand}
    (ho : subject c = some o) : constraintOpening c = (operandFunction o).map (·, '(') := by
  cases c <;> cases ho <;> rfl

/-- The text of a constraint in front of anything opens with its keyword, if it has one. -/
theorem opensWith_enclosedText {c : Constraint} {t : String} (h : enclosedText names c = .ok t)
    (u : List Char) : OpensWith (t.toList ++ u) (constraintOpening c) := by
  -- four kinds open with their own keyword, the other two with the operand
  cases c with
  | and | or =>
    obtain ⟨whole, -, ht⟩ := enclosedText_of_connective rfl h
    exact opensWith_keyword (by simp) (by simp) (by rw [ht]; rfl)
  | not c =>
    obtain ⟨a, -, ht⟩ := enclosedText_not h
    exact opensWith_keyword (by simp [isNameChar]) (by simp) (by rw [ht, List.append_assoc]; rfl)
  | fullText predicate =>
    obtain ⟨a, e, -, -, ht⟩ := enclosedText_fullText h
    exact opensWith_keyword (by simp [isNameChar]) (by simp) (by rw [ht, List.append_assoc]; rfl)
  | structural relation s p =>
    obtain ⟨a, -, ht⟩ := enclosedText_structural h
    have hword : ∀ c ∈ (relationFunction relation).toList, isNameChar c = true := by
      cases relation <;> simp [relationFunction, isNameChar]
    exact opensWith_keyword hword (by simp) (by rw [ht, List.append_assoc]; rfl)
  | comparison | «exists» =>
    obtain ⟨l, rest, hl, ht, -⟩ := enclosedText_of_subject rfl h
    rw [constraintOpening_of_subject rfl, ht, List.append_assoc]
    exact opensWith_dynamicText hl _

/-- Parts that one text starts with open alike. -/
theorem constraintOpening_eq {c c' : Constraint} {s t : String} (hs : enclosedText names c = .ok s)
    (ht : enclosedText names c' = .ok t) {u v : List Char} (h : s.toList ++ u = t.toList ++ v) :
    constraintOpening c = constraintOpening c' :=
  (opensWith_enclosedText hs u).unique (h ▸ opensWith_enclosedText ht v)

/-! ## By itself -/

/-- A constraint is delimited by itself if its operands, or itself if it has none, are delimited as
parts. -/
theorem delimited_constraintText_of {c : Constraint}
    (hleaf : connective c = none → Delimited Ends (Writes Constraint.IsLegal (enclosedText names)) c)
    (hparts : ∀ k left right, connective c = some (k, left, right) →
      Delimited Ends (Writes Constraint.IsLegal (enclosedText names)) left ∧
        Delimited Ends (Writes Constraint.IsLegal (enclosedText names)) right) :
    Delimited EndsConstraint (Writes Constraint.IsLegal (constraintText names)) c := by
  have hends : ∀ {k : String} {rest : List Char}, k ∈ [" AND ", " OR "] →
      Ends (k.toList ++ rest) := by
    intro k rest hk
    rcases List.mem_pair.mp hk with rfl | rfl <;> simp
  rintro c' s t u v ⟨hc, hs⟩ ⟨hc', ht⟩ ⟨hu, hnou⟩ ⟨hv, hnov⟩ h
  -- the first parts agree; behind them stand both connectives or none
  rcases hk : connective c with _ | ⟨k, left, right⟩ <;>
    rcases hk' : connective c' with _ | ⟨k', left', right'⟩
  · rw [← enclosedText_of_connective_none hk] at hs
    rw [← enclosedText_of_connective_none hk'] at ht
    exact hleaf hk ⟨hc, hs⟩ ⟨hc', ht⟩ hu hv h
  · rw [← enclosedText_of_connective_none hk] at hs
    obtain ⟨hmem', a', b', ha', hb', ht⟩ := constraintText_of_connective hk' ht
    rw [ht, List.append_assoc, List.append_assoc] at h
    have hleft' := ((isLegal_of_connective hk').mp hc').1
    obtain ⟨-, hrest⟩ := hleaf hk ⟨hc, hs⟩ ⟨hleft', ha'⟩ hu (hends hmem') h
    exact absurd hrest (hnou k' hmem' _)
  · rw [← enclosedText_of_connective_none hk'] at ht
    obtain ⟨hmem, a, b, ha, hb, hs⟩ := constraintText_of_connective hk hs
    rw [hs, List.append_assoc, List.append_assoc] at h
    have hleft := ((isLegal_of_connective hk).mp hc).1
    obtain ⟨-, hrest⟩ := (hparts _ _ _ hk).1 ⟨hleft, ha⟩ ⟨hc', ht⟩ (hends hmem) hv h
    exact absurd hrest.symm (hnov k hmem _)
  · obtain ⟨hmem, a, b, ha, hb, hs⟩ := constraintText_of_connective hk hs
    obtain ⟨hmem', a', b', ha', hb', ht⟩ := constraintText_of_connective hk' ht
    rw [hs, ht, List.append_assoc, List.append_assoc, List.append_assoc, List.append_assoc] at h
    obtain ⟨hleft, hright⟩ := (isLegal_of_connective hk).mp hc
    obtain ⟨hleft', hright'⟩ := (isLegal_of_connective hk').mp hc'
    obtain ⟨hdl, hdr⟩ := hparts _ _ _ hk
    obtain ⟨rfl, hrest⟩ := hdl ⟨hleft, ha⟩ ⟨hleft', ha'⟩ (hends hmem) (hends hmem') h
    have hconnective : k = k' := by
      rcases List.mem_pair.mp hmem with rfl | rfl <;>
        rcases List.mem_pair.mp hmem' with rfl | rfl <;> simp at hrest ⊢
    subst hconnective
    obtain ⟨rfl, huv⟩ :=
      hdr ⟨hright, hb⟩ ⟨hright', hb'⟩ hu hv (List.append_cancel_left hrest)
    exact ⟨eq_of_connective_eq (by simp [hk]) (hk.trans hk'.symm), huv⟩

/-! ## As a part -/

/-- A compound constraint opens with a parenthesis, and so does nothing else. -/
theorem connective_eq_none_iff {c : Constraint} :
    connective c = none ↔ constraintOpening c ≠ some ("", '(') := by
  cases c with
  | and | or | not | «exists» | fullText => simp [connective, constraintOpening]
  | comparison left => cases left <;> simp [connective, constraintOpening, operandFunction]
  | structural relation =>
    cases relation <;> simp [connective, constraintOpening, relationFunction]

/-- A compound constraint is delimited as a part if it is by itself. -/
theorem delimited_enclosedText_of_compound {c : Constraint} (hc : connective c ≠ none)
    (hwhole : Delimited EndsConstraint (Writes Constraint.IsLegal (constraintText names)) c) :
    Delimited Ends (Writes Constraint.IsLegal (enclosedText names)) c := by
  rintro c' s t u v ⟨hcl, hs⟩ ⟨hcl', ht⟩ - - h
  have hc' : connective c' ≠ none := by
    rw [Ne, connective_eq_none_iff, ← constraintOpening_eq hs ht h, ← connective_eq_none_iff]
    exact hc
  obtain ⟨p, hp⟩ := Option.ne_none_iff_exists'.mp hc
  obtain ⟨p', hp'⟩ := Option.ne_none_iff_exists'.mp hc'
  obtain ⟨ws, hws, hs⟩ := enclosedText_of_connective hp hs
  obtain ⟨wt, hwt, ht⟩ := enclosedText_of_connective hp' ht
  have hclose : ∀ w : List Char, EndsConstraint (')' :: w) := fun w => ⟨by simp, by simp⟩
  -- inside the brackets the whole texts stand in front of the closing one
  have hinner : ws.toList ++ ')' :: u = wt.toList ++ ')' :: v := by
    rw [hs, ht] at h
    simpa using h
  obtain ⟨rfl, huv⟩ := hwhole ⟨hcl, hws⟩ ⟨hcl', hwt⟩ (hclose u) (hclose v) hinner
  exact ⟨rfl, (List.cons.inj huv).2⟩

/-! ## Keywords -/

/-- The openings of constraints that are about no operand. -/
def constraintKeywords : List (String × Char) := [
  ("", '('), ("NOT", ' '), ("CONTAINS", '('), ("ISSAMENODE", '('), ("ISCHILDNODE", '('),
  ("ISDESCENDANTNODE", '(')]

/-- The conditions without an operand are those that open with a keyword of their own. -/
theorem subject_eq_none_iff {c : Constraint} :
    subject c = none ↔ ∃ k ∈ constraintKeywords, constraintOpening c = some k := by
  cases c with
  | comparison left =>
    cases left <;> simp [subject, constraintKeywords, constraintOpening, operandFunction]
  | structural relation =>
    cases relation <;> simp [subject, constraintKeywords, constraintOpening, relationFunction]
  | _ => simp [subject, constraintKeywords, constraintOpening]

/-- Each relation has its own function. -/
theorem relationFunction_injective : Function.Injective relationFunction := by
  intro a b h
  cases a <;> cases b <;> first | rfl | simp [relationFunction] at h

/-- Only negations open with `NOT` and a space. -/
theorem eq_not_of_opening {c : Constraint} (h : constraintOpening c = some ("NOT", ' ')) :
    ∃ inner, c = .not inner := by
  cases c with
  | not inner => exact ⟨inner, rfl⟩
  | comparison left => cases left <;> simp [constraintOpening, operandFunction] at h
  | _ => simp [constraintOpening] at h

theorem eq_fullText_of_opening {c : Constraint} (h : constraintOpening c = some ("CONTAINS", '(')) :
    ∃ predicate, c = .fullText predicate := by
  cases c with
  | fullText predicate => exact ⟨predicate, rfl⟩
  | comparison left => cases left <;> simp [constraintOpening, operandFunction] at h
  | structural relation => cases relation <;> simp [constraintOpening, relationFunction] at h
  | _ => simp [constraintOpening] at h

theorem eq_structural_of_opening {c : Constraint} {relation : NodeRelation}
    (h : constraintOpening c = some (relationFunction relation, '(')) :
    ∃ s p, c = .structural relation s p := by
  cases c with
  | structural relation' s p =>
    simp only [constraintOpening, Option.some.injEq, Prod.mk.injEq, and_true] at h
    exact ⟨s, p, by rw [relationFunction_injective h]⟩
  | comparison left =>
    cases left <;> cases relation <;>
      simp [constraintOpening, operandFunction, relationFunction] at h
  | _ => cases relation <;> simp [constraintOpening, relationFunction] at h

/-! ## Leaves -/

theorem symbol_injective : Function.Injective Operator.symbol := by
  intro a b h
  cases a <;> cases b <;> first | rfl | simp [Operator.symbol] at h

/-- The symbols have no blanks, so each ends at the next one. -/
theorem symbol_ne_blank (op : Operator) : ∀ c ∈ op.symbol.toList, (c != ' ') = true := by
  cases op <;> simp [Operator.symbol]

section Parts

variable (hp : names.Paired) (hr : names.PrefixesAvoid ['/', '[', ']'])
include hp hr

/-- Comparisons and existences are delimited as parts. -/
theorem delimited_enclosedText_of_subject {c : Constraint} {o : DynamicOperand}
    (ho : subject c = some o) :
    Delimited Ends (Writes Constraint.IsLegal (enclosedText names)) c := by
  rintro c' s t u v ⟨hc, hs⟩ ⟨hc', ht⟩ hu hv h
  -- the other constraint opens alike, so it has an operand in front, too
  obtain ⟨o', ho'⟩ : ∃ o', subject c' = some o' := by
    rw [← Option.ne_none_iff_exists', Ne, subject_eq_none_iff, ← constraintOpening_eq hs ht h,
      ← subject_eq_none_iff, ho]
    exact Option.some_ne_none o
  obtain ⟨l, rest, hl, hs, hcase⟩ := enclosedText_of_subject ho hs
  obtain ⟨l', rest', hl', ht, hcase'⟩ := enclosedText_of_subject ho' ht
  rw [hs, ht, List.append_assoc, List.append_assoc] at h
  obtain ⟨rfl, hrest⟩ := delimited_dynamicText hp o ⟨isLegal_of_subject ho hc, hl⟩
    ⟨isLegal_of_subject ho' hc', hl'⟩ (by simp) (by simp) h
  -- behind the same operand stands an operator with its fixed side, or `IS NOT NULL`
  have htail : rest ++ u = rest' ++ v := (List.cons.inj hrest).2
  rcases hcase with ⟨op, right, r, rfl, hr₁, rfl⟩ | ⟨s, p, rfl, rfl⟩ <;>
    rcases hcase' with ⟨op', right', r', rfl, hr₂, rfl⟩ | ⟨s', p', rfl, rfl⟩
  · rw [List.append_assoc, List.append_assoc] at htail
    obtain ⟨hsymbol, hblank⟩ := run_append_cancel (symbol_ne_blank op) (symbol_ne_blank op')
      (by simp) (by simp) htail
    obtain ⟨rfl, huv⟩ := delimited_staticText hp hr right ⟨hc.2, hr₁⟩ ⟨hc'.2, hr₂⟩ hu hv
      (List.cons.inj hblank).2
    exact ⟨by rw [symbol_injective (String.toList_inj.mp hsymbol)], huv⟩
  -- no symbol starts like `IS NOT NULL`
  · cases op <;> simp [Operator.symbol] at htail
  · cases op' <;> simp [Operator.symbol] at htail
  · cases ho
    cases ho'
    exact ⟨rfl, List.append_cancel_left htail⟩

/-- A constraint that is a part shows where it ends. -/
theorem delimited_enclosedText (c : Constraint) :
    Delimited Ends (Writes Constraint.IsLegal (enclosedText names)) c := by
  induction c with
  | and left right ihl ihr | or left right ihl ihr =>
    refine delimited_enclosedText_of_compound (by simp [connective])
      (delimited_constraintText_of (by simp [connective]) ?_)
    intro k l r hk
    cases hk
    exact ⟨ihl, ihr⟩
  | comparison | «exists» => exact delimited_enclosedText_of_subject hp hr rfl
  | not c ih =>
    rintro c' s t u v ⟨hc, hs⟩ ⟨hc', ht⟩ hu hv h
    -- what opens as a negation does is one
    obtain ⟨inner', rfl⟩ := eq_not_of_opening (constraintOpening_eq hs ht h).symm
    obtain ⟨a, ha, hs⟩ := enclosedText_not hs
    obtain ⟨b, hb, ht⟩ := enclosedText_not ht
    rw [hs, ht, List.append_assoc, List.append_assoc] at h
    have hinner : a.toList ++ u = b.toList ++ v := (List.cons.inj (List.append_cancel_left h)).2
    have hlegal' : inner'.IsLegal := hc'
    obtain ⟨rfl, huv⟩ := ih ⟨hc, ha⟩ ⟨hlegal', hb⟩ hu hv hinner
    exact ⟨rfl, huv⟩
  | fullText predicate =>
    rintro c' s t u v ⟨hc, hs⟩ ⟨hc', ht⟩ hu hv h
    obtain ⟨predicate', rfl⟩ := eq_fullText_of_opening (constraintOpening_eq hs ht h).symm
    obtain ⟨a, e, ha, he, hs⟩ := enclosedText_fullText hs
    obtain ⟨b, f, hb, hf, ht⟩ := enclosedText_fullText ht
    rw [hs, ht] at h
    have hinner : a.toList ++ (", ".toList ++ (e.toList ++ ')' :: u)) =
        b.toList ++ (", ".toList ++ (f.toList ++ ')' :: v)) := by simpa using h
    obtain ⟨hproperty, hrest⟩ :=
      delimited_propertyText hp _ ⟨hc.1, ha⟩ ⟨hc'.1, hb⟩ (by simp) (by simp) hinner
    obtain ⟨hexpression, huv⟩ := delimited_staticText hp hr _ ⟨hc.2, he⟩ ⟨hc'.2, hf⟩ (by simp)
      (by simp) (List.append_cancel_left hrest)
    obtain ⟨selector, property, expression⟩ := predicate
    cases hproperty
    cases hexpression
    exact ⟨rfl, (List.cons.inj huv).2⟩
  | structural relation s p =>
    rintro c' a b u v ⟨hc, ha⟩ ⟨hc', hb⟩ hu hv h
    obtain ⟨s', p', rfl⟩ := eq_structural_of_opening (constraintOpening_eq ha hb h).symm
    obtain ⟨ps, hps, ha⟩ := enclosedText_structural ha
    obtain ⟨pt, hpt, hb⟩ := enclosedText_structural hb
    rw [ha, hb] at h
    have hinner : (selectorText s).toList ++ (", ".toList ++ (ps.toList ++ ')' :: u)) =
        (selectorText s').toList ++ (", ".toList ++ (pt.toList ++ ')' :: v)) := by simpa using h
    obtain ⟨rfl, hrest⟩ := selectorText_append_cancel (by simp) (by simp) hinner
    obtain ⟨rfl, huv⟩ := delimited_pathText hp hr p ⟨hc, hps⟩ ⟨hc', hpt⟩ (by simp) (by simp)
      (List.append_cancel_left hrest)
    exact ⟨rfl, (List.cons.inj huv).2⟩

/-- A constraint by itself shows where it ends, unless a connective follows. -/
theorem delimited_constraintText (c : Constraint) :
    Delimited EndsConstraint (Writes Constraint.IsLegal (constraintText names)) c :=
  delimited_constraintText_of (fun _ => delimited_enclosedText hp hr c) fun _ left right _ =>
    ⟨delimited_enclosedText hp hr left, delimited_enclosedText hp hr right⟩

end Parts

end ContentQuery.Statement
