import ContentQuery.Proofs.Naming.PathText
import ContentQuery.Proofs.Query.Delimited

/-! # Operand texts

Names, paths, properties and both kinds of operands are delimited by what ends an escaped text. A
dynamic operand is a property, or opens with the name of its function and a parenthesis.
-/

namespace ContentQuery.Statement

open Naming Number Text

/-! ## Literals -/

theorem keyword_injective : Function.Injective PropertyType.keyword := by
  intro a b h
  cases a <;> cases b <;> first | rfl | simp [PropertyType.keyword] at h

/-- Keywords could stand as bare names, so a keyword ends where a name would. -/
theorem isNameChar_of_mem_keyword (type : PropertyType) :
    ∀ c ∈ type.keyword.toList, isNameChar c = true := by
  cases type <;> simp [PropertyType.keyword, isNameChar]

/-- A cast shows its text, its type and where it ends. -/
theorem castText_append_cancel {x y : String} {a b : PropertyType} {u v : List Char}
    (h : (castText x a).toList ++ u = (castText y b).toList ++ v) : x = y ∧ a = b ∧ u = v := by
  have hafter : ∀ (type : PropertyType) (w : List Char),
      Ends (" AS ".toList ++ (type.keyword.toList ++ ')' :: w)) := by simp
  have hquotes : (quote x).toList ++ (" AS ".toList ++ (a.keyword.toList ++ ')' :: u)) =
      (quote y).toList ++ (" AS ".toList ++ (b.keyword.toList ++ ')' :: v)) := by
    simpa [castText] using h
  obtain ⟨rfl, hrest⟩ := quote_append_cancel (hafter a u) (hafter b v) hquotes
  obtain ⟨htype, hclose⟩ := run_append_cancel (isNameChar_of_mem_keyword a)
    (isNameChar_of_mem_keyword b) (by simp [isNameChar]) (by simp [isNameChar])
    (List.append_cancel_left hrest)
  exact ⟨rfl, keyword_injective (String.toList_inj.mp htype), (List.cons.inj hclose).2⟩

section Parts

variable {names : Registry} (hp : names.Paired) (hr : names.PrefixesAvoid ['/', '[', ']'])

/-- The text of a legal literal is a quoted text, an integer, or a cast. -/
theorem literalText_cases {v : Value} (hv : v.IsLegal) {t : String}
    (h : literalText names v = .ok t) :
    (∃ x, v = .string x ∧ t = quote x) ∨ (∃ n, v = .long n ∧ t = integerText n.toInt) ∨
      ∃ x, v.lexical names = .ok x ∧ t = castText x v.type := by
  cases v with
  | string x =>
    cases h
    exact .inl ⟨x, rfl, rfl⟩
  | long n =>
    cases h
    exact .inr (.inl ⟨n, rfl, rfl⟩)
  | double | date | binary => exact hv.elim
  | boolean | name | path | reference =>
    simp only [literalText, bind_eq_ok_iff, pure_eq_ok_iff] at h
    obtain ⟨x, hx, rfl⟩ := h
    exact .inr (.inr ⟨x, hx, rfl⟩)

include hp hr

/-- Legal values of one type are told apart by their texts. -/
theorem value_eq_of_lexical {v w : Value} (hv : v.IsLegal) (hw : w.IsLegal) (htype : v.type = w.type)
    {x : String} (hvx : v.lexical names = .ok x) (hwx : w.lexical names = .ok x) : v = w := by
  cases v <;> cases w <;> simp only [Value.type, reduceCtorEq] at htype
  case string.string | reference.reference =>
    cases hvx
    cases hwx
    rfl
  case long.long n m =>
    cases hvx
    have htext : integerText m.toInt = integerText n.toInt := Except.ok.inj hwx
    rw [Int64.toInt_inj.mp (integerText_injective htext)]
  case boolean.boolean a b =>
    cases a <;> cases b <;> cases hvx <;> first | rfl | simp [Value.lexical, Value.lexicalForm?] at hwx
  case name.name n m => rw [hp.name_eq_of_nameText hv hw hvx hwx]
  case path.path p q => rw [hp.path_eq_of_pathText hr hv hw hvx hwx]
  all_goals exact hv.elim

/-- A literal shows where it ends. -/
theorem delimited_literalText (v : Value) :
    Delimited Ends (Writes Value.IsLegal (literalText names)) v := by
  rintro w s t u u' ⟨hv, hs⟩ ⟨hw, ht⟩ hu hu' h
  have hends : ['.', ',', ')', ' '].any isSignedDigit = false := by decide
  -- an integer starts like no quoted text and no cast
  have hinteger : ∀ (n : Int) {d : Char}, isSignedDigit d = false → ∀ a b : List Char,
      (integerText n).toList ++ a ≠ d :: b := fun n _ hd a b =>
    run_append_ne_cons (isSignedDigit_of_mem_integerText n).1 (isSignedDigit_of_mem_integerText n).2
      hd a b
  rcases literalText_cases hv hs with ⟨x, rfl, rfl⟩ | ⟨n, rfl, rfl⟩ | ⟨x, hx, rfl⟩ <;>
    rcases literalText_cases hw ht with ⟨y, rfl, rfl⟩ | ⟨m, rfl, rfl⟩ | ⟨y, hy, rfl⟩
  · obtain ⟨rfl, huv⟩ := quote_append_cancel hu hu' h
    exact ⟨rfl, huv⟩
  · exact absurd h.symm (by simpa [toList_quote] using hinteger _ (by decide) _ _)
  · simp [toList_quote, castText] at h
  · exact absurd h (by simpa [toList_quote] using hinteger _ (by decide) _ _)
  · obtain ⟨hnm, huv⟩ := run_append_cancel (isSignedDigit_of_mem_integerText _).2
      (isSignedDigit_of_mem_integerText _).2 (hu.head?_eq_false hends)
      (hu'.head?_eq_false hends) h
    have htext := integerText_injective (String.toList_inj.mp hnm)
    exact ⟨congrArg Value.long (Int64.toInt_inj.mp htext), huv⟩
  · exact absurd h (by simpa [castText] using hinteger _ (by decide) _ _)
  · simp [toList_quote, castText] at h
  · exact absurd h.symm (by simpa [castText] using hinteger _ (by decide) _ _)
  · obtain ⟨rfl, htype, huv⟩ := castText_append_cancel h
    exact ⟨value_eq_of_lexical hp hr hv hw htype hx hy, huv⟩

/-! ## Static operands -/

/-- The characters of identifiers. -/
def isIdentifierChar (c : Char) : Bool := isAlphanumeric c || c == '_'

omit hp hr in
/-- All characters of an identifier may stand in one. -/
theorem isIdentifierChar_of_isIdentifier {text : String} (h : Builder.isIdentifier text = true) :
    ∀ c ∈ text.toList, isIdentifierChar c = true := by
  unfold Builder.isIdentifier at h
  split at h
  · simp at h
  · next first rest htext =>
    simp only [Bool.and_eq_true, Bool.or_eq_true, List.all_eq_true] at h
    rw [htext, List.forall_mem_cons]
    refine ⟨?_, fun c hc => ?_⟩
    · have hfirst := h.1
      simp only [isIdentifierChar, isAlphanumeric, Bool.or_eq_true]
      tauto
    · have hrest := h.2 c hc
      simpa [isIdentifierChar] using hrest

omit hp hr in
/-- A literal starts with a quote, a sign or digit, or a letter. -/
theorem head?_literalText {v : Value} (hv : v.IsLegal) {t : String}
    (h : literalText names v = .ok t) (u w : List Char) : t.toList ++ u ≠ '$' :: w := by
  rcases literalText_cases hv h with ⟨x, rfl, rfl⟩ | ⟨n, rfl, rfl⟩ | ⟨x, hx, rfl⟩
  · simp [toList_quote]
  · exact run_append_ne_cons (isSignedDigit_of_mem_integerText _).1
      (isSignedDigit_of_mem_integerText _).2 (by decide) u w
  · simp [castText]

/-- A static operand shows where it ends. -/
theorem delimited_staticText (o : StaticOperand) :
    Delimited Ends (Writes StaticOperand.IsLegal (staticText names)) o := by
  rintro o' s t u v ⟨ho, hs⟩ ⟨ho', ht⟩ hu hv h
  cases o with
  | literal x =>
    cases o' with
    | literal y =>
      obtain ⟨rfl, huv⟩ := delimited_literalText hp hr x ⟨ho, hs⟩ ⟨ho', ht⟩ hu hv h
      exact ⟨rfl, huv⟩
    | «variable» y =>
      -- no literal opens as a variable does
      cases ht
      exact absurd h (by simpa using head?_literalText ho hs u _)
  | «variable» x =>
    cases hs
    cases o' with
    | literal y => exact absurd h.symm (by simpa using head?_literalText ho' ht v _)
    | «variable» y =>
      cases ht
      have hends : ['.', ',', ')', ' '].any isIdentifierChar = false := by decide
      have hidentifiers : x.text.toList ++ u = y.text.toList ++ v := by simpa using h
      obtain ⟨hxy, huv⟩ := run_append_cancel (isIdentifierChar_of_isIdentifier ho)
        (isIdentifierChar_of_isIdentifier ho') (hu.head?_eq_false hends) (hv.head?_eq_false hends)
        hidentifiers
      have hname : (⟨x.text⟩ : VariableName) = ⟨y.text⟩ := by rw [String.toList_inj.mp hxy]
      exact ⟨congrArg StaticOperand.variable hname, huv⟩

/-! ## Names, paths and properties -/

omit hr in
/-- A name shows where it ends. -/
theorem delimited_nameText (n : Name) :
    Delimited Ends (Writes Name.IsLegal (nameText names)) n := by
  rintro m s t u v ⟨hn, hs⟩ ⟨hm, ht⟩ hu hv h
  simp only [nameText, bind_eq_ok_iff, pure_eq_ok_iff] at hs ht
  obtain ⟨ns, hns, rfl⟩ := hs
  obtain ⟨nt, hnt, rfl⟩ := ht
  obtain ⟨rfl, huv⟩ := escapeName_append_cancel hu hv h
  exact ⟨hp.name_eq_of_nameText hn hm hns hnt, huv⟩

/-- A path shows where it ends. -/
theorem delimited_pathText (p : Path) :
    Delimited Ends (Writes Path.IsLegal (pathText names)) p := by
  rintro q s t u v ⟨hpl, hs⟩ ⟨hql, ht⟩ hu hv h
  simp only [pathText, bind_eq_ok_iff, pure_eq_ok_iff] at hs ht
  obtain ⟨ps, hps, rfl⟩ := hs
  obtain ⟨pt, hpt, rfl⟩ := ht
  obtain ⟨rfl, huv⟩ := escapePath_append_cancel hu hv h
  exact ⟨hp.path_eq_of_pathText hr hpl hql hps hpt, huv⟩

omit hp hr in
/-- A selector shows where it ends. -/
theorem selectorText_append_cancel {a b : SelectorName} {u v : List Char} (hu : Ends u)
    (hv : Ends v) (h : (selectorText a).toList ++ u = (selectorText b).toList ++ v) :
    a = b ∧ u = v := by
  obtain ⟨hab, huv⟩ := escapeName_append_cancel hu hv h
  exact ⟨congrArg SelectorName.mk hab, huv⟩

omit hp hr in
/-- A property is a selector, a dot, and a star or a name. -/
theorem propertyText_cases {p : PropertyOperand} {t : String}
    (h : propertyText names p = .ok t) :
    ∃ rest, t.toList = (selectorText p.selector).toList ++ '.' :: rest ∧
      (p.property = none ∧ rest = ['*'] ∨
        ∃ n nt, p.property = some n ∧ nameText names n = .ok nt ∧ rest = nt.toList) := by
  obtain ⟨selector, property⟩ := p
  cases property with
  | none =>
    cases h
    exact ⟨_, by simp, .inl ⟨rfl, rfl⟩⟩
  | some n =>
    simp only [propertyText, bind_eq_ok_iff, pure_eq_ok_iff] at h
    obtain ⟨nt, hnt, rfl⟩ := h
    exact ⟨_, by simp, .inr ⟨n, nt, rfl, hnt, rfl⟩⟩

omit hp hr in
/-- A name is no star. -/
theorem nameText_append_ne_star {n : Name} {t : String} (h : nameText names n = .ok t)
    (u v : List Char) : t.toList ++ u ≠ '*' :: v := by
  simp only [nameText, bind_eq_ok_iff, pure_eq_ok_iff] at h
  obtain ⟨nt, -, rfl⟩ := h
  exact escapeName_append_ne_cons nt (by decide) (by decide) (by decide) u v

omit hr in
/-- A property shows where it ends. -/
theorem delimited_propertyText (p : PropertyOperand) :
    Delimited Ends (Writes PropertyOperand.IsLegal (propertyText names)) p := by
  rintro q s t u v ⟨hpl, hs⟩ ⟨hql, ht⟩ hu hv h
  obtain ⟨ps, hps, hcase⟩ := propertyText_cases hs
  obtain ⟨pt, hpt, hcase'⟩ := propertyText_cases ht
  rw [hps, hpt, List.append_assoc, List.append_assoc] at h
  obtain ⟨hselector, hdot⟩ := selectorText_append_cancel (by simp) (by simp) h
  have hrest : ps ++ u = pt ++ v := (List.cons.inj hdot).2
  suffices hproperty : p.property = q.property ∧ u = v from
    ⟨congrArg₂ PropertyOperand.mk hselector hproperty.1, hproperty.2⟩
  -- behind the dot stands a star or a name, and no name starts with a star
  rcases hcase with ⟨hnone, rfl⟩ | ⟨n, ns, hn, hns, rfl⟩ <;>
    rcases hcase' with ⟨hnone', rfl⟩ | ⟨m, nt, hm, hnt, rfl⟩
  · exact ⟨hnone.trans hnone'.symm, (List.cons.inj hrest).2⟩
  · exact absurd hrest.symm (nameText_append_ne_star hnt v _)
  · exact absurd hrest (nameText_append_ne_star hns u _)
  · obtain ⟨rfl, huv⟩ := delimited_nameText hp n ⟨hpl n hn, hns⟩ ⟨hql m hm, hnt⟩ hu hv hrest
    exact ⟨hn.trans hm.symm, huv⟩

omit hp hr in
/-- A property opens with no keyword. -/
theorem opensWith_propertyText {p : PropertyOperand} {t : String} (h : propertyText names p = .ok t)
    (u : List Char) : OpensWith (t.toList ++ u) none := by
  obtain ⟨rest, hrest, -⟩ := propertyText_cases h
  rw [hrest, List.append_assoc, List.cons_append]
  exact opensWith_escapeName _ _

/-! ## Dynamic operands -/

/-- The function whose call writes a dynamic operand; a property has none. -/
def operandFunction : DynamicOperand → Option String
  | .property _ => none
  | .length _ => some "LENGTH"
  | .nodeName _ => some "NAME"
  | .localName _ => some "LOCALNAME"
  | .score _ => some "SCORE"
  | .upper _ => some "UPPER"
  | .lower _ => some "LOWER"

/-- The text of a property, or what stands between the parentheses of a call. -/
def argumentText (names : Registry) : DynamicOperand → Written
  | .property p | .length p => propertyText names p
  | .nodeName s | .localName s | .score s => .ok (selectorText s)
  | .upper o | .lower o => dynamicText names o

omit hp hr in
/-- A dynamic operand is a property, or the call of a function. -/
theorem dynamicText_cases {o : DynamicOperand} {t : String} (h : dynamicText names o = .ok t) :
    (∃ p, o = .property p ∧ propertyText names p = .ok t) ∨
      ∃ f a, operandFunction o = some f ∧ (∀ c ∈ f.toList, isNameChar c = true) ∧
        argumentText names o = .ok a ∧ t.toList = f.toList ++ '(' :: (a.toList ++ [')']) := by
  cases o with
  | property p => exact .inl ⟨p, rfl, h⟩
  | length | upper | lower =>
    simp only [dynamicText, bind_eq_ok_iff, pure_eq_ok_iff] at h
    obtain ⟨a, ha, rfl⟩ := h
    exact .inr ⟨_, a, rfl, by simp [isNameChar], ha, by simp⟩
  | nodeName | localName | score =>
    cases h
    exact .inr ⟨_, _, rfl, by simp [isNameChar], rfl, by simp⟩

omit hp hr in
/-- A dynamic operand opens with the name of its function, if it has one. -/
theorem opensWith_dynamicText {o : DynamicOperand} {t : String} (h : dynamicText names o = .ok t)
    (u : List Char) : OpensWith (t.toList ++ u) ((operandFunction o).map (·, '(')) := by
  rcases dynamicText_cases h with ⟨p, rfl, hpt⟩ | ⟨f, a, hf, hword, -, ht⟩
  · exact opensWith_propertyText hpt u
  · rw [hf]
    exact opensWith_keyword hword (by simp) (by rw [ht, List.append_assoc, List.cons_append])

omit hp hr in
/-- Dynamic operands that one text starts with are written by one function. -/
theorem operandFunction_eq {o o' : DynamicOperand} {s t : String}
    (hs : dynamicText names o = .ok s) (ht : dynamicText names o' = .ok t) {u v : List Char}
    (h : s.toList ++ u = t.toList ++ v) : operandFunction o = operandFunction o' := by
  have hopen := (opensWith_dynamicText hs u).unique (h ▸ opensWith_dynamicText ht v)
  exact Option.map_injective (Prod.mk_left_injective '(') hopen

omit hp hr in
/-- Behind one function stand the arguments. -/
theorem argumentText_append_eq {o o' : DynamicOperand} {s t : String}
    (hs : dynamicText names o = .ok s) (ht : dynamicText names o' = .ok t) {u v : List Char}
    (h : s.toList ++ u = t.toList ++ v) (hcall : operandFunction o ≠ none) :
    ∃ a b, argumentText names o = .ok a ∧ argumentText names o' = .ok b ∧
      a.toList ++ ')' :: u = b.toList ++ ')' :: v := by
  have hfunction := operandFunction_eq hs ht h
  rcases dynamicText_cases hs with ⟨p, rfl, -⟩ | ⟨f, a, hf, -, ha, hs⟩
  · exact absurd rfl hcall
  rcases dynamicText_cases ht with ⟨p, rfl, -⟩ | ⟨f', b, hf', -, hb, ht⟩
  · exact absurd hfunction hcall
  obtain rfl : f = f' := by simpa [hf, hf'] using hfunction
  refine ⟨a, b, ha, hb, ?_⟩
  rw [hs, ht] at h
  simpa using h

omit hr in
/-- A dynamic operand shows where it ends. -/
theorem delimited_dynamicText (o : DynamicOperand) :
    Delimited Ends (Writes DynamicOperand.IsLegal (dynamicText names)) o := by
  -- the functions agree, so only equal constructors are left, and their arguments are delimited
  induction o with
  | property p =>
    rintro o' s t u v ⟨ho, hs⟩ ⟨ho', ht⟩ hu hv h
    have hfunction := operandFunction_eq hs ht h
    cases o' <;> simp only [operandFunction, reduceCtorEq] at hfunction
    obtain ⟨rfl, huv⟩ := delimited_propertyText hp p ⟨ho, hs⟩ ⟨ho', ht⟩ hu hv h
    exact ⟨rfl, huv⟩
  | length p =>
    rintro o' s t u v ⟨ho, hs⟩ ⟨ho', ht⟩ hu hv h
    have hfunction := operandFunction_eq hs ht h
    obtain ⟨a, b, ha, hb, harguments⟩ := argumentText_append_eq hs ht h (by simp [operandFunction])
    cases o' <;> simp [operandFunction] at hfunction
    obtain ⟨rfl, huv⟩ :=
      delimited_propertyText hp p ⟨ho, ha⟩ ⟨ho', hb⟩ (by simp) (by simp) harguments
    exact ⟨rfl, (List.cons.inj huv).2⟩
  | nodeName n | localName n | score n =>
    rintro o' s t u v ⟨ho, hs⟩ ⟨ho', ht⟩ hu hv h
    have hfunction := operandFunction_eq hs ht h
    obtain ⟨a, b, ha, hb, harguments⟩ := argumentText_append_eq hs ht h (by simp [operandFunction])
    cases o' <;> simp [operandFunction] at hfunction
    cases ha
    cases hb
    obtain ⟨rfl, huv⟩ := selectorText_append_cancel (by simp) (by simp) harguments
    exact ⟨rfl, (List.cons.inj huv).2⟩
  | upper inner ih | lower inner ih =>
    rintro o' s t u v ⟨ho, hs⟩ ⟨ho', ht⟩ hu hv h
    have hfunction := operandFunction_eq hs ht h
    obtain ⟨a, b, ha, hb, harguments⟩ := argumentText_append_eq hs ht h (by simp [operandFunction])
    cases o' <;> simp [operandFunction] at hfunction
    next inner' =>
      have hinner' : inner'.IsLegal := ho'
      obtain ⟨rfl, huv⟩ := ih ⟨ho, ha⟩ ⟨hinner', hb⟩ (by simp) (by simp) harguments
      exact ⟨rfl, (List.cons.inj huv).2⟩

end Parts

end ContentQuery.Statement
