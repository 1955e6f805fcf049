import ContentQuery.Proofs.Text.Cut
import ContentQuery.Query.Escape

/-! # Where escaped texts end

A quoted text ends at the first single quote, a bracketed one at the first closing bracket, and a
bare name where its word ends. In a statement a dot, a comma, a closing parenthesis or a blank
follows, so an escaped text is known from the text it stands in front of. Neither can it be taken
for a keyword, which is told by the character behind it.
-/

namespace ContentQuery.Statement

open Text

/-- What follows an escaped text: nothing, or one of the characters that end it. -/
def Ends (rest : List Char) : Prop := ∀ c ∈ rest.head?, c ∈ ['.', ',', ')', ' ']

@[simp] theorem ends_nil : Ends [] := by simp [Ends]

@[simp] theorem ends_cons {c : Char} {cs : List Char} :
    Ends (c :: cs) ↔ c ∈ ['.', ',', ')', ' '] := by simp [Ends]

/-- The characters of bare names and keywords. -/
def isNameChar (c : Char) : Bool := c.isAlphanum || c == '_' || c == ':'

/-- No run of a class continues in what follows an escaped text if the class lacks the characters
that end it. -/
theorem Ends.head?_eq_false {p : Char → Bool} (hp : ['.', ',', ')', ' '].any p = false)
    {rest : List Char} (h : Ends rest) : ∀ c ∈ rest.head?, p c = false := by
  intro c hc
  simpa using List.any_eq_false.mp hp c (h c hc)

/-! ## Quoted texts -/

@[simp] theorem doubleQuotes_nil : doubleQuotes [] = [] := rfl

@[simp] theorem doubleQuotes_quote (cs : List Char) :
    doubleQuotes ('\'' :: cs) = '\'' :: '\'' :: doubleQuotes cs := rfl

theorem doubleQuotes_cons {c : Char} (hc : c ≠ '\'') (cs : List Char) :
    doubleQuotes (c :: cs) = c :: doubleQuotes cs := by
  simp [doubleQuotes, hc]

/-- Doubled quotes end at the first single one. -/
theorem doubleQuotes_append_cancel {cs ds u v : List Char} (hu : u.head? ≠ some '\'')
    (hv : v.head? ≠ some '\'')
    (h : doubleQuotes cs ++ '\'' :: u = doubleQuotes ds ++ '\'' :: v) : cs = ds ∧ u = v := by
  induction cs generalizing ds with
  | nil =>
    cases ds with
    | nil => simpa using h
    | cons d ds =>
      by_cases hd : d = '\''
      · -- what follows one closing quote would double it
        subst hd
        simp only [doubleQuotes_nil, doubleQuotes_quote, List.nil_append, List.cons_append,
          List.cons.injEq, true_and] at h
        simp [h] at hu
      · rw [doubleQuotes_cons hd] at h
        exact absurd (List.cons.inj h).1.symm hd
  | cons c cs ih =>
    cases ds with
    | nil =>
      by_cases hc : c = '\''
      · subst hc
        simp only [doubleQuotes_nil, doubleQuotes_quote, List.nil_append, List.cons_append,
          List.cons.injEq, true_and] at h
        simp [← h] at hv
      · rw [doubleQuotes_cons hc] at h
        exact absurd (List.cons.inj h).1 hc
    | cons d ds =>
      by_cases hc : c = '\'' <;> by_cases hd : d = '\''
      · subst hc hd
        simp only [doubleQuotes_quote, List.cons_append, List.cons.injEq, true_and] at h
        obtain ⟨rfl, huv⟩ := ih h
        exact ⟨rfl, huv⟩
      · subst hc
        rw [doubleQuotes_cons hd] at h
        exact absurd (List.cons.inj h).1.symm hd
      · subst hd
        rw [doubleQuotes_cons hc] at h
        exact absurd (List.cons.inj h).1 hc
      · rw [doubleQuotes_cons hc, doubleQuotes_cons hd] at h
        obtain ⟨rfl, htail⟩ := List.cons.inj h
        obtain ⟨rfl, huv⟩ := ih htail
        exact ⟨rfl, huv⟩

/-- A quoted text has its quotes doubled between two of them. -/
theorem toList_quote (text : String) :
    (quote text).toList = '\'' :: (doubleQuotes text.toList ++ ['\'']) := by
  simp [quote]

/-- What ends a text does not start with a quote, so the quote in front of it is the last one. -/
theorem Ends.head?_ne_quote {rest : List Char} (h : Ends rest) : rest.head? ≠ some '\'' :=
  fun hhead => absurd (h _ hhead) (by decide)

/-- A quoted text is known from the text it stands in front of. -/
theorem quote_append_cancel {x y : String} {u v : List Char} (hu : Ends u) (hv : Ends v)
    (h : (quote x).toList ++ u = (quote y).toList ++ v) : x = y ∧ u = v := by
  simp only [toList_quote, List.cons_append, List.append_assoc, List.nil_append, List.cons.injEq,
    true_and] at h
  obtain ⟨hxy, huv⟩ := doubleQuotes_append_cancel hu.head?_ne_quote hv.head?_ne_quote h
  exact ⟨String.toList_inj.mp hxy, huv⟩

/-! ## Escaped paths -/

/-- An escaped path stands in brackets or in quotes. -/
theorem escapePath_cases (text : String) :
    (escapePath text).toList = (quote text).toList ∨
      ']' ∉ text.toList ∧ (escapePath text).toList = '[' :: (text.toList ++ [']']) := by
  unfold escapePath
  by_cases hbracket : ']' ∈ text.toList
  · exact .inl (by simp [hbracket])
  · exact .inr ⟨hbracket, by simp [hbracket]⟩

/-- A bracketed text is known from the text it stands in front of. -/
theorem bracketed_append_cancel {x y : String} (hx : ']' ∉ x.toList) (hy : ']' ∉ y.toList)
    {u v : List Char} (h : '[' :: (x.toList ++ [']']) ++ u = '[' :: (y.toList ++ [']']) ++ v) :
    x = y ∧ u = v := by
  simp only [List.cons_append, List.append_assoc, List.nil_append, List.cons.injEq, true_and] at h
  obtain ⟨hxy, huv⟩ := append_separator_cancel hx hy h
  exact ⟨String.toList_inj.mp hxy, huv⟩

/-- An escaped path is known from the text it stands in front of. -/
theorem escapePath_append_cancel {x y : String} {u v : List Char} (hu : Ends u) (hv : Ends v)
    (h : (escapePath x).toList ++ u = (escapePath y).toList ++ v) : x = y ∧ u = v := by
  rcases escapePath_cases x with hx | ⟨hbx, hx⟩ <;> rcases escapePath_cases y with hy | ⟨hby, hy⟩ <;>
    rw [hx, hy] at h
  · exact quote_append_cancel hu hv h
  · simp [toList_quote] at h
  · simp [toList_quote] at h
  · exact bracketed_append_cancel hbx hby h

/-! ## Escaped names -/

/-- A word has characters, all of which may stand in a bare name. -/
theorem isNameChar_of_isWord {cs : List Char} (h : isWord cs = true) :
    cs ≠ [] ∧ ∀ c ∈ cs, isNameChar c = true := by
  cases cs with
  | nil => simp [isWord] at h
  | cons first rest =>
    simp only [isWord, Bool.and_eq_true, List.all_eq_true] at h
    refine ⟨by simp, List.forall_mem_cons.mpr ⟨?_, fun c hc => ?_⟩⟩
    · have hfirst := h.1
      simp only [isNameChar, Char.isAlphanum, Bool.or_eq_true] at hfirst ⊢
      tauto
    · have hrest := h.2 c hc
      simp only [isNameChar, Bool.or_eq_true] at hrest ⊢
      tauto

/-- A bare name has characters, all of them name characters. -/
theorem isNameChar_of_isBareName {text : String} (h : isBareName text = true) :
    text.toList ≠ [] ∧ ∀ c ∈ text.toList, isNameChar c = true := by
  simp only [isBareName, Bool.and_eq_true] at h
  have hwords := h.1
  split at hwords
  · next label localPart hsplit =>
    obtain ⟨htext, -⟩ := splitAtFirst?_eq_some hsplit
    simp only [Bool.and_eq_true] at hwords
    rw [htext]
    refine ⟨by simp, fun c hc => ?_⟩
    rcases List.mem_append.mp hc with hc | hc
    · exact (isNameChar_of_isWord hwords.1).2 c hc
    · rcases List.mem_cons.mp hc with rfl | hc
      · decide
      · exact (isNameChar_of_isWord hwords.2).2 c hc
  · exact isNameChar_of_isWord hwords

/-- An escaped name stands in brackets or in quotes, or bare if it is a word that can. -/
theorem escapeName_cases (text : String) :
    (escapeName text).toList = (quote text).toList ∨
      (']' ∉ text.toList ∧ (escapeName text).toList = '[' :: (text.toList ++ [']'])) ∨
      (isBareName text = true ∧ (escapeName text).toList = text.toList) := by
  unfold escapeName
  by_cases hbracket : ']' ∈ text.toList
  · exact .inl (by simp [hbracket])
  · by_cases hbare : isBareName text = true
    · exact .inr (.inr ⟨hbare, by simp [hbracket, hbare]⟩)
    · exact .inr (.inl ⟨hbracket, by simp [hbracket, hbare]⟩)

/-- A bare name starts with a name character. -/
theorem bare_append_ne_cons {x : String} (hx : isBareName x = true) {d : Char}
    (hd : isNameChar d = false) (u v : List Char) : x.toList ++ u ≠ d :: v :=
  run_append_ne_cons (isNameChar_of_isBareName hx).1 (isNameChar_of_isBareName hx).2 hd u v

/-- An escaped name starts with a quote, a bracket or a name character. -/
theorem escapeName_append_ne_cons (x : String) {d : Char} (hd : isNameChar d = false)
    (hquote : d ≠ '\'') (hbracket : d ≠ '[') (u v : List Char) :
    (escapeName x).toList ++ u ≠ d :: v := by
  rcases escapeName_cases x with hx | ⟨-, hx⟩ | ⟨hbare, hx⟩ <;> rw [hx]
  · simp [toList_quote, hquote.symm]
  · simp [hbracket.symm]
  · exact bare_append_ne_cons hbare hd u v

/-- An escaped name is known from the text it stands in front of. -/
theorem escapeName_append_cancel {x y : String} {u v : List Char} (hu : Ends u) (hv : Ends v)
    (h : (escapeName x).toList ++ u = (escapeName y).toList ++ v) : x = y ∧ u = v := by
  -- names of different forms differ in the first character
  rcases escapeName_cases x with hx | ⟨hbx, hx⟩ | ⟨hbx, hx⟩ <;>
    rcases escapeName_cases y with hy | ⟨hby, hy⟩ | ⟨hby, hy⟩ <;> rw [hx, hy] at h
  · exact quote_append_cancel hu hv h
  · simp [toList_quote] at h
  · rw [toList_quote, List.cons_append] at h
    exact absurd h.symm (bare_append_ne_cons hby (by decide) _ _)
  · simp [toList_quote] at h
  · exact bracketed_append_cancel hbx hby h
  · rw [List.cons_append] at h
    exact absurd h.symm (bare_append_ne_cons hby (by decide) _ _)
  · rw [toList_quote, List.cons_append] at h
    exact absurd h (bare_append_ne_cons hbx (by decide) _ _)
  · rw [List.cons_append] at h
    exact absurd h (bare_append_ne_cons hbx (by decide) _ _)
  · have hclass : ['.', ',', ')', ' '].any isNameChar = false := by decide
    obtain ⟨hxy, huv⟩ := run_append_cancel (isNameChar_of_isBareName hbx).2
      (isNameChar_of_isBareName hby).2 (hu.head?_eq_false hclass) (hv.head?_eq_false hclass) h
    exact ⟨String.toList_inj.mp hxy, huv⟩

/-- **Escaped names and paths show where they end.** Where nothing follows, or a dot, a comma, a closing
parenthesis or a blank, no two texts are escaped to the same, and what follows is known. -/
theorem escaped_self_delimiting {x y u v : String} (hu : Ends u.toList) (hv : Ends v.toList) :
    (escapeName x ++ u = escapeName y ++ v → x = y ∧ u = v) ∧
      (escapePath x ++ u = escapePath y ++ v → x = y ∧ u = v) := by
  have hcancel : ∀ {escape : String → String},
      (∀ {u v : List Char}, Ends u → Ends v →
        (escape x).toList ++ u = (escape y).toList ++ v → x = y ∧ u = v) →
      escape x ++ u = escape y ++ v → x = y ∧ u = v := by
    intro escape hescape h
    have hchars := congrArg String.toList h
    rw [String.toList_append, String.toList_append] at hchars
    obtain ⟨hxy, huv⟩ := hescape hu hv hchars
    exact ⟨hxy, String.toList_inj.mp huv⟩
  exact ⟨hcancel escapeName_append_cancel, hcancel escapePath_append_cancel⟩

/-- Quotes in front of the closing one, and one in what follows. -/
theorem escaped_self_delimiting_quotes :
    Ends ", '".toList ∧ Ends ")".toList ∧ escapeName "]'" ++ ", '" = "']''', '" ∧
      escapeName "]', '" ++ ")" = "']'', ''')" ∧
      escapeName "]'" ++ ", '" ≠ escapeName "]', '" ++ ")" ∧
      escapePath "]'" ++ ", '" ≠ escapePath "]', '" ++ ")" := by
  have hcomma : Ends ", '".toList := by simp
  have hparenthesis : Ends ")".toList := by simp
  have hends := escaped_self_delimiting (x := "]'") (y := "]', '") hcomma hparenthesis
  exact ⟨hcomma, hparenthesis, by decide +kernel, by decide +kernel,
    fun h => absurd (hends.1 h).1 (by decide), fun h => absurd (hends.2 h).1 (by decide)⟩

/-! ## Openings -/

/-- How a text opens: its first word, and the character behind it. -/
def opening (cs : List Char) : List Char × Option Char :=
  (cs.takeWhile isNameChar, (cs.dropWhile isNameChar).head?)

/-- A word in front of another character is the opening. -/
theorem opening_append {word : List Char} (hword : ∀ c ∈ word, isNameChar c = true) {d : Char}
    (hd : isNameChar d = false) (rest : List Char) :
    opening (word ++ d :: rest) = (word, some d) := by
  have hrest : ∀ c ∈ (d :: rest).head?, isNameChar c = false := by simpa using hd
  rw [opening, takeWhile_append_run hword hrest, dropWhile_append_run hword hrest]
  rfl

/-- A text opens with a keyword and the parenthesis or blank behind it, or, without a keyword, with
an escaped name in front of a dot. -/
def OpensWith (cs : List Char) : Option (String × Char) → Prop
  | some (keyword, d) => opening cs = (keyword.toList, some d) ∧ d ∈ ['(', ' ']
  | none => (opening cs).2 ∈ [some '.', some '\'', some '[']

/-- A text opens in one way only. -/
theorem OpensWith.unique {cs : List Char} {k k' : Option (String × Char)} (h : OpensWith cs k)
    (h' : OpensWith cs k') : k = k' := by
  have hclash : ∀ {keyword : String} {d : Char}, OpensWith cs (some (keyword, d)) →
      ¬ OpensWith cs none := by
    rintro keyword d ⟨hopen, hd⟩ hname
    simp only [OpensWith, hopen] at hname
    rcases List.mem_pair.mp hd with rfl | rfl <;> simp at hname
  match k, k', h, h' with
  | none, none, _, _ => rfl
  | none, some _, h, h' => exact absurd h (hclash h')
  | some _, none, h, h' => exact absurd h' (hclash h)
  | some (keyword, d), some (keyword', d'), h, h' =>
    have hopen := h.1.symm.trans h'.1
    rw [Prod.mk.injEq, Option.some.injEq] at hopen
    rw [String.toList_inj.mp hopen.1, hopen.2]

/-- A text that starts with a keyword and its bracket or space opens with it. -/
theorem opensWith_keyword {keyword : String} (hword : ∀ c ∈ keyword.toList, isNameChar c = true)
    {d : Char} (hd : d ∈ ['(', ' ']) {cs rest : List Char} (hcs : cs = keyword.toList ++ d :: rest) :
    OpensWith cs (some (keyword, d)) := by
  have hclass : isNameChar d = false := by
    rcases List.mem_pair.mp hd with rfl | rfl <;> decide
  rw [hcs]
  exact ⟨opening_append hword hclass rest, hd⟩

/-- Behind the first word of an escaped name stands what follows the name, or the word is empty and
a quote or a bracket opens the name. -/
theorem opensWith_escapeName (text : String) (rest : List Char) :
    OpensWith ((escapeName text).toList ++ '.' :: rest) none := by
  rcases escapeName_cases text with ht | ⟨-, ht⟩ | ⟨hbare, ht⟩ <;> rw [ht]
  · simp [OpensWith, opening, toList_quote, isNameChar]
  · simp [OpensWith, opening, isNameChar]
  · rw [OpensWith, opening_append (isNameChar_of_isBareName hbare).2 (by decide)]
    simp

end ContentQuery.Statement
