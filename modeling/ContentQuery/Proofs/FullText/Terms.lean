import ContentQuery.FullText.Searcher
import ContentQuery.Proofs.FullText.Words
import ContentQuery.Proofs.Text.Cut

/-! # The terms of full-text expressions

A `WrittenTerm` is a term together with how it is put together: a word or a phrase, after a minus or
not. `readTerm` gives a term exactly if the text starts with a written one, and two written terms
with the same text are the same.

The scanners take what is there and give back the rest, so a part is read from its text with any rest
that does not continue it. For a term that is the end of the text or a space.
-/

namespace ContentQuery.FullText

open Text

/-! ## Spaces -/

/-- The characters that the grammar has between terms: a space, a tab and the two ends of a line. -/
def separators : List Char := [' ', '\t', '\r', '\n']

/-- The reader passes over the separators of the grammar and over nothing else. -/
theorem isSpace_iff {c : Char} : isSpace c = true ↔ c ∈ separators := by
  simp [isSpace, separators, or_assoc]

/-- Any number of separators. -/
abbrev Spaces : Type := { cs : List Char // ∀ c ∈ cs, c ∈ separators }

/-- One or more separators. -/
abbrev Gap : Type := { cs : List Char // cs ≠ [] ∧ ∀ c ∈ cs, c ∈ separators }

/-- The reader passes over such a run as a whole. -/
theorem Spaces.forall_isSpace (spaces : Spaces) : ∀ c ∈ spaces.1, isSpace c = true := fun c hc =>
  isSpace_iff.mpr (spaces.2 c hc)

theorem Gap.forall_isSpace (gap : Gap) : ∀ c ∈ gap.1, isSpace c = true := fun c hc =>
  isSpace_iff.mpr (gap.2.2 c hc)

/-- What the reader passes over at the front of a text. -/
def Spaces.leading (cs : List Char) : Spaces :=
  ⟨cs.takeWhile isSpace, fun _ hc => isSpace_iff.mp (List.mem_takeWhile_imp hc)⟩

/-- The text is at its end or goes on with a space. -/
def EndsTerm (rest : List Char) : Prop := ∀ c ∈ rest.head?, isSpace c = true

/-- The text goes on, but not with a space. -/
def StartsPart (cs : List Char) : Prop := ∃ c rest, cs = c :: rest ∧ isSpace c = false

theorem StartsPart.append {cs : List Char} (h : StartsPart cs) (rest : List Char) :
    StartsPart (cs ++ rest) := by
  obtain ⟨c, cs, rfl, hc⟩ := h
  exact ⟨c, cs ++ rest, rfl, hc⟩

theorem StartsPart.head? {cs : List Char} (h : StartsPart cs) :
    ∀ c ∈ cs.head?, isSpace c = false := by
  obtain ⟨c, cs, rfl, hc⟩ := h
  simpa using hc

/-- Separators are blanks, so they end words. -/
theorem isBlank_of_isSpace {c : Char} (h : isSpace c = true) : isBlank c = true := by
  have hmem := isSpace_iff.mp h
  simp only [separators, List.mem_cons, List.not_mem_nil, or_false] at hmem
  rcases hmem with rfl | rfl | rfl | rfl <;> decide

/-- What does not end a word is no separator. -/
theorem isSpace_of_not_isBlank {c : Char} (h : isBlank c = false) : isSpace c = false := by
  by_contra hspace
  rw [Bool.not_eq_false] at hspace
  rw [isBlank_of_isSpace hspace] at h
  cases h

theorem endsTerm_gap (gap : Gap) (rest : List Char) : EndsTerm (gap.1 ++ rest) := by
  intro c hc
  rw [List.head?_append_of_ne_nil _ gap.2.1] at hc
  exact gap.forall_isSpace c (List.mem_of_mem_head? hc)

theorem endsTerm_spaces (spaces : Spaces) : EndsTerm spaces.1 := fun _ hc =>
  spaces.forall_isSpace _ (List.mem_of_mem_head? hc)

/-- A gap is passed over up to the part behind it. -/
theorem passSpaces?_gap (gap : Gap) {rest : List Char} (h : StartsPart rest) :
    passSpaces? (gap.1 ++ rest) = some rest := by
  have hspace := gap.forall_isSpace
  obtain ⟨cs, hne, _⟩ := gap
  obtain ⟨c, cs, rfl⟩ := List.exists_cons_of_ne_nil hne
  rw [List.forall_mem_cons] at hspace
  rw [List.cons_append, passSpaces?, if_pos hspace.1, dropWhile_append_run hspace.2 h.head?]

/-- What is passed over is a gap. -/
theorem exists_gap_of_passSpaces? {cs rest : List Char} (h : passSpaces? cs = some rest) :
    ∃ gap : Gap, cs = gap.1 ++ rest := by
  unfold passSpaces? at h
  split at h
  · next c cs =>
    split at h
    · next hc =>
      obtain rfl := Option.some.inj h
      refine ⟨⟨c :: (Spaces.leading cs).1, List.cons_ne_nil _ _, ?_⟩, ?_⟩
      · exact List.forall_mem_cons.mpr ⟨isSpace_iff.mp hc, (Spaces.leading cs).2⟩
      · rw [Spaces.leading, List.cons_append, List.takeWhile_append_dropWhile]
    · cases h
  · cases h

/-- Nothing stands behind spaces that are the whole text. -/
theorem eq_nil_of_passSpaces? {cs rest : List Char} (hspace : ∀ c ∈ cs, isSpace c = true)
    (h : passSpaces? cs = some rest) : rest = [] := by
  unfold passSpaces? at h
  split at h
  · next c cs =>
    rw [List.forall_mem_cons] at hspace
    rw [if_pos hspace.1] at h
    obtain rfl := Option.some.inj h
    exact List.dropWhile_eq_nil_iff.mpr hspace.2
  · cases h

/-- Spaces in front of one part are known from the text. -/
theorem gap_append_cancel {gap gap' : Gap} {u v : List Char} (hu : StartsPart u)
    (hv : StartsPart v) (h : gap.1 ++ u = gap'.1 ++ v) : gap = gap' ∧ u = v := by
  obtain ⟨heq, huv⟩ := run_append_cancel gap.forall_isSpace gap'.forall_isSpace hu.head? hv.head? h
  exact ⟨Subtype.ext heq, huv⟩

/-! ## Terms -/

/-- A word is a run without blanks and quotes that holds a letter or a number and is not `OR`. -/
structure IsWord (cs : List Char) : Prop where
  plain : ∀ c ∈ cs, isBlank c = false ∧ c ≠ '"'
  ne_or : cs ≠ ['O', 'R']
  alphanumeric : ∃ c ∈ cs, isAlphanumeric c = true

/-- A phrase is a text without quotes that holds a letter or a number. -/
structure IsPhrase (cs : List Char) : Prop where
  unquoted : '"' ∉ cs
  alphanumeric : ∃ c ∈ cs, isAlphanumeric c = true

/-- A term as it is written. A word that starts with a minus has another minus in front. -/
inductive WrittenTerm
  | word (excluded : Bool) (cs : List Char) (hword : IsWord cs)
      (hminus : excluded = false → cs.head? ≠ some '-')
  | phrase (excluded : Bool) (cs : List Char) (hphrase : IsPhrase cs)

namespace WrittenTerm

/-- The minus of an excluded term. -/
def minus (excluded : Bool) : List Char := if excluded then ['-'] else []

/-- The text of a term. -/
def chars : WrittenTerm → List Char
  | word excluded cs _ _ => minus excluded ++ cs
  | phrase excluded cs _ => minus excluded ++ '"' :: (cs ++ ['"'])

/-- The runs of letters and numbers in a text, in lower case. -/
def wordRuns (cs : List Char) : List String :=
  ((cs.splitOnP fun c => !isAlphanumeric c).filter fun run => !run.isEmpty).map fun run =>
    toLower (String.ofList run)

/-- The term that is written. -/
def term : WrittenTerm → Term
  | word excluded cs _ _ => ⟨wordRuns cs, excluded⟩
  | phrase excluded cs _ => ⟨wordRuns cs, excluded⟩

end WrittenTerm

open WrittenTerm

/-- The words that the scanner collects are the runs of letters and numbers. -/
theorem wordsOfChars_eq_wordRuns (cs : List Char) : wordsOfChars cs = wordRuns cs := by
  rw [wordsOfChars, runs_eq_filter_splitOnP, wordRuns]

theorem IsWord.isWordChar {cs : List Char} (h : IsWord cs) : ∀ c ∈ cs, isWordChar c = true := by
  intro c hc
  obtain ⟨hblank, hquote⟩ := h.plain c hc
  simp [FullText.isWordChar, hblank, hquote]

theorem IsWord.ne_nil {cs : List Char} (h : IsWord cs) : cs ≠ [] := by
  rintro rfl
  simpa using h.alphanumeric

/-- A letter or a number alone is a word. -/
theorem isWord_singleton {c : Char} (halphanumeric : isAlphanumeric c = true)
    (hplain : isBlank c = false ∧ c ≠ '"') : IsWord [c] :=
  ⟨List.forall_mem_singleton.mpr hplain, by simp, c, List.mem_singleton_self c, halphanumeric⟩

theorem EndsTerm.isWordChar {rest : List Char} (h : EndsTerm rest) :
    ∀ c ∈ rest.head?, isWordChar c = false := by
  intro c hc
  simp [FullText.isWordChar, isBlank_of_isSpace (h c hc)]

/-- A minus is split off, and from a text without one nothing is. -/
theorem splitMinus_append {excluded : Bool} {cs : List Char}
    (h : excluded = false → cs.head? ≠ some '-') :
    splitMinus (minus excluded ++ cs) = (excluded, cs) := by
  cases excluded with
  | true => rfl
  | false =>
    rw [minus, if_neg Bool.false_ne_true, List.nil_append]
    unfold splitMinus
    split
    · exact absurd rfl (h rfl)
    · rfl

/-- What splitting off a minus leaves does not start with one that was not split off. -/
theorem eq_minus_append_splitMinus (cs : List Char) :
    cs = minus (splitMinus cs).1 ++ (splitMinus cs).2 ∧
      ((splitMinus cs).1 = false → (splitMinus cs).2.head? ≠ some '-') := by
  unfold splitMinus
  split
  · exact ⟨rfl, nofun⟩
  · next hminus =>
    refine ⟨rfl, fun _ hhead => ?_⟩
    obtain ⟨rest, rfl⟩ := List.head?_eq_some_iff.mp hhead
    exact hminus rest rfl

/-- A phrase is scanned up to its second quote. -/
theorem scanText_phrase {cs : List Char} (h : IsPhrase cs) (rest : List Char) :
    scanText ('"' :: (cs ++ ['"']) ++ rest) = .ok (cs, rest) := by
  have hwords : wordsOfChars cs ≠ [] := (wordsOfChars_ne_nil_iff cs).mpr h.alphanumeric
  have hsplit : splitAtFirst? '"' (cs ++ '"' :: rest) = some (cs, rest) :=
    splitAtFirst?_append h.unquoted rest
  rw [List.cons_append, List.append_assoc, List.singleton_append, scanText, scanPhrase?, hsplit]
  simp [hwords]

/-- A word is scanned up to the next blank. -/
theorem scanText_word {cs rest : List Char} (h : IsWord cs) (hrest : EndsTerm rest) :
    scanText (cs ++ rest) = .ok (cs, rest) := by
  have hphrase : scanPhrase? (cs ++ rest) = none := by
    obtain ⟨c, cs, rfl⟩ := List.exists_cons_of_ne_nil h.ne_nil
    unfold scanPhrase?
    split
    · next heq =>
      exact absurd (List.cons.inj heq).1 (h.plain c List.mem_cons_self).2
    · rfl
  have hwords : wordsOfChars cs ≠ [] := (wordsOfChars_ne_nil_iff cs).mpr h.alphanumeric
  rw [scanText, hphrase]
  simp only [scanWord, takeWhile_append_run h.isWordChar hrest.isWordChar,
    dropWhile_append_run h.isWordChar hrest.isWordChar]
  rw [if_neg h.ne_nil, if_neg (by simp [h.ne_or, hwords])]

/-- What is scanned is a phrase in its quotes or a word. -/
theorem scanText_cases {cs text rest : List Char} (h : scanText cs = .ok (text, rest)) :
    (IsPhrase text ∧ cs = '"' :: (text ++ ['"']) ++ rest) ∨ (IsWord text ∧ cs = text ++ rest) := by
  unfold scanText at h
  split at h
  · next result hscan =>
    -- a phrase has to be closed and to hold a word
    obtain rfl := Except.ok.inj h
    unfold scanPhrase? at hscan
    split at hscan
    · next cs =>
      split at hscan
      · next phrase after hsplit =>
        split at hscan
        · cases hscan
        · next hwords =>
          obtain ⟨rfl, rfl⟩ := Prod.mk.inj (Option.some.inj hscan)
          obtain ⟨rfl, hquote⟩ := splitAtFirst?_eq_some hsplit
          exact .inl ⟨⟨hquote, (wordsOfChars_ne_nil_iff _).mp hwords⟩, by simp⟩
      · cases hscan
    · cases hscan
  · unfold scanWord at h
    split at h
    · cases h
    · split at h
      · cases h
      · next hrefused =>
        rw [not_or] at hrefused
        obtain ⟨rfl, rfl⟩ := Prod.mk.inj (Except.ok.inj h)
        refine .inr ⟨⟨fun c hc => ?_, hrefused.1, (wordsOfChars_ne_nil_iff _).mp hrefused.2⟩,
          List.takeWhile_append_dropWhile.symm⟩
        have hplain := List.mem_takeWhile_imp hc
        simpa [isWordChar] using hplain

/-- A term is read from its text. -/
theorem readTerm_chars (t : WrittenTerm) {rest : List Char} (h : EndsTerm rest) :
    readTerm (t.chars ++ rest) = .ok (t.term, rest) := by
  -- the minus is split off first; the rest is a word up to its blank or a phrase up to its quote
  cases t with
  | word excluded cs hword hminus =>
    have hsplit : splitMinus (minus excluded ++ (cs ++ rest)) = (excluded, cs ++ rest) := by
      refine splitMinus_append fun hexcluded => ?_
      rw [List.head?_append_of_ne_nil _ hword.ne_nil]
      exact hminus hexcluded
    rw [chars, List.append_assoc, readTerm, hsplit]
    simp only [scanText_word hword h]
    rw [wordsOfChars_eq_wordRuns, term]
  | phrase excluded cs hphrase =>
    have hsplit : splitMinus (minus excluded ++ ('"' :: (cs ++ ['"']) ++ rest)) =
        (excluded, '"' :: (cs ++ ['"']) ++ rest) := splitMinus_append fun _ => by simp
    rw [chars, List.append_assoc, readTerm, hsplit]
    simp only [scanText_phrase hphrase rest]
    rw [wordsOfChars_eq_wordRuns, term]

/-- What is read as a term is the text of one. -/
theorem exists_writtenTerm_of_readTerm {cs rest : List Char} {t : Term}
    (h : readTerm cs = .ok (t, rest)) :
    ∃ written : WrittenTerm, cs = written.chars ++ rest ∧ t = written.term := by
  obtain ⟨hcs, hminus⟩ := eq_minus_append_splitMinus cs
  unfold readTerm at h
  split at h
  · next text rest' hscan =>
    obtain ⟨rfl, rfl⟩ := Prod.mk.inj (Except.ok.inj h)
    rw [wordsOfChars_eq_wordRuns]
    rcases scanText_cases hscan with ⟨hphrase, heq⟩ | ⟨hword, heq⟩
    · refine ⟨.phrase (splitMinus cs).1 text hphrase, ?_, rfl⟩
      rw [chars, List.append_assoc, ← heq]
      exact hcs
    -- a word that starts with a minus would have had it split off
    · have hhead : (splitMinus cs).1 = false → text.head? ≠ some '-' := by
        intro hexcluded
        rw [← List.head?_append_of_ne_nil text hword.ne_nil, ← heq]
        exact hminus hexcluded
      refine ⟨.word (splitMinus cs).1 text hword hhead, ?_, rfl⟩
      rw [chars, List.append_assoc, ← heq]
      exact hcs
  · cases h

/-- A term starts with a minus, a quote or a character of its word. -/
theorem startsPart_chars (t : WrittenTerm) : StartsPart t.chars := by
  have hminus : ∀ {excluded cs}, StartsPart cs → StartsPart (minus excluded ++ cs) := by
    intro excluded cs hcs
    cases excluded with
    | true => exact ⟨'-', cs, rfl, rfl⟩
    | false => exact hcs
  cases t with
  | word excluded cs hword _ =>
    obtain ⟨c, cs, rfl⟩ := List.exists_cons_of_ne_nil hword.ne_nil
    exact hminus ⟨c, cs, rfl, isSpace_of_not_isBlank (hword.plain c List.mem_cons_self).1⟩
  | phrase excluded cs _ => exact hminus ⟨'"', _, rfl, rfl⟩

/-- A term is known from the text it stands in front of. -/
theorem WrittenTerm.chars_append_cancel {t t' : WrittenTerm} {u v : List Char} (hu : EndsTerm u)
    (hv : EndsTerm v) (h : t.chars ++ u = t'.chars ++ v) : t = t' ∧ u = v := by
  -- reading both texts gives one term and one rest
  have hread := readTerm_chars t hu
  rw [h, readTerm_chars t' hv] at hread
  obtain ⟨hterm, rfl⟩ := Prod.mk.inj (Except.ok.inj hread)
  have hexcluded := congrArg Term.excluded hterm
  rw [List.append_cancel_right_eq] at h
  refine ⟨?_, rfl⟩
  cases t with
  | word excluded cs hword hminus =>
    cases t' with
    | word excluded' cs' hword' hminus' =>
      obtain rfl : excluded' = excluded := hexcluded
      obtain rfl := List.append_cancel_left h
      rfl
    | phrase excluded' cs' hphrase' =>
      obtain rfl : excluded' = excluded := hexcluded
      have hquote := List.append_cancel_left h
      exact absurd rfl (hword.plain '"' (by simp [hquote])).2
  | phrase excluded cs hphrase =>
    cases t' with
    | word excluded' cs' hword' hminus' =>
      obtain rfl : excluded' = excluded := hexcluded
      have hquote := List.append_cancel_left h
      exact absurd rfl (hword'.plain '"' (by simp [← hquote])).2
    | phrase excluded' cs' hphrase' =>
      obtain rfl : excluded' = excluded := hexcluded
      obtain rfl := List.append_cancel_right (List.cons.inj (List.append_cancel_left h)).2
      rfl

end ContentQuery.FullText
