import ContentQuery.Proofs.FullText.Terms

/-! # The grammar of full-text expressions

A `Reading` is an expression together with how it is put together: the terms of its conjunctions and
the spaces between them. Reading a text gives a query exactly if the text is the text of a reading,
and then the query of that reading; and a text has at most one reading.

A conjunction ends where behind the spaces no further term can be read: at the end of the text, and
in front of an `OR`. That is why an `OR` need not be looked for while terms are read, and why the
spaces in front of it are given back.
-/

namespace ContentQuery.FullText

open Text

/-! ## Conjunctions -/

/-- A further term as it is written, with the spaces in front. -/
abbrev NextTerm : Type := Gap × WrittenTerm

/-- The text of a further term. -/
def NextTerm.chars (next : NextTerm) : List Char := next.1.1 ++ next.2.chars

/-- A conjunction as it is written. -/
structure WrittenConjunction where
  first : WrittenTerm
  more : List NextTerm

namespace WrittenConjunction

/-- The text of a conjunction. -/
def chars (conjunction : WrittenConjunction) : List Char :=
  conjunction.first.chars ++ conjunction.more.flatMap NextTerm.chars

/-- The terms that are written. -/
def terms (conjunction : WrittenConjunction) : List Term :=
  conjunction.first.term :: conjunction.more.map fun next => next.2.term

end WrittenConjunction

/-- The text does not continue a conjunction. -/
def EndsConjunction (rest : List Char) : Prop :=
  EndsTerm rest ∧ ∀ next, passSpaces? rest = some next → ∃ failure, readTerm next = .error failure

theorem NextTerm.endsTerm_chars_append (next : NextTerm) (rest : List Char) :
    EndsTerm (next.chars ++ rest) := by
  rw [chars, List.append_assoc]
  exact endsTerm_gap next.1 _

theorem NextTerm.passSpaces?_chars (next : NextTerm) (rest : List Char) :
    passSpaces? (next.chars ++ rest) = some (next.2.chars ++ rest) := by
  rw [chars, List.append_assoc]
  exact passSpaces?_gap next.1 ((startsPart_chars next.2).append rest)

/-- A conjunction does not end in front of a further term. -/
theorem NextTerm.not_endsConjunction (next : NextTerm) {rest : List Char} (h : EndsTerm rest) :
    ¬ EndsConjunction (next.chars ++ rest) := by
  rintro ⟨-, hends⟩
  obtain ⟨failure, hfailure⟩ := hends _ (next.passSpaces?_chars rest)
  rw [readTerm_chars next.2 h] at hfailure
  cases hfailure

/-- A further term is known from the text it stands in front of, with its gap. -/
theorem NextTerm.chars_append_cancel {next next' : NextTerm} {u v : List Char} (hu : EndsTerm u)
    (hv : EndsTerm v) (h : next.chars ++ u = next'.chars ++ v) : next = next' ∧ u = v := by
  rw [chars, chars, List.append_assoc, List.append_assoc] at h
  obtain ⟨hgap, hterms⟩ := gap_append_cancel ((startsPart_chars next.2).append u)
    ((startsPart_chars next'.2).append v) h
  obtain ⟨hterm, huv⟩ := WrittenTerm.chars_append_cancel hu hv hterms
  exact ⟨Prod.ext hgap hterm, huv⟩

/-- What follows a term is a gap, or what follows the conjunction. -/
theorem endsTerm_moreTerms (more : List NextTerm) {rest : List Char} (h : EndsTerm rest) :
    EndsTerm (more.flatMap NextTerm.chars ++ rest) := by
  cases more with
  | nil => exact h
  | cons next more =>
    rw [List.flatMap_cons, List.append_assoc]
    exact next.endsTerm_chars_append _

theorem startsPart_conjunction (conjunction : WrittenConjunction) : StartsPart conjunction.chars :=
  (startsPart_chars conjunction.first).append _

/-- A conjunction is known from the text it stands in front of. -/
theorem WrittenConjunction.chars_append_cancel {conjunction conjunction' : WrittenConjunction}
    {u v : List Char} (hu : EndsConjunction u) (hv : EndsConjunction v)
    (h : conjunction.chars ++ u = conjunction'.chars ++ v) :
    conjunction = conjunction' ∧ u = v := by
  obtain ⟨first, more⟩ := conjunction
  obtain ⟨first', more'⟩ := conjunction'
  rw [chars, chars, List.append_assoc, List.append_assoc] at h
  obtain ⟨rfl, hmore⟩ := WrittenTerm.chars_append_cancel (endsTerm_moreTerms more hu.1)
    (endsTerm_moreTerms more' hv.1) h
  obtain ⟨rfl, huv⟩ := flatMap_append_cancel NextTerm.chars_append_cancel
    NextTerm.endsTerm_chars_append (fun _ hstop => hstop.1) NextTerm.not_endsConjunction hu hv hmore
  exact ⟨rfl, huv⟩

/-- No further term is read where the conjunction ends. -/
theorem readMoreTerms_of_endsConjunction {rest : List Char} (h : EndsConjunction rest) :
    readMoreTerms rest = ([], rest) := by
  rw [readMoreTerms]
  split
  · rfl
  · next next hspaces =>
    obtain ⟨failure, hfailure⟩ := h.2 next hspaces
    split
    · rfl
    · next hterm =>
      rw [hfailure] at hterm
      cases hterm

/-- A term behind spaces is taken, and then those that follow it. -/
theorem readMoreTerms_of_readTerm {cs next rest : List Char} {t : Term}
    (hspaces : passSpaces? cs = some next) (hterm : readTerm next = .ok (t, rest)) :
    readMoreTerms cs = (t :: (readMoreTerms rest).1, (readMoreTerms rest).2) := by
  rw [readMoreTerms]
  split
  · next hnone =>
    rw [hspaces] at hnone
    cases hnone
  · next next' hnext =>
    obtain rfl : next = next' := Option.some.inj (hspaces.symm.trans hnext)
    split
    · next hfailure =>
      rw [hterm] at hfailure
      cases hfailure
    · next hread =>
      obtain ⟨rfl, rfl⟩ := Prod.mk.inj (Except.ok.inj (hterm.symm.trans hread))
      rfl

/-- Further terms are read from their text. -/
theorem readMoreTerms_chars (more : List NextTerm) {rest : List Char} (h : EndsConjunction rest) :
    readMoreTerms (more.flatMap NextTerm.chars ++ rest) = (more.map fun next => next.2.term, rest) := by
  induction more with
  | nil => exact readMoreTerms_of_endsConjunction h
  | cons next more ih =>
    have hterm := readTerm_chars next.2 (endsTerm_moreTerms more h.1)
    rw [List.flatMap_cons, List.append_assoc,
      readMoreTerms_of_readTerm (next.passSpaces?_chars _) hterm, ih, List.map_cons]

/-- A conjunction is read from its text. -/
theorem readConjunction_chars (conjunction : WrittenConjunction) {rest : List Char}
    (h : EndsConjunction rest) :
    readConjunction (conjunction.chars ++ rest) = .ok (conjunction.terms, rest) := by
  rw [WrittenConjunction.chars, List.append_assoc, readConjunction,
    readTerm_chars _ (endsTerm_moreTerms _ h.1)]
  simp only [readMoreTerms_chars _ h]
  rw [WrittenConjunction.terms]

/-- What is read as further terms is the text of such terms. -/
theorem exists_moreTerms_of_readMoreTerms (cs : List Char) :
    ∃ more : List NextTerm, cs = more.flatMap NextTerm.chars ++ (readMoreTerms cs).2 ∧
      (readMoreTerms cs).1 = more.map fun next => next.2.term := by
  fun_induction readMoreTerms cs with
  | case1 => exact ⟨[], rfl, rfl⟩
  | case2 => exact ⟨[], rfl, rfl⟩
  | case3 cs next hspaces term rest hterm ih =>
    obtain ⟨gap, rfl⟩ := exists_gap_of_passSpaces? hspaces
    obtain ⟨written, rfl, rfl⟩ := exists_writtenTerm_of_readTerm hterm
    obtain ⟨more, hmore, hterms⟩ := ih
    refine ⟨(gap, written) :: more, ?_, by rw [hterms, List.map_cons]⟩
    rw [List.flatMap_cons, NextTerm.chars, List.append_assoc, List.append_assoc, ← hmore]

/-- What is read as a conjunction is the text of one. -/
theorem exists_conjunction_of_readConjunction {cs rest : List Char} {terms : List Term}
    (h : readConjunction cs = .ok (terms, rest)) :
    ∃ conjunction : WrittenConjunction, cs = conjunction.chars ++ rest ∧
      terms = conjunction.terms := by
  unfold readConjunction at h
  split at h
  · cases h
  · next term after hterm =>
    obtain ⟨rfl, rfl⟩ := Prod.mk.inj (Except.ok.inj h)
    obtain ⟨written, rfl, rfl⟩ := exists_writtenTerm_of_readTerm hterm
    obtain ⟨more, hmore, hterms⟩ := exists_moreTerms_of_readMoreTerms after
    refine ⟨⟨written, more⟩, ?_, by rw [hterms, WrittenConjunction.terms]⟩
    rw [WrittenConjunction.chars, List.append_assoc, ← hmore]

/-! ## Conjunctions with an `OR` between them -/

/-- A further conjunction as it is written, with the spaces before and behind its `OR`. -/
structure NextConjunction where
  before : Gap
  behind : Gap
  conjunction : WrittenConjunction

/-- The text of a further conjunction. -/
def NextConjunction.chars (next : NextConjunction) : List Char :=
  next.before.1 ++ 'O' :: 'R' :: (next.behind.1 ++ next.conjunction.chars)

theorem NextConjunction.chars_append (next : NextConjunction) (rest : List Char) :
    next.chars ++ rest =
      next.before.1 ++ 'O' :: 'R' :: (next.behind.1 ++ (next.conjunction.chars ++ rest)) := by
  rw [chars, List.append_assoc, List.cons_append, List.cons_append, List.append_assoc]

/-- `OR` is no word. -/
theorem readTerm_or {rest : List Char} (h : EndsTerm rest) :
    readTerm ('O' :: 'R' :: rest) = .error (.refusedWord, 'O' :: 'R' :: rest) := by
  have hchars : ∀ c ∈ ['O', 'R'], isWordChar c = true :=
    List.forall_mem_cons.mpr ⟨by decide, List.forall_mem_singleton.mpr (by decide)⟩
  have htake : ('O' :: 'R' :: rest).takeWhile isWordChar = ['O', 'R'] :=
    takeWhile_append_run hchars h.isWordChar
  have hphrase : scanPhrase? ('O' :: 'R' :: rest) = none := rfl
  have hscan : scanText ('O' :: 'R' :: rest) = .error .refusedWord := by
    rw [scanText, hphrase]
    simp [scanWord, htake]
  have hminus : splitMinus ('O' :: 'R' :: rest) = (false, 'O' :: 'R' :: rest) := rfl
  rw [readTerm, hminus]
  simp only [hscan]

/-- A conjunction ends in front of an `OR`. -/
theorem NextConjunction.endsConjunction_chars_append (next : NextConjunction) (rest : List Char) :
    EndsConjunction (next.chars ++ rest) := by
  rw [next.chars_append]
  refine ⟨endsTerm_gap _ _, fun text hspaces => ?_⟩
  rw [passSpaces?_gap next.before ⟨'O', _, rfl, rfl⟩] at hspaces
  obtain rfl := Option.some.inj hspaces
  exact ⟨_, readTerm_or (endsTerm_gap next.behind _)⟩

/-- A conjunction ends in front of spaces with nothing behind them. -/
theorem endsConjunction_spaces (spaces : Spaces) : EndsConjunction spaces.1 := by
  refine ⟨endsTerm_spaces spaces, fun text hspaces => ?_⟩
  obtain rfl := eq_nil_of_passSpaces? spaces.forall_isSpace hspaces
  exact ⟨(.missingWord, []), rfl⟩

theorem startsPart_or (rest : List Char) : StartsPart ('O' :: 'R' :: rest) :=
  ⟨'O', 'R' :: rest, rfl, rfl⟩

/-- A further conjunction is not made of spaces. -/
theorem NextConjunction.not_spaces (next : NextConjunction) (rest : List Char) :
    ¬ ∀ c ∈ next.chars ++ rest, isSpace c = true := by
  intro hspaces
  rw [next.chars_append] at hspaces
  have hor : isSpace 'O' = true := hspaces 'O' (List.mem_append_right _ List.mem_cons_self)
  cases hor

/-- A further conjunction is known from the text it stands in front of, with its `OR` and both gaps. -/
theorem NextConjunction.chars_append_cancel {next next' : NextConjunction} {u v : List Char}
    (hu : EndsConjunction u) (hv : EndsConjunction v) (h : next.chars ++ u = next'.chars ++ v) :
    next = next' ∧ u = v := by
  obtain ⟨before, behind, conjunction⟩ := next
  obtain ⟨before', behind', conjunction'⟩ := next'
  rw [chars_append, chars_append] at h
  obtain ⟨rfl, hor⟩ := gap_append_cancel (startsPart_or _) (startsPart_or _) h
  have hbehind := (List.cons.inj (List.cons.inj hor).2).2
  obtain ⟨rfl, hconjunction⟩ := gap_append_cancel ((startsPart_conjunction conjunction).append u)
    ((startsPart_conjunction conjunction').append v) hbehind
  obtain ⟨rfl, huv⟩ := WrittenConjunction.chars_append_cancel hu hv hconjunction
  exact ⟨rfl, huv⟩

/-- A conjunction is followed by an `OR`, or by the spaces at the end. -/
theorem endsConjunction_moreConjunctions (more : List NextConjunction) (trailing : Spaces) :
    EndsConjunction (more.flatMap NextConjunction.chars ++ trailing.1) := by
  cases more with
  | nil => exact endsConjunction_spaces trailing
  | cons next more =>
    rw [List.flatMap_cons, List.append_assoc]
    exact next.endsConjunction_chars_append _

/-- Further conjunctions and the spaces at the end are known from their text. -/
theorem moreConjunctions_cancel {more more' : List NextConjunction} {trailing trailing' : Spaces}
    (h : more.flatMap NextConjunction.chars ++ trailing.1 =
      more'.flatMap NextConjunction.chars ++ trailing'.1) : more = more' ∧ trailing = trailing' := by
  obtain ⟨hmore, htrailing⟩ := flatMap_append_cancel
    NextConjunction.chars_append_cancel NextConjunction.endsConjunction_chars_append
    (fun u (hu : ∀ c ∈ u, isSpace c = true) =>
      endsConjunction_spaces ⟨u, fun c hc => isSpace_iff.mp (hu c hc)⟩)
    (fun next u _ => next.not_spaces u) trailing.forall_isSpace trailing'.forall_isSpace h
  exact ⟨hmore, Subtype.ext htrailing⟩

/-- An `OR` is passed over with the spaces around it. -/
theorem NextConjunction.passOr?_chars (next : NextConjunction) (rest : List Char) :
    passOr? (next.chars ++ rest) = some (next.conjunction.chars ++ rest) := by
  rw [next.chars_append, passOr?, passSpaces?_gap next.before (startsPart_or _)]
  exact passSpaces?_gap next.behind ((startsPart_conjunction next.conjunction).append rest)

theorem passOr?_spaces (spaces : Spaces) : passOr? spaces.1 = none := by
  unfold passOr?
  split
  · next hspaces => cases eq_nil_of_passSpaces? spaces.forall_isSpace hspaces
  · rfl

/-- No further conjunction is read without an `OR`. -/
theorem readMoreConjunctions_of_passOr?_eq_none {cs : List Char} (h : passOr? cs = none) :
    readMoreConjunctions cs = ([], cs) := by
  rw [readMoreConjunctions]
  split
  · rfl
  · next hor =>
    rw [h] at hor
    cases hor

/-- A conjunction behind an `OR` is taken, and then those that follow it. -/
theorem readMoreConjunctions_of_readConjunction {cs next rest : List Char} {terms : List Term}
    (hor : passOr? cs = some next) (hconjunction : readConjunction next = .ok (terms, rest)) :
    readMoreConjunctions cs =
      (terms :: (readMoreConjunctions rest).1, (readMoreConjunctions rest).2) := by
  rw [readMoreConjunctions]
  split
  · next hnone =>
    rw [hor] at hnone
    cases hnone
  · next next' hnext =>
    obtain rfl : next = next' := Option.some.inj (hor.symm.trans hnext)
    split
    · next hfailure =>
      rw [hconjunction] at hfailure
      cases hfailure
    · next hread =>
      obtain ⟨rfl, rfl⟩ := Prod.mk.inj (Except.ok.inj (hconjunction.symm.trans hread))
      rfl

/-- Further conjunctions are read from their text, and the spaces at the end are left. -/
theorem readMoreConjunctions_chars (more : List NextConjunction) (trailing : Spaces) :
    readMoreConjunctions (more.flatMap NextConjunction.chars ++ trailing.1) =
      (more.map fun next => next.conjunction.terms, trailing.1) := by
  induction more with
  | nil => exact readMoreConjunctions_of_passOr?_eq_none (passOr?_spaces trailing)
  | cons next more ih =>
    have hconjunction := readConjunction_chars next.conjunction
      (endsConjunction_moreConjunctions more trailing)
    rw [List.flatMap_cons, List.append_assoc,
      readMoreConjunctions_of_readConjunction (next.passOr?_chars _) hconjunction, ih,
      List.map_cons]

/-- What is passed over as an `OR` has gaps on both sides. -/
theorem exists_gaps_of_passOr? {cs rest : List Char} (h : passOr? cs = some rest) :
    ∃ before behind : Gap, cs = before.1 ++ 'O' :: 'R' :: (behind.1 ++ rest) := by
  unfold passOr? at h
  split at h
  · next hspaces =>
    obtain ⟨before, rfl⟩ := exists_gap_of_passSpaces? hspaces
    obtain ⟨behind, rfl⟩ := exists_gap_of_passSpaces? h
    exact ⟨before, behind, rfl⟩
  · cases h

/-- What is read as further conjunctions is the text of such conjunctions. -/
theorem exists_moreConjunctions_of_readMoreConjunctions (cs : List Char) :
    ∃ more : List NextConjunction,
      cs = more.flatMap NextConjunction.chars ++ (readMoreConjunctions cs).2 ∧
        (readMoreConjunctions cs).1 = more.map fun next => next.conjunction.terms := by
  fun_induction readMoreConjunctions cs with
  | case1 => exact ⟨[], rfl, rfl⟩
  | case2 => exact ⟨[], rfl, rfl⟩
  | case3 cs next hor terms rest hconjunction ih =>
    obtain ⟨before, behind, rfl⟩ := exists_gaps_of_passOr? hor
    obtain ⟨conjunction, rfl, rfl⟩ := exists_conjunction_of_readConjunction hconjunction
    obtain ⟨more, hmore, hterms⟩ := ih
    refine ⟨⟨before, behind, conjunction⟩ :: more, ?_, by rw [hterms, List.map_cons]⟩
    rw [List.flatMap_cons, List.append_assoc, NextConjunction.chars_append, ← hmore]

/-! ## Expressions -/

/-- An expression as it is written. -/
structure Reading where
  leading : Spaces
  first : WrittenConjunction
  more : List NextConjunction
  trailing : Spaces

namespace Reading

/-- The text of an expression. -/
def chars (reading : Reading) : List Char :=
  reading.leading.1 ++
    (reading.first.chars ++ (reading.more.flatMap NextConjunction.chars ++ reading.trailing.1))

/-- The expression that is written. -/
def query (reading : Reading) : Query :=
  ⟨reading.first.terms :: reading.more.map fun next => next.conjunction.terms⟩

/-- An expression has one reading. -/
theorem chars_injective : Function.Injective chars := by
  intro reading reading' h
  obtain ⟨leading, first, more, trailing⟩ := reading
  obtain ⟨leading', first', more', trailing'⟩ := reading'
  obtain ⟨hleading, hfirst⟩ := run_append_cancel leading.forall_isSpace leading'.forall_isSpace
    ((startsPart_conjunction first).append _).head?
    ((startsPart_conjunction first').append _).head? h
  obtain rfl := Subtype.ext hleading
  obtain ⟨rfl, hmore⟩ := WrittenConjunction.chars_append_cancel
    (endsConjunction_moreConjunctions more trailing)
    (endsConjunction_moreConjunctions more' trailing') hfirst
  obtain ⟨rfl, rfl⟩ := moreConjunctions_cancel hmore
  rfl

/-- An expression is read from its text. -/
theorem readChars_chars (reading : Reading) : readChars reading.chars = .ok reading.query := by
  have hstart := (startsPart_conjunction reading.first).append
    (reading.more.flatMap NextConjunction.chars ++ reading.trailing.1)
  have hfirst := readConjunction_chars reading.first
    (endsConjunction_moreConjunctions reading.more reading.trailing)
  have hleft : reading.trailing.1.dropWhile isSpace = [] :=
    List.dropWhile_eq_nil_iff.mpr reading.trailing.forall_isSpace
  rw [readChars, chars, dropWhile_append_run reading.leading.forall_isSpace hstart.head?, hfirst]
  simp only [readMoreConjunctions_chars, hleft]
  rw [query]

end Reading

/-- What is read as an expression is the text of one. -/
theorem exists_reading_of_readChars {cs : List Char} {query : Query}
    (h : readChars cs = .ok query) :
    ∃ reading : Reading, reading.chars = cs ∧ reading.query = query := by
  unfold readChars at h
  split at h
  · cases h
  · next terms rest hfirst =>
    obtain ⟨first, hcs, rfl⟩ := exists_conjunction_of_readConjunction hfirst
    obtain ⟨more, hrest, hterms⟩ := exists_moreConjunctions_of_readMoreConjunctions rest
    simp only at h
    split at h
    -- only spaces are left over
    · next hleft =>
      obtain rfl := Except.ok.inj h
      rw [List.dropWhile_eq_nil_iff] at hleft
      refine ⟨⟨.leading cs, first, more, ⟨_, fun c hc => isSpace_iff.mp (hleft c hc)⟩⟩, ?_,
        by rw [Reading.query, hterms]⟩
      rw [Reading.chars, ← hrest, ← hcs, Spaces.leading, List.takeWhile_append_dropWhile]
    · cases h

/-- The queries that are read are those of the readings of the text. -/
theorem readChars_eq_ok_iff {cs : List Char} {query : Query} :
    readChars cs = .ok query ↔ ∃ reading : Reading, reading.chars = cs ∧ reading.query = query := by
  constructor
  · exact exists_reading_of_readChars
  · rintro ⟨reading, rfl, rfl⟩
    exact reading.readChars_chars

/-- **Expressions are read by their grammar.** Reading gives the query of the one reading whose text
the expression is. If there is none, the expression is invalid. -/
theorem readExpression_grammar (text : String) :
    (∀ query, readExpression text = .ok query ↔
      ∃ reading : Reading, reading.chars = text.toList ∧ reading.query = query) ∧
    (∀ reading reading' : Reading, reading.chars = text.toList → reading'.chars = text.toList →
      reading = reading') ∧
    ((∀ reading : Reading, reading.chars ≠ text.toList) →
      ∃ fault rest, readExpression text = .error (.invalidExpression text fault rest)) := by
  have hread : ∀ query, readExpression text = .ok query ↔ readChars text.toList = .ok query := by
    intro query
    rw [readExpression, Query.read]
    cases readChars text.toList <;> simp [Except.mapError]
  refine ⟨fun query => (hread query).trans readChars_eq_ok_iff, ?_, ?_⟩
  · intro reading reading' h h'
    exact Reading.chars_injective (h.trans h'.symm)
  · intro hnone
    -- a query that is read would have a reading
    cases hchars : readChars text.toList with
    | ok query =>
      obtain ⟨reading, htext, -⟩ := exists_reading_of_readChars hchars
      exact absurd htext (hnone reading)
    | error failure =>
      refine ⟨failure.1, String.ofList failure.2, ?_⟩
      rw [readExpression, Query.read, hchars]
      rfl

/-- Every separator and an `OR` in one expression. A no-break space separates no terms. -/
theorem readExpression_grammar_separators :
    let a : WrittenTerm := .word false ['a'] (isWord_singleton (by decide) (by decide)) (by decide)
    let b : WrittenTerm := .word true ['b'] (isWord_singleton (by decide) (by decide)) nofun
    let c : WrittenTerm := .phrase false ['c', '\t', 'd'] ⟨by decide, 'c', by simp, by decide⟩
    let reading : Reading := {
      leading := ⟨['\n'], by simp [separators]⟩
      first := ⟨a, [(⟨[' ', '\t'], by simp [separators]⟩, b)]⟩
      more := [⟨⟨['\r', '\n'], by simp [separators]⟩, ⟨[' '], by simp [separators]⟩, ⟨c, []⟩⟩]
      trailing := ⟨['\r'], by simp [separators]⟩ }
    reading.chars = "\na \t-b\r\nOR \"c\td\"\r".toList ∧
      reading.query = ⟨[[⟨["a"], false⟩, ⟨["b"], true⟩], [⟨["c", "d"], false⟩]]⟩ ∧
      readExpression "\na \t-b\r\nOR \"c\td\"\r" = .ok reading.query ∧
      (∀ reading' : Reading, reading'.chars = "\na \t-b\r\nOR \"c\td\"\r".toList →
        reading' = reading) ∧
      (∀ reading' : Reading, reading'.chars ≠ "a\u00a0b".toList) ∧
      ∃ fault rest, readExpression "a\u00a0b" = .error (.invalidExpression "a\u00a0b" fault rest) := by
  intro a b c reading
  have hchars : reading.chars = "\na \t-b\r\nOR \"c\td\"\r".toList := by decide +kernel
  have hquery : reading.query = ⟨[[⟨["a"], false⟩, ⟨["b"], true⟩], [⟨["c", "d"], false⟩]]⟩ := by
    decide +kernel
  obtain ⟨hread, hone, -⟩ := readExpression_grammar "\na \t-b\r\nOR \"c\td\"\r"
  obtain ⟨hread', -, hinvalid⟩ := readExpression_grammar "a\u00a0b"
  have hnone : ∀ reading' : Reading, reading'.chars ≠ "a\u00a0b".toList := by
    intro reading' htext
    have hok := (hread' reading'.query).mpr ⟨reading', htext, rfl⟩
    have hfails : (readExpression "a\u00a0b").isOk = false := by decide +kernel
    rw [hok] at hfails
    cases hfails
  exact ⟨hchars, hquery, (hread reading.query).mpr ⟨reading, hchars, rfl⟩,
    fun reading' htext => hone reading' reading htext hchars, hnone, hinvalid hnone⟩

end ContentQuery.FullText
