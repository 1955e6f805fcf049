import ContentQuery.FullText.Searcher
import ContentQuery.Proofs.FullText.Grammar
import ContentQuery.Proofs.Outcome

/-! # What a full-text query matches

A row of words occurs in a text if it is a contiguous part of the text's words, and the places where
it begins are the occurrences counted. A list of terms is satisfied if the terms that are not excluded
occur and the excluded ones do not; a query matches if one of its alternatives is satisfied, and the
first one that is gives the score. A term without words would be found nowhere, but no such term is
ever read.
-/

namespace ContentQuery.FullText

open Naming Number

/-! ## Occurrences -/

/-- The places of a text where a row of words begins. -/
def startsOf (row text : List String) : List ℕ :=
  (List.range text.length).filter fun i => row <+: text.drop i

/-- A row starts wherever the rest of the text begins with it. -/
theorem mem_startsOf_iff {row text : List String} {i : ℕ} :
    i ∈ startsOf row text ↔ i < text.length ∧ row <+: text.drop i := by
  simp [startsOf]

/-- A row starts at the front of the text, or further on where it starts in the rest. -/
theorem startsOf_cons (row : List String) (w : String) (rest : List String) :
    startsOf row (w :: rest) =
      (if row <+: w :: rest then [0] else []) ++ (startsOf row rest).map Nat.succ := by
  rw [startsOf, List.length_cons, List.range_succ_eq_map, List.filter_cons, List.filter_map,
    startsOf]
  simp only [List.drop_zero, decide_eq_true_eq]
  split <;> rfl

/-- The occurrences counted are the places where the row begins. -/
theorem occurrencesOf_eq_length (row text : List String) :
    occurrencesOf row text = (startsOf row text).length := by
  induction text with
  | nil => rfl
  | cons w rest ih =>
    rw [occurrencesOf, ih, startsOf_cons, List.length_append, List.length_map]
    congr 1
    simp only [List.isPrefixOf_iff_prefix]
    split <;> rfl

/-- A row that is not empty begins somewhere exactly if it is a contiguous part of the text. -/
theorem startsOf_ne_nil_iff {row : List String} (hrow : row ≠ []) (text : List String) :
    startsOf row text ≠ [] ↔ row <:+: text := by
  rw [Ne, List.eq_nil_iff_forall_not_mem, List.infix_iff_prefix_suffix]
  push Not
  constructor
  · rintro ⟨i, hi⟩
    exact ⟨text.drop i, (mem_startsOf_iff.mp hi).2, List.drop_suffix i text⟩
  · rintro ⟨rest, hprefix, before, rfl⟩
    have hrest : rest ≠ [] := fun h => hrow (List.prefix_nil.mp (h ▸ hprefix))
    refine ⟨before.length, mem_startsOf_iff.mpr ⟨?_, by rwa [List.drop_left]⟩⟩
    rw [List.length_append]
    have := List.length_pos_iff.mpr hrest
    omega

/-- The scanner counts the positions at which the row of a term starts. -/
theorem occurrences_eq_length {term : Term} (hwords : term.words ≠ []) (text : List String) :
    term.occurrences text = (startsOf term.words text).length := by
  rw [Term.occurrences, if_neg hwords, occurrencesOf_eq_length]

/-- It counts none exactly if the row is nowhere in the text. -/
theorem occurrences_eq_zero_iff {term : Term} (hwords : term.words ≠ []) (text : List String) :
    term.occurrences text = 0 ↔ ¬ term.words <:+: text := by
  rw [occurrences_eq_length hwords, List.length_eq_zero_iff, ← startsOf_ne_nil_iff hwords,
    not_not]

/-! ## Alternatives -/

/-- A text has the terms that are not excluded and lacks the excluded ones. -/
structure Satisfies (text : List String) (terms : List Term) : Prop where
  found : ∀ term ∈ terms, term.excluded = false → term.words <:+: text
  absent : ∀ term ∈ terms, term.excluded = true → ¬ term.words <:+: text

/-- The number of places where one of the terms that are not excluded begins. -/
def startCount (text : List String) (terms : List Term) : ℕ :=
  ((terms.filter fun term => !term.excluded).map fun term => (startsOf term.words text).length).sum

theorem satisfies_nil (text : List String) : Satisfies text [] := ⟨by simp, by simp⟩

/-- A text satisfies a list of terms if it satisfies the first one and the others. -/
theorem satisfies_cons_iff {text : List String} {term : Term} {terms : List Term} :
    Satisfies text (term :: terms) ↔
      (term.words <:+: text ↔ term.excluded = false) ∧ Satisfies text terms := by
  constructor
  · rintro ⟨hfound, habsent⟩
    rw [List.forall_mem_cons] at hfound habsent
    refine ⟨⟨fun h => ?_, hfound.1⟩, hfound.2, habsent.2⟩
    exact Bool.eq_false_iff.mpr fun hexcluded => habsent.1 hexcluded h
  · rintro ⟨hterm, hfound, habsent⟩
    refine ⟨List.forall_mem_cons.mpr ⟨hterm.mpr, hfound⟩,
      List.forall_mem_cons.mpr ⟨fun hexcluded h => ?_, habsent⟩⟩
    rw [hterm.mp h] at hexcluded
    cases hexcluded

theorem Satisfies.perm {text : List String} {terms terms' : List Term} (hperm : terms.Perm terms')
    (h : Satisfies text terms) : Satisfies text terms' :=
  ⟨fun term hterm => h.found term (hperm.mem_iff.mpr hterm),
    fun term hterm => h.absent term (hperm.mem_iff.mpr hterm)⟩

/-- Every term has words. -/
def HaveWords (terms : List Term) : Prop := ∀ term ∈ terms, term.words ≠ []

/-- Terms are counted exactly if they are satisfied, and then all the places where one that is not
excluded begins. -/
theorem hitsOfTerms_eq_some_iff {text : List String} {terms : List Term} {n : ℕ}
    (hwords : HaveWords terms) :
    hitsOfTerms text terms = some n ↔ Satisfies text terms ∧ startCount text terms = n := by
  induction terms generalizing n with
  | nil => simp [hitsOfTerms, satisfies_nil, startCount]
  | cons term terms ih =>
    obtain ⟨hterm, hterms⟩ := List.forall_mem_cons.mp hwords
    have hzero := occurrences_eq_zero_iff hterm text
    rw [hitsOfTerms, satisfies_cons_iff]
    -- an excluded term must not be found and counts nothing
    by_cases hexcluded : term.excluded = true
    · have hcount : startCount text (term :: terms) = startCount text terms := by
        simp [startCount, hexcluded]
      by_cases hfound : term.occurrences text = 0
      · simp [hexcluded, hfound, ih hterms, hzero.mp hfound, hcount]
      · have hoccurs : term.words <:+: text := by rwa [hzero, not_not] at hfound
        simp [hexcluded, hfound, hoccurs]
    · rw [Bool.not_eq_true] at hexcluded
      have hcount : startCount text (term :: terms) =
          term.occurrences text + startCount text terms := by
        simp [startCount, hexcluded, occurrences_eq_length hterm]
      by_cases hfound : term.occurrences text = 0
      · simp [hexcluded, hfound, hzero.mp hfound]
      · have hoccurs : term.words <:+: text := by rwa [hzero, not_not] at hfound
        simp [hexcluded, hfound, hoccurs, ih hterms, hcount]

/-- Counting stops exactly at a term that the text does not satisfy. -/
theorem hitsOfTerms_eq_none_iff {text : List String} {terms : List Term}
    (hwords : HaveWords terms) : hitsOfTerms text terms = none ↔ ¬ Satisfies text terms := by
  rw [Option.eq_none_iff_forall_ne_some]
  simp [hitsOfTerms_eq_some_iff hwords]

/-! ## Queries -/

namespace Query

/-- Every term of every alternative has words. -/
def IsWordy (query : Query) : Prop := ∀ terms ∈ query.alternatives, HaveWords terms

/-- The same alternatives in some order, each with the same terms in some order. -/
def Rearranged (query other : Query) : Prop :=
  Relation.Comp (List.Forall₂ List.Perm) List.Perm query.alternatives other.alternatives

variable {query other : Query}

/-- The first satisfied alternative gives the hits. -/
theorem hits_eq_some_iff (hquery : query.IsWordy) {text : List String} {n : ℕ} :
    query.hits text = some n ↔ ∃ before terms after,
      query.alternatives = before ++ terms :: after ∧
        (∀ earlier ∈ before, ¬ Satisfies text earlier) ∧ Satisfies text terms ∧
          startCount text terms = n := by
  -- the hits of the first alternative that has any
  rw [hits, List.findSome?_eq_some_iff]
  constructor
  · rintro ⟨before, terms, after, heq, hterms, hbefore⟩
    have hwords : HaveWords terms := hquery terms (by simp [heq])
    obtain ⟨hsatisfies, hcount⟩ := (hitsOfTerms_eq_some_iff hwords).mp hterms
    refine ⟨before, terms, after, heq, fun earlier hearlier => ?_, hsatisfies, hcount⟩
    exact (hitsOfTerms_eq_none_iff (hquery earlier (by simp [heq, hearlier]))).mp
      (hbefore earlier hearlier)
  · rintro ⟨before, terms, after, heq, hbefore, hsatisfies, hcount⟩
    have hwords : HaveWords terms := hquery terms (by simp [heq])
    refine ⟨before, terms, after, heq,
      (hitsOfTerms_eq_some_iff hwords).mpr ⟨hsatisfies, hcount⟩, fun earlier hearlier => ?_⟩
    exact (hitsOfTerms_eq_none_iff (hquery earlier (by simp [heq, hearlier]))).mpr
      (hbefore earlier hearlier)

/-- A query matches exactly if one of its alternatives is satisfied. -/
theorem isMatch_iff_satisfies (hquery : query.IsWordy) (text : String) :
    query.isMatch text = true ↔ ∃ terms ∈ query.alternatives, Satisfies (words text) terms := by
  have hnone : query.hits (words text) = none ↔
      ∀ terms ∈ query.alternatives, ¬ Satisfies (words text) terms := by
    rw [hits, List.findSome?_eq_none_iff]
    exact forall₂_congr fun terms hterms => hitsOfTerms_eq_none_iff (hquery terms hterms)
  rw [isMatch, ← Option.ne_none_iff_isSome, Ne, hnone]
  push Not
  rfl

/-- Lists of terms that are the same up to their order are satisfied together. -/
theorem exists_satisfies_congr {text : List String} {alternatives alternatives' : List (List Term)}
    (h : List.Forall₂ List.Perm alternatives alternatives') :
    (∃ terms ∈ alternatives, Satisfies text terms) ↔
      ∃ terms ∈ alternatives', Satisfies text terms := by
  induction h with
  | nil => rfl
  | cons hperm _ ih =>
    simp only [List.exists_mem_cons_iff]
    exact or_congr ⟨.perm hperm, .perm hperm.symm⟩ ih

theorem Rearranged.isWordy (h : query.Rearranged other) (hquery : query.IsWordy) :
    other.IsWordy := by
  obtain ⟨alternatives, hterms, hperm⟩ := h
  intro terms' hterms'
  refine forall_mem_of_forall₂ hterms (P := HaveWords) (fun terms hmem terms' hperm' => ?_) _
    (hperm.mem_iff.mpr hterms')
  exact fun term hterm => hquery terms hmem term (hperm'.mem_iff.mpr hterm)

/-- The order of alternatives and terms does not matter to what a query matches. -/
theorem Rearranged.isMatch_eq (h : query.Rearranged other) (hquery : query.IsWordy)
    (text : String) : other.isMatch text = query.isMatch text := by
  rw [Bool.eq_iff_iff, isMatch_iff_satisfies (h.isWordy hquery), isMatch_iff_satisfies hquery]
  obtain ⟨alternatives, hterms, hperm⟩ := h
  simp only [← hperm.mem_iff]
  exact (exists_satisfies_congr hterms).symm

/-- The score of a query that matches comes from its first satisfied alternative. -/
theorem score_eq_of_hits {text : String} {n : ℕ} (h : query.hits (words text) = some n) :
    query.score text =
      if words text = [] then .zero else .ofQuotient false n (words text).length := by
  rw [score, h]

/-- A text that does not match has the score zero. -/
theorem score_of_not_isMatch {text : String} (h : query.isMatch text = false) :
    query.score text = .zero := by
  rw [isMatch, ← Bool.not_eq_true, Option.not_isSome_iff_eq_none] at h
  rw [score, h]

end Query

/-! ## Expressions -/

/-- Every term that can be written has a word. -/
theorem WrittenTerm.words_ne_nil (written : WrittenTerm) : written.term.words ≠ [] := by
  cases written with
  | word excluded cs hword hminus =>
    rw [term, ← wordsOfChars_eq_wordRuns]
    exact (wordsOfChars_ne_nil_iff cs).mpr hword.alphanumeric
  | phrase excluded cs hphrase =>
    rw [term, ← wordsOfChars_eq_wordRuns]
    exact (wordsOfChars_ne_nil_iff cs).mpr hphrase.alphanumeric

theorem WrittenConjunction.haveWords (conjunction : WrittenConjunction) :
    HaveWords conjunction.terms := by
  refine List.forall_mem_cons.mpr ⟨conjunction.first.words_ne_nil, fun term hterm => ?_⟩
  obtain ⟨next, -, rfl⟩ := List.mem_map.mp hterm
  exact next.2.words_ne_nil

/-- The terms of an expression that can be read have words. -/
theorem isWordy_of_readExpression {expression : String} {query : Query}
    (h : readExpression expression = .ok query) : query.IsWordy := by
  have hchars : readChars expression.toList = .ok query :=
    mapError_eq_ok_iff.mp (mapError_eq_ok_iff.mp h)
  obtain ⟨reading, -, rfl⟩ := exists_reading_of_readChars hchars
  refine List.forall_mem_cons.mpr ⟨reading.first.haveWords, fun terms hterms => ?_⟩
  obtain ⟨next, -, rfl⟩ := List.mem_map.mp hterms
  exact next.conjunction.haveWords

/-! ## Searching nodes -/

variable {t : Tree} {request : Request} {query : Query} {text : String}

/-- Searching for an expression that is read matches the text of the node. -/
theorem termMatch_search (hread : readExpression request.expression = .ok query)
    (htext : textOfNode t request.node request.property = .ok text) :
    termMatch.search t request = .ok (query.isMatch text) := by
  simp only [termMatch, hread, htext]
  rfl

theorem termMatch_score (hread : readExpression request.expression = .ok query)
    (htext : textOfNode t request.node request.property = .ok text) :
    termMatch.score t request = .ok (query.score text) := by
  simp only [termMatch, hread, htext]
  rfl

/-- A score that is not zero comes with a match. -/
theorem search_of_score_ne_zero {x : Double} (hscore : termMatch.score t request = .ok x)
    (hx : x ≠ .zero) : termMatch.search t request = .ok true := by
  obtain ⟨query, hread, hrest⟩ := bind_eq_ok_iff.mp hscore
  obtain ⟨text, htext, hvalue⟩ := bind_eq_ok_iff.mp hrest
  rw [pure_eq_ok_iff] at hvalue
  rw [termMatch_search hread htext]
  by_contra hmatch
  refine hx (hvalue ▸ Query.score_of_not_isMatch ?_)
  simpa using hmatch

/-- **A full-text query is decided by its alternatives.** A query that is read from an expression
matches a text exactly if one of its alternatives is satisfied by the words of the text, so that the
order of alternatives and terms does not matter. The score is zero without a match; with one it is
the number of places where the terms of the first satisfied alternative begin, divided by the number
of words, or zero if there are none. Searching and scoring a node give the two for the text of the
node, so a node with a score other than zero is found. -/
theorem query_decided_by_alternatives {expression : String} {query : Query}
    (hread : readExpression expression = .ok query) (text : String) :
    (query.isMatch text = true ↔
      ∃ terms ∈ query.alternatives, Satisfies (words text) terms) ∧
    (∀ other, query.Rearranged other → other.isMatch text = query.isMatch text) ∧
    (query.isMatch text = false → query.score text = .zero) ∧
    (query.isMatch text = true → ∃ before terms after,
      query.alternatives = before ++ terms :: after ∧
        (∀ earlier ∈ before, ¬ Satisfies (words text) earlier) ∧ Satisfies (words text) terms ∧
        query.score text = if words text = [] then .zero
          else .ofQuotient false (startCount (words text) terms) (words text).length) ∧
    ∀ (t : Tree) (request : Request), request.expression = expression →
      textOfNode t request.node request.property = .ok text →
        termMatch.search t request = .ok (query.isMatch text) ∧
        termMatch.score t request = .ok (query.score text) ∧
        (query.score text ≠ .zero → termMatch.search t request = .ok true) := by
  -- terms that are read have words, so none is found nowhere for want of one
  have hwordy := isWordy_of_readExpression hread
  refine ⟨Query.isMatch_iff_satisfies hwordy text, fun other h => h.isMatch_eq hwordy text,
    Query.score_of_not_isMatch, fun hmatch => ?_, ?_⟩
  -- the hits are those of the first alternative that is satisfied
  · obtain ⟨n, hn⟩ := Option.isSome_iff_exists.mp hmatch
    obtain ⟨before, terms, after, heq, hbefore, hsatisfies, rfl⟩ :=
      (Query.hits_eq_some_iff hwordy).mp hn
    exact ⟨before, terms, after, heq, hbefore, hsatisfies, Query.score_eq_of_hits hn⟩
  · rintro t request rfl htext
    have hscore := termMatch_score hread htext
    exact ⟨termMatch_search hread htext, hscore, search_of_score_ne_zero hscore⟩

/-- A root with two texts in a property. -/
def twoTextsTree : Tree where
  nodes := #[⟨.empty, none, [], ⟨[(⟨"", "p"⟩, [.string "A a,", .string "a c"])]⟩, false⟩]

/-- The phrase `a a` begins at two of the four words `a a a c`; the other alternative, which comes
first, is not satisfied, and with the order of alternatives and terms turned round the node is found
all the same. -/
theorem query_decided_by_alternatives_phrase :
    let query : Query := ⟨[[⟨["d"], false⟩], [⟨["a", "a"], false⟩, ⟨["b"], true⟩]]⟩
    let other : Query := ⟨[[⟨["b"], true⟩, ⟨["a", "a"], false⟩], [⟨["d"], false⟩]]⟩
    let text := "A a, a c "
    let request : Request := ⟨⟨"s"⟩, 0, none, "d OR \"a a\" -b"⟩
    readExpression "d OR \"a a\" -b" = .ok query ∧ query.Rearranged other ∧
      textOfNode twoTextsTree request.node request.property = .ok text ∧
      query.isMatch text = true ∧ other.isMatch text = true ∧
      query.score text = .ofQuotient false 2 4 ∧ Double.ofQuotient false 2 4 ≠ .zero ∧
      termMatch.search twoTextsTree request = .ok true := by
  intro query other text request
  have hread : readExpression "d OR \"a a\" -b" = .ok query := by decide +kernel
  have hrearranged : query.Rearranged other :=
    ⟨[[⟨["d"], false⟩], [⟨["b"], true⟩, ⟨["a", "a"], false⟩]],
      .cons .rfl (.cons (.swap _ _ _) .nil), .swap _ _ _⟩
  have htext : textOfNode twoTextsTree request.node request.property = .ok text := by
    decide +kernel
  have hwords : words text = ["a", "a", "a", "c"] := by decide +kernel
  have hscore : query.score text = .ofQuotient false 2 4 := by decide +kernel
  have hhalf : Double.ofQuotient false 2 4 ≠ .zero := by decide +kernel
  obtain ⟨hiff, horder, -, -, hnode⟩ := query_decided_by_alternatives hread text
  have hmatch : query.isMatch text = true := by
    refine hiff.mpr ⟨[⟨["a", "a"], false⟩, ⟨["b"], true⟩], by simp [query], ?_⟩
    rw [hwords]
    exact ⟨by decide, by decide⟩
  exact ⟨hread, hrearranged, htext, hmatch, (horder other hrearranged).trans hmatch, hscore, hhalf,
    (hnode twoTextsTree request rfl htext).2.2 (hscore ▸ hhalf)⟩

end ContentQuery.FullText
