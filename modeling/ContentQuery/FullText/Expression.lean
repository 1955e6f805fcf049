import ContentQuery.FullText.Query
import ContentQuery.Text.Quoted
import ContentQuery.Text.Split

/-!
# Full-text expressions

An expression is a list of conjunctions with `OR` between them, a conjunction a list of terms, and a
term a word or a phrase in double quotes, after a minus if it is excluded. Spaces separate all of
these. A word ends at any blank or quote, holds at least one letter or number, and is not `OR`; a
phrase holds at least one letter or number too.

`readMoreTerms` and `readMoreConjunctions` take as much as they can and give back the rest, so that
an `OR` that nothing follows is left over.
-/

namespace ContentQuery.FullText

open Text

/-- What is wrong where an expression cannot be read on. -/
inductive Fault
  /-- The text goes on after the last conjunction. -/
  | unexpected
  /-- There is no word. -/
  | missingWord
  /-- The word is `OR`, or without letters and numbers. -/
  | refusedWord
  deriving DecidableEq

/-- Whether a character separates terms. -/
def isSpace (c : Char) : Bool := c == ' ' || c == '\t' || c == '\r' || c == '\n'

/-- Whether a character can stand in a word. -/
def isWordChar (c : Char) : Bool := !isBlank c && c != '"'

/-- Split off a phrase. -/
def scanPhrase? : List Char → Option (List Char × List Char)
  | '"' :: rest =>
    match splitAtFirst? '"' rest with
    | some (phrase, after) => if wordsOfChars phrase = [] then none else some (phrase, after)
    | none => none
  | _ => none

/-- Split off a word. -/
def scanWord (cs : List Char) : Except Fault (List Char × List Char) :=
  if cs.takeWhile isWordChar = [] then .error .missingWord
  else if cs.takeWhile isWordChar = ['O', 'R'] ∨ wordsOfChars (cs.takeWhile isWordChar) = [] then
    .error .refusedWord
  else .ok (cs.takeWhile isWordChar, cs.dropWhile isWordChar)

/-- Split off a phrase or a word. -/
def scanText (cs : List Char) : Except Fault (List Char × List Char) :=
  match scanPhrase? cs with
  | some result => .ok result
  | none => scanWord cs

/-- Split off the minus of an excluded term. -/
def splitMinus : List Char → Bool × List Char
  | '-' :: rest => (true, rest)
  | cs => (false, cs)

/-- Read a term. A fault comes with the text it was found at, behind the minus. -/
def readTerm (cs : List Char) : Except (Fault × List Char) (Term × List Char) :=
  match scanText (splitMinus cs).2 with
  | .ok (text, rest) => .ok (⟨wordsOfChars text, (splitMinus cs).1⟩, rest)
  | .error fault => .error (fault, (splitMinus cs).2)

/-! ## Every term takes at least one character -/

private theorem length_scanPhrase {cs text rest : List Char}
    (h : scanPhrase? cs = some (text, rest)) : rest.length < cs.length := by
  unfold scanPhrase? at h
  split at h
  · next r =>
    split at h
    · next phrase after hs =>
      split at h
      · simp at h
      · simp only [Option.some.injEq, Prod.mk.injEq] at h
        obtain ⟨-, rfl⟩ := h
        have := (splitAtFirst?_eq_some hs).1
        simp only [this, List.length_cons, List.length_append]
        omega
    · simp at h
  · simp at h

private theorem length_scanWord {cs text rest : List Char}
    (h : scanWord cs = .ok (text, rest)) : rest.length < cs.length := by
  unfold scanWord at h
  split at h
  · simp at h
  · next hne =>
    split at h
    · simp at h
    · simp only [Except.ok.injEq, Prod.mk.injEq] at h
      obtain ⟨-, rfl⟩ := h
      have hlen := congrArg List.length
        (List.takeWhile_append_dropWhile (p := isWordChar) (l := cs))
      simp only [List.length_append] at hlen
      have := List.length_pos_iff.2 hne
      omega

private theorem length_scanText {cs text rest : List Char}
    (h : scanText cs = .ok (text, rest)) : rest.length < cs.length := by
  unfold scanText at h
  split at h
  · next result hp =>
    simp only [Except.ok.injEq] at h
    exact length_scanPhrase (h ▸ hp)
  · exact length_scanWord h

private theorem length_splitMinus (cs : List Char) : (splitMinus cs).2.length ≤ cs.length := by
  unfold splitMinus
  split <;> simp

/-- What is left after a term is shorter than the text. -/
theorem length_readTerm {cs rest : List Char} {term : Term}
    (h : readTerm cs = .ok (term, rest)) : rest.length < cs.length := by
  unfold readTerm at h
  split at h
  · next text r hs =>
    simp only [Except.ok.injEq, Prod.mk.injEq] at h
    obtain ⟨-, rfl⟩ := h
    have := length_scanText hs
    have := length_splitMinus cs
    omega
  · simp at h

/-! ## Lists of terms -/

/-- Pass over one or more spaces. -/
def passSpaces? : List Char → Option (List Char)
  | c :: rest => if isSpace c then some (rest.dropWhile isSpace) else none
  | [] => none

/-- What is left after spaces is shorter than the text. -/
theorem length_passSpaces {cs rest : List Char} (h : passSpaces? cs = some rest) :
    rest.length < cs.length := by
  unfold passSpaces? at h
  split at h
  · next c r =>
    split at h
    · simp only [Option.some.injEq] at h
      have := (List.dropWhile_sublist isSpace (l := r)).length_le
      simp only [← h, List.length_cons]
      omega
    · simp at h
  · simp at h

/-- The terms that follow, each after spaces, and what is left. -/
def readMoreTerms (cs : List Char) : List Term × List Char :=
  match _hs : passSpaces? cs with
  | none => ([], cs)
  | some next =>
    match _ht : readTerm next with
    | .error _ => ([], cs)
    | .ok (term, rest) => (term :: (readMoreTerms rest).1, (readMoreTerms rest).2)
termination_by cs.length
decreasing_by
  all_goals
    have := length_passSpaces _hs
    have := length_readTerm _ht
    omega

/-- Read a conjunction: one term and those that follow. -/
def readConjunction (cs : List Char) : Except (Fault × List Char) (List Term × List Char) :=
  match readTerm cs with
  | .error fault => .error fault
  | .ok (term, rest) => .ok (term :: (readMoreTerms rest).1, (readMoreTerms rest).2)

/-- Pass over an `OR` with the spaces around it. -/
def passOr? (cs : List Char) : Option (List Char) :=
  match passSpaces? cs with
  | some ('O' :: 'R' :: rest) => passSpaces? rest
  | _ => none

/-- Further terms leave no more than the text. -/
theorem length_readMoreTerms (cs : List Char) : (readMoreTerms cs).2.length ≤ cs.length := by
  fun_induction readMoreTerms cs with
  | case1 => exact Nat.le_refl _
  | case2 => exact Nat.le_refl _
  | case3 cs next hs term rest ht ih =>
    have := length_passSpaces hs
    have := length_readTerm ht
    exact Nat.le_trans ih (by omega)

/-- What is left after a conjunction is shorter than the text. -/
theorem length_readConjunction {cs rest : List Char} {terms : List Term}
    (h : readConjunction cs = .ok (terms, rest)) : rest.length < cs.length := by
  unfold readConjunction at h
  split at h
  · simp at h
  · next term r ht =>
    simp only [Except.ok.injEq, Prod.mk.injEq] at h
    obtain ⟨-, rfl⟩ := h
    have := length_readTerm ht
    have := length_readMoreTerms r
    omega

/-- What is left after an `OR` is shorter than the text. -/
theorem length_passOr {cs rest : List Char} (h : passOr? cs = some rest) :
    rest.length < cs.length := by
  unfold passOr? at h
  split at h
  · next r hs =>
    have := length_passSpaces hs
    have := length_passSpaces h
    simp only [List.length_cons] at *
    omega
  · simp at h

/-- The conjunctions that follow, each after an `OR`, and what is left. -/
def readMoreConjunctions (cs : List Char) : List (List Term) × List Char :=
  match _ho : passOr? cs with
  | none => ([], cs)
  | some next =>
    match _hc : readConjunction next with
    | .error _ => ([], cs)
    | .ok (terms, rest) => (terms :: (readMoreConjunctions rest).1, (readMoreConjunctions rest).2)
termination_by cs.length
decreasing_by
  all_goals
    have := length_passOr _ho
    have := length_readConjunction _hc
    omega

/-- Read an expression, spaces around it included. A fault comes with the text it was found at. -/
def readChars (cs : List Char) : Except (Fault × List Char) Query :=
  match readConjunction (cs.dropWhile isSpace) with
  | .error fault => .error fault
  | .ok (terms, rest) =>
    let (more, left) := readMoreConjunctions rest
    match left.dropWhile isSpace with
    | [] => .ok ⟨terms :: more⟩
    | left => .error (.unexpected, left)

/-- Read an expression. -/
def Query.read (expression : String) : Except (Fault × String) Query :=
  (readChars expression.toList).mapError fun (fault, rest) => (fault, String.ofList rest)

/-- The code of a fault in messages. -/
def Fault.code : Fault → String
  | unexpected => "Eof"
  | missingWord => "TakeWhile1"
  | refusedWord => "Verify"

/-- A fault and the text it was found at, in words. -/
def Fault.message (fault : Fault) (rest : String) : String :=
  parsingError rest fault.code

end ContentQuery.FullText
