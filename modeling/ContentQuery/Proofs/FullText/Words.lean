import ContentQuery.FullText.Words
import Mathlib

/-! # The runs of a text

The longest runs of a class are what is left of a text that is cut at every other character, once
the empty pieces are dropped.
-/

namespace ContentQuery.FullText

open Text

variable {p : Char → Bool}

/-- The text cut at the characters of other classes: the first run, then the pieces that hold the
later ones. -/
theorem splitOnP_eq_runsFrom (cs : List Char) : ∃ pieces,
    cs.splitOnP (fun c => !p c) = (runsFrom p cs).1 :: pieces ∧
      (runsFrom p cs).2 = pieces.filter fun run => !run.isEmpty := by
  induction cs with
  | nil => exact ⟨[], List.splitOnP_nil, rfl⟩
  | cons c cs ih =>
    obtain ⟨pieces, hsplit, hlater⟩ := ih
    rw [List.splitOnP_cons_eq_if_modifyHead, hsplit, runsFrom]
    by_cases hc : p c = true
    · exact ⟨pieces, by simp [hc], by simp [hc, hlater]⟩
    · refine ⟨(runsFrom p cs).1 :: pieces, by simp [hc], ?_⟩
      by_cases hrun : (runsFrom p cs).1 = [] <;> simp [hc, hrun, hlater]

/-- The runs of a class are the pieces between the characters of other classes. -/
theorem runs_eq_filter_splitOnP (cs : List Char) :
    runs p cs = (cs.splitOnP fun c => !p c).filter fun run => !run.isEmpty := by
  obtain ⟨pieces, hsplit, hlater⟩ := splitOnP_eq_runsFrom (p := p) cs
  rw [runs, hsplit]
  by_cases hrun : (runsFrom p cs).1 = [] <;> simp [hrun, hlater]

/-- A text without characters of a class has no runs of it. -/
theorem runs_eq_nil_iff (cs : List Char) : runs p cs = [] ↔ ∀ c ∈ cs, p c = false := by
  induction cs with
  | nil => simp [runs, runsFrom]
  | cons c cs ih =>
    rw [List.forall_mem_cons, ← ih, runs, runs, runsFrom]
    by_cases hc : p c = true
    · simp [hc]
    · by_cases hrun : (runsFrom p cs).1 = [] <;> simp [hc, hrun]

/-- A text has words if it holds a letter or a number. -/
theorem wordsOfChars_ne_nil_iff (cs : List Char) :
    wordsOfChars cs ≠ [] ↔ ∃ c ∈ cs, isAlphanumeric c = true := by
  rw [wordsOfChars, ne_eq, List.map_eq_nil_iff, runs_eq_nil_iff]
  simp

/-! ## Texts put together -/

/-- No run goes on past a character of another class. -/
theorem runsFrom_append_cons {c : Char} (hc : p c = false) (xs ys : List Char) :
    runsFrom p (xs ++ c :: ys) = ((runsFrom p xs).1, (runsFrom p xs).2 ++ runs p ys) := by
  induction xs with
  | nil => simp [runsFrom, runs, hc]
  | cons x xs ih =>
    rw [List.cons_append, runsFrom, ih, runsFrom]
    by_cases hx : p x = true
    · simp [hx]
    · by_cases hrun : (runsFrom p xs).1 = [] <;> simp [hx, hrun]

/-- A character that belongs to no run separates the runs in front of it from those behind it. -/
theorem runs_append_cons {c : Char} (hc : p c = false) (xs ys : List Char) :
    runs p (xs ++ c :: ys) = runs p xs ++ runs p ys := by
  rw [runs.eq_1 p xs, runs.eq_1 p (xs ++ c :: ys), runsFrom_append_cons hc]
  by_cases hrun : (runsFrom p xs).1 = [] <;> simp [hrun]

/-- A text with a space in it has the words in front of the space, and then those behind it. -/
theorem words_append_space (text rest : String) :
    words (text ++ " " ++ rest) = words text ++ words rest := by
  have hspace : (text ++ " " ++ rest).toList = text.toList ++ ' ' :: rest.toList := by simp
  rw [words, hspace, wordsOfChars, runs_append_cons (by decide), List.map_append]
  rfl

end ContentQuery.FullText
