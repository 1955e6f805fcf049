import ContentQuery.Text.Split
import Mathlib

/-! # Where a text is cut

A run of characters of one class, behind which another class begins, is found again in the text it
stands in front of. So is what stands in front of the first, or behind the last, separator, and so
are the parts that separators join.
-/

namespace ContentQuery.Text

/-- A run ends where a character of another class stands. -/
theorem takeWhile_append_run {p : Char → Bool} {run rest : List Char} (hrun : ∀ c ∈ run, p c = true)
    (hrest : ∀ c ∈ rest.head?, p c = false) : (run ++ rest).takeWhile p = run := by
  rw [List.takeWhile_append_of_pos hrun]
  cases rest with
  | nil => simp
  | cons c rest => simp [hrest c (by simp)]

/-- Behind a run stands what does not belong to it. -/
theorem dropWhile_append_run {p : Char → Bool} {run rest : List Char} (hrun : ∀ c ∈ run, p c = true)
    (hrest : ∀ c ∈ rest.head?, p c = false) : (run ++ rest).dropWhile p = rest := by
  rw [List.dropWhile_append_of_pos hrun]
  cases rest with
  | nil => rfl
  | cons c rest => simp [hrest c (by simp)]

/-- A run starts with a character of its class. -/
theorem run_append_ne_cons {p : Char → Bool} {run : List Char} (hne : run ≠ [])
    (hrun : ∀ c ∈ run, p c = true) {d : Char} (hd : p d = false) (rest rest' : List Char) :
    run ++ rest ≠ d :: rest' := by
  obtain ⟨c, cs, rfl⟩ := List.exists_cons_of_ne_nil hne
  intro h
  have hc := hrun c (by simp)
  rw [(List.cons.inj h).1, hd] at hc
  exact Bool.false_ne_true hc

/-- Two runs in front of one text are one run. -/
theorem run_append_cancel {p : Char → Bool} {run run' rest rest' : List Char}
    (hrun : ∀ c ∈ run, p c = true) (hrun' : ∀ c ∈ run', p c = true)
    (hrest : ∀ c ∈ rest.head?, p c = false) (hrest' : ∀ c ∈ rest'.head?, p c = false)
    (h : run ++ rest = run' ++ rest') : run = run' ∧ rest = rest' := by
  refine ⟨?_, ?_⟩
  · rw [← takeWhile_append_run hrun hrest, h, takeWhile_append_run hrun' hrest']
  · rw [← dropWhile_append_run hrun hrest, h, dropWhile_append_run hrun' hrest']

/-- What stands in front of the first separator is determined by the text. -/
theorem append_separator_cancel {separator : Char} {before before' after after' : List Char}
    (hb : separator ∉ before) (hb' : separator ∉ before')
    (h : before ++ separator :: after = before' ++ separator :: after') :
    before = before' ∧ after = after' := by
  have hclass : ∀ {cs : List Char}, separator ∉ cs → ∀ c ∈ cs, (c != separator) = true := by
    intro cs hcs c hc
    exact bne_iff_ne.mpr fun heq => hcs (heq ▸ hc)
  obtain ⟨hbefore, hafter⟩ :=
    run_append_cancel (hclass hb) (hclass hb') (by simp) (by simp) h
  exact ⟨hbefore, (List.cons.inj hafter).2⟩

/-- What stands behind the last separator is determined by the text. -/
theorem separator_append_cancel {separator : Char} {before before' after after' : List Char}
    (ha : separator ∉ after) (ha' : separator ∉ after')
    (h : before ++ separator :: after = before' ++ separator :: after') :
    before = before' ∧ after = after' := by
  -- read backwards, the last separator is the first
  have hrev := congrArg List.reverse h
  simp only [List.reverse_append, List.reverse_cons, List.append_assoc, List.singleton_append]
    at hrev
  obtain ⟨hafter, hbefore⟩ := append_separator_cancel (by simpa using ha) (by simpa using ha') hrev
  exact ⟨List.reverse_injective hbefore, List.reverse_injective hafter⟩

/-- A text is cut behind what lacks the separator. -/
theorem splitAtFirst?_append {separator : Char} {before : List Char} (hb : separator ∉ before)
    (after : List Char) :
    splitAtFirst? separator (before ++ separator :: after) = some (before, after) := by
  induction before with
  | nil => simp [splitAtFirst?]
  | cons c before ih =>
    rw [List.mem_cons, not_or] at hb
    rw [List.cons_append, splitAtFirst?, if_neg (Ne.symm hb.1), ih hb.2]
    rfl

/-- Lists of written parts are told apart if each part is, from what can follow it, and what follows
the list starts no further part. -/
theorem flatMap_append_cancel {α : Type} {write : α → List Char} {follow stop : List Char → Prop}
    (hcancel : ∀ {x y u v}, follow u → follow v → write x ++ u = write y ++ v → x = y ∧ u = v)
    (hstart : ∀ x u, follow (write x ++ u)) (hstop : ∀ u, stop u → follow u)
    (hnext : ∀ x u, follow u → ¬ stop (write x ++ u)) {xs ys : List α} {u v : List Char}
    (hu : stop u) (hv : stop v) (h : xs.flatMap write ++ u = ys.flatMap write ++ v) :
    xs = ys ∧ u = v := by
  have hfollow : ∀ (zs : List α) {w}, stop w → follow (zs.flatMap write ++ w) := by
    intro zs w hw
    cases zs with
    | nil => exact hstop w hw
    | cons z zs =>
      rw [List.flatMap_cons, List.append_assoc]
      exact hstart z _
  induction xs generalizing ys with
  | nil =>
    cases ys with
    | nil => exact ⟨rfl, h⟩
    | cons y ys =>
      -- one row is at its end, where no part of the other can begin
      rw [List.flatMap_nil, List.nil_append, List.flatMap_cons, List.append_assoc] at h
      exact absurd (h ▸ hu) (hnext y _ (hfollow ys hv))
  | cons x xs ih =>
    cases ys with
    | nil =>
      rw [List.flatMap_nil, List.nil_append, List.flatMap_cons, List.append_assoc] at h
      exact absurd (h ▸ hv) (hnext x _ (hfollow xs hu))
    | cons y ys =>
      rw [List.flatMap_cons, List.flatMap_cons, List.append_assoc, List.append_assoc] at h
      obtain ⟨rfl, htail⟩ := hcancel (hfollow xs hu) (hfollow ys hv) h
      obtain ⟨rfl, huv⟩ := ih htail
      exact ⟨rfl, huv⟩

/-- A text without the separator is not cut. -/
theorem splitAtFirst?_eq_none {separator : Char} {cs : List Char} (h : separator ∉ cs) :
    splitAtFirst? separator cs = none := by
  induction cs with
  | nil => rfl
  | cons c cs ih =>
    rw [List.mem_cons, not_or] at h
    rw [splitAtFirst?, if_neg (Ne.symm h.1), ih h.2]
    rfl

/-- Every part but the first stands behind a separator. -/
theorem intercalate_cons (separator part : List Char) (parts : List (List Char)) :
    separator.intercalate (part :: parts) = part ++ parts.flatMap (separator ++ ·) := by
  induction parts generalizing part with
  | nil => simp
  | cons next parts ih => simp [ih next]

/-- Lists of parts, none empty and none with the separator, are told apart by what they join to. -/
theorem eq_of_intercalate_eq {separator : Char} {parts parts' : List (List Char)}
    (hne : ∀ part ∈ parts, part ≠ []) (hne' : ∀ part ∈ parts', part ≠ [])
    (hsep : ∀ part ∈ parts, separator ∉ part) (hsep' : ∀ part ∈ parts', separator ∉ part)
    (h : [separator].intercalate parts = [separator].intercalate parts') : parts = parts' := by
  -- no parts and one empty part join to the same text, and only the first is allowed
  have hnil : ∀ {ps : List (List Char)}, (∀ part ∈ ps, part ≠ []) →
      [separator].intercalate ps = [] → ps = [] := by
    intro ps hps hjoin
    match ps with
    | [] => rfl
    | [part] => exact absurd (by simpa using hjoin) (hps part (by simp))
    | part :: part' :: rest => simp at hjoin
  by_cases hp : parts = []
  · subst hp
    exact (hnil hne' (by simpa using h.symm)).symm
  · have hp' : parts' ≠ [] := by
      rintro rfl
      exact hp (hnil hne (by simpa using h))
    rw [← List.splitOn_intercalate separator hsep hp, h, List.splitOn_intercalate separator hsep' hp']

end ContentQuery.Text
