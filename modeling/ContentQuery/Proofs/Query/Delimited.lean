import ContentQuery.Proofs.Query.Built
import ContentQuery.Proofs.Query.Escape
import ContentQuery.Query.Statement

/-! # Delimited texts

A part of a query is `Delimited` if its text shows where it ends: from the text it stands in front
of, both the part and what follows are known. What may follow differs from part to part, so it is a
parameter. Lists of delimited parts are delimited if what follows the list starts no further part.
-/

namespace ContentQuery.Statement

open Text

variable {α : Type}

/-- The text that is written for a legal part. -/
def Writes (legal : α → Prop) (write : α → Written) (x : α) (s : String) : Prop :=
  legal x ∧ write x = .ok s

/-- What has a text in front of what can follow it has no other, and what follows is known. -/
def Delimited (follow : List Char → Prop) (text : α → String → Prop) (x : α) : Prop :=
  ∀ ⦃y : α⦄ ⦃s t : String⦄ ⦃u v : List Char⦄, text x s → text y t → follow u → follow v →
    s.toList ++ u = t.toList ++ v → x = y ∧ u = v

/-- What can follow a part are also further parts, and behind them what can follow the list. -/
theorem follow_flatMap {follow stop : List Char → Prop} {text : α → String → Prop}
    (hstop : ∀ u, stop u → follow u) (hstart : ∀ x s, text x s → ∀ u, follow (s.toList ++ u))
    {xs : List α} {ss : List String} (hs : List.Forall₂ text xs ss) {u : List Char} (hu : stop u) :
    follow (ss.flatMap String.toList ++ u) := by
  cases hs with
  | nil => exact hstop u hu
  | cons hx _ =>
    rw [List.flatMap_cons, List.append_assoc]
    exact hstart _ _ hx _

/-- A list of parts is delimited if each part is, each can follow the one before it, and what
follows the list, which could follow a part, does not start with one. -/
theorem Delimited.flatMap {follow stop : List Char → Prop} {text : α → String → Prop}
    (hstop : ∀ u, stop u → follow u) (hstart : ∀ x s, text x s → ∀ u, follow (s.toList ++ u))
    (hnext : ∀ x s, text x s → ∀ u, ¬ stop (s.toList ++ u)) {xs ys : List α} {ss ts : List String}
    {u v : List Char} (hxs : ∀ x ∈ xs, Delimited follow text x) (hs : List.Forall₂ text xs ss)
    (ht : List.Forall₂ text ys ts) (hu : stop u) (hv : stop v)
    (h : ss.flatMap String.toList ++ u = ts.flatMap String.toList ++ v) : xs = ys ∧ u = v := by
  -- along the first list: what stops the texts cannot start one, so both lists end together
  induction hs generalizing ys ts with
  | nil =>
    cases ht with
    | nil => exact ⟨rfl, by simpa using h⟩
    | cons hy _ =>
      rw [List.flatMap_nil, List.nil_append, List.flatMap_cons, List.append_assoc] at h
      exact absurd (h ▸ hu) (hnext _ _ hy _)
  | cons hx hs ih =>
    cases ht with
    | nil =>
      rw [List.flatMap_nil, List.nil_append, List.flatMap_cons, List.append_assoc] at h
      exact absurd (h ▸ hv) (hnext _ _ hx _)
    | cons hy ht =>
      rw [List.flatMap_cons, List.flatMap_cons, List.append_assoc, List.append_assoc] at h
      rw [List.forall_mem_cons] at hxs
      obtain ⟨rfl, htail⟩ := hxs.1 hx hy (follow_flatMap hstop hstart hs hu)
        (follow_flatMap hstop hstart ht hv) h
      obtain ⟨rfl, huv⟩ := ih hxs.2 ht htail
      exact ⟨rfl, huv⟩

/-- A list of parts with commas between them. -/
def CommaList (text : α → String → Prop) (xs : List α) (t : String) : Prop :=
  xs ≠ [] ∧ ∃ ts, List.Forall₂ text xs ts ∧ t = String.intercalate ", " ts

/-- A part with a comma in front. -/
def CommaBefore (text : α → String → Prop) (x : α) (s : String) : Prop :=
  ∃ t, text x t ∧ s = ", " ++ t

/-- Every part of a list but the first has a comma in front. -/
theorem CommaList.cases {text : α → String → Prop} {xs : List α} {t : String}
    (h : CommaList text xs t) :
    ∃ x rest s ss, xs = x :: rest ∧ text x s ∧ List.Forall₂ (CommaBefore text) rest ss ∧
      t.toList = s.toList ++ ss.flatMap String.toList := by
  obtain ⟨hne, ts, hts, rfl⟩ := h
  cases hts with
  | nil => exact absurd rfl hne
  | @cons x s rest ss hx hrest =>
    refine ⟨x, rest, s, ss.map (", " ++ ·), rfl, hx, ?_, ?_⟩
    · rw [List.forall₂_map_right_iff]
      exact hrest.imp fun _ t ht => ⟨t, ht, rfl⟩
    · rw [String.toList_intercalate, List.map_cons, intercalate_cons]
      simp [List.flatMap_map]

/-- A list with commas is delimited if its parts are, a comma can follow a part, and none follows
the list. -/
theorem delimited_commaList {follow : List Char → Prop} {text : α → String → Prop}
    (hcomma : ∀ u, follow (',' :: ' ' :: u)) (htext : ∀ x, Delimited follow text x) (xs : List α) :
    Delimited (fun u => follow u ∧ u.head? ≠ some ',') (CommaList text) xs := by
  intro ys s t u v hs ht hu hv h
  have hpart : ∀ x, Delimited follow (CommaBefore text) x := by
    rintro x y _ _ u v ⟨s, hs, rfl⟩ ⟨t, ht, rfl⟩ hu hv h
    exact htext x hs ht hu hv (by simpa using h)
  have hstart : ∀ x s, CommaBefore text x s → ∀ u, follow (s.toList ++ u) := by
    rintro x _ ⟨s, -, rfl⟩ u
    simpa using hcomma (s.toList ++ u)
  have hnext : ∀ x s, CommaBefore text x s → ∀ u,
      ¬ (follow (s.toList ++ u) ∧ (s.toList ++ u).head? ≠ some ',') := by
    rintro x _ ⟨s, -, rfl⟩ u hstop
    simp at hstop
  have hends : ∀ u : List Char, follow u ∧ u.head? ≠ some ',' → follow u := fun u hu => hu.1
  -- the first element stands alone, each further one with the comma in front
  obtain ⟨x, xs, sx, ss, rfl, hx, hxs, hs⟩ := hs.cases
  obtain ⟨y, ys, ty, ts, rfl, hy, hys, ht⟩ := ht.cases
  rw [hs, ht, List.append_assoc, List.append_assoc] at h
  obtain ⟨rfl, htail⟩ := htext x hx hy (follow_flatMap hends hstart hxs hu)
    (follow_flatMap hends hstart hys hv) h
  obtain ⟨rfl, huv⟩ :=
    Delimited.flatMap hends hstart hnext (fun x _ => hpart x) hxs hys hu hv htail
  exact ⟨rfl, huv⟩

end ContentQuery.Statement
