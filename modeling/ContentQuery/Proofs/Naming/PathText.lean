import ContentQuery.Naming.PathText
import ContentQuery.Proofs.Naming.NameText
import ContentQuery.Proofs.Number.Digits

/-! # Path texts

A legal path is one that reading can give. Where no prefix holds a slash or a bracket, a slash ends
every step of its text, a bracket ends every name, and so the text determines the path.
-/

namespace ContentQuery.Naming

open Number Text

/-- A descent has a legal name and counts from one. -/
def Step.IsLegal : Step → Prop
  | .named name index => name.IsLegal ∧ 1 ≤ index
  | _ => True

/-- All steps are legal, and a relative path has some. -/
structure Path.IsLegal (p : Path) : Prop where
  steps : ∀ step ∈ p.steps, step.IsLegal
  nonempty : p.absolute = false → p.steps ≠ []

/-- The index zero is written as nothing and counts as one. -/
theorem Step.one_le_max (index : UInt32) : 1 ≤ max index 1 := by
  show 1 ≤ if index ≤ 1 then 1 else index
  split
  · exact UInt32.le_refl 1
  · next h => exact UInt32.le_of_lt (UInt32.not_le.mp h)

/-- A descent that counts from one is left as it is. -/
theorem Step.child_of_one_le (name : Name) {index : UInt32} (h : 1 ≤ index) :
    Step.child name index = .named name index := by
  show Step.named name (if index ≤ 1 then 1 else index) = _
  split
  · next hle => rw [UInt32.le_antisymm hle h]
  · rfl

/-! ## The text of a step -/

/-- What an index adds to the text of a name. -/
def indexText (index : UInt32) : List Char :=
  if 1 < index then '[' :: (decimalDigits index.toNat ++ [']']) else []

@[simp] theorem toList_textWith (text : String) (index : UInt32) :
    (Step.textWith text index).toList = text.toList ++ indexText index := by
  unfold Step.textWith indexText
  split <;> simp

theorem head?_indexText (index : UInt32) : ∀ c ∈ (indexText index).head?, (c != '[') = false := by
  unfold indexText
  split <;> simp

/-- No slash is in an index, so a path is cut between its steps. -/
theorem slash_notMem_indexText (index : UInt32) : '/' ∉ indexText index := by
  have hdigits : '/' ∉ decimalDigits index.toNat := fun hc =>
    absurd (isDigit_of_mem_decimalDigits hc) (by decide)
  unfold indexText
  split <;> simp [hdigits]

/-- Indices counted from one are told apart by their texts. -/
theorem eq_of_indexText_eq {i j : UInt32} (hi : 1 ≤ i) (hj : 1 ≤ j)
    (h : indexText i = indexText j) : i = j := by
  unfold indexText at h
  split at h <;> split at h
  · simp only [List.cons.injEq, List.append_cancel_right_eq, true_and] at h
    exact UInt32.toNat_inj.mp (decimalDigits_injective h)
  · simp at h
  · simp at h
  · next hi1 hj1 =>
    rw [UInt32.le_antisymm (UInt32.not_lt.mp hi1) hi, UInt32.le_antisymm (UInt32.not_lt.mp hj1) hj]

namespace Registry

variable {r : Registry}

/-- A step text is dots, or the text of a name and what its index adds. -/
theorem stepText_cases {s : Step} {t : String} (h : r.stepText s = .ok t) :
    (s = .current ∧ t.toList = ['.']) ∨ (s = .parent ∧ t.toList = ['.', '.']) ∨
      ∃ name index nt, s = .named name index ∧ r.nameText name = .ok nt ∧
        t.toList = nt.toList ++ indexText index := by
  cases s with
  | current =>
    cases h
    exact .inl ⟨rfl, rfl⟩
  | parent =>
    cases h
    exact .inr (.inl ⟨rfl, rfl⟩)
  | named name index =>
    simp only [stepText, bind_eq_ok_iff, pure_eq_ok_iff] at h
    obtain ⟨nt, hnt, rfl⟩ := h
    exact .inr (.inr ⟨name, index, nt, rfl, hnt, toList_textWith nt index⟩)

variable (hp : r.Paired) (hr : r.PrefixesAvoid ['/', '[', ']'])
include hp hr

/-- A name text holds neither slash nor bracket. -/
theorem isPlain_of_mem_nameText {n : Name} (hn : n.IsLegal) {t : String}
    (h : r.nameText n = .ok t) : ∀ c ∈ t.toList, Segment.isPlain c = true := by
  intro c hc
  have hnot := hp.notMem_nameText (by simp [illegalInLocalPart]) (by simp) hr hn h c hc
  simp only [List.mem_cons, List.not_mem_nil, or_false, not_or] at hnot
  simp [Segment.isPlain, hnot]

/-- No bracket is in the text of a legal name, so its index is found behind it. -/
theorem ne_bracket_of_mem_nameText {n : Name} (hn : n.IsLegal) {t : String}
    (h : r.nameText n = .ok t) : ∀ c ∈ t.toList, (c != '[') = true := by
  intro c hc
  have hplain := isPlain_of_mem_nameText hp hr hn h c hc
  simp_all [Segment.isPlain]

/-- A step text has characters, but no slash. -/
theorem stepText_ne_nil {s : Step} (hs : s.IsLegal) {t : String} (h : r.stepText s = .ok t) :
    t.toList ≠ [] ∧ '/' ∉ t.toList := by
  rcases stepText_cases h with ⟨-, ht⟩ | ⟨-, ht⟩ | ⟨name, index, nt, rfl, hnt, ht⟩ <;> rw [ht]
  · simp
  · simp
  · have hslash : '/' ∉ nt.toList := fun hc =>
      absurd (isPlain_of_mem_nameText hp hr hs.1 hnt _ hc) (by decide)
    simp [(nameText_ne_dots hs.1 hnt).1, hslash, slash_notMem_indexText]

/-- A name text with an index behind it is no dots. -/
theorem nameText_append_indexText_ne_dots {n : Name} (hn : n.IsLegal) {nt : String}
    (h : r.nameText n = .ok nt) (index : UInt32) {dots : List Char}
    (hdots : dots = ['.'] ∨ dots = ['.', '.']) : nt.toList ++ indexText index ≠ dots := by
  intro heq
  have hno : ∀ c ∈ dots, (c != '[') = true := by
    rcases hdots with rfl | rfl <;> simp
  obtain ⟨hbase, -⟩ := run_append_cancel (ne_bracket_of_mem_nameText hp hr hn h) hno
    (head?_indexText index) (by simp) (heq.trans (List.append_nil dots).symm)
  rcases hdots with rfl | rfl
  · exact (nameText_ne_dots hn h).2.1 hbase
  · exact (nameText_ne_dots hn h).2.2 hbase

/-- Two legal steps with one text are one step. -/
theorem Paired.step_eq_of_stepText {s s' : Step} (hs : s.IsLegal) (hs' : s'.IsLegal)
    {t : String} (h : r.stepText s = .ok t) (h' : r.stepText s' = .ok t) : s = s' := by
  rcases stepText_cases h with ⟨rfl, ht⟩ | ⟨rfl, ht⟩ | ⟨name, index, nt, rfl, hnt, ht⟩ <;>
    rcases stepText_cases h' with ⟨rfl, ht'⟩ | ⟨rfl, ht'⟩ | ⟨name', index', nt', rfl, hnt', ht'⟩
  · rfl
  · simp [ht] at ht'
  · exact absurd (ht'.symm.trans ht) (nameText_append_indexText_ne_dots hp hr hs'.1 hnt' _ (.inl rfl))
  · simp [ht] at ht'
  · rfl
  · exact absurd (ht'.symm.trans ht) (nameText_append_indexText_ne_dots hp hr hs'.1 hnt' _ (.inr rfl))
  · exact absurd (ht.symm.trans ht') (nameText_append_indexText_ne_dots hp hr hs.1 hnt _ (.inl rfl))
  · exact absurd (ht.symm.trans ht') (nameText_append_indexText_ne_dots hp hr hs.1 hnt _ (.inr rfl))
  · -- the first bracket parts name and index
    obtain ⟨hbase, hindex⟩ := run_append_cancel (ne_bracket_of_mem_nameText hp hr hs.1 hnt)
      (ne_bracket_of_mem_nameText hp hr hs'.1 hnt') (head?_indexText index) (head?_indexText index')
      (ht.symm.trans ht')
    rw [eq_of_indexText_eq hs.2 hs'.2 hindex]
    rw [String.toList_inj.mp hbase] at hnt
    rw [hp.name_eq_of_nameText hs.1 hs'.1 hnt hnt']

/-! ## The text of a path -/

omit hp hr in
/-- A path text is written from the texts of the steps. -/
theorem pathText_eq_ok_iff {p : Path} {t : String} : r.pathText p = .ok t ↔
    ∃ texts, List.Forall₂ (fun s u => r.stepText s = .ok u) p.steps texts ∧
      t = Path.textOfSteps p.absolute texts := by
  simp only [pathText, bind_eq_ok_iff, pure_eq_ok_iff, mapM_eq_ok_iff]
  constructor
  · rintro ⟨texts, htexts, rfl⟩
    exact ⟨texts, htexts, rfl⟩
  · rintro ⟨texts, htexts, rfl⟩
    exact ⟨texts, htexts, rfl⟩

/-- The texts of legal steps have characters, but no slash. -/
theorem stepTexts_ne_nil {steps : List Step} (hsteps : ∀ s ∈ steps, s.IsLegal)
    {texts : List String} (h : List.Forall₂ (fun s u => r.stepText s = .ok u) steps texts) :
    ∀ u ∈ texts, u.toList ≠ [] ∧ '/' ∉ u.toList :=
  forall_mem_of_forall₂ h fun s hs _ hsu => stepText_ne_nil hp hr (hsteps s hs) hsu

omit hp hr in
/-- A path text starts with a slash if the path is absolute. -/
theorem head?_textOfSteps {absolute : Bool} {texts : List String}
    (htexts : ∀ u ∈ texts, u.toList ≠ [] ∧ '/' ∉ u.toList)
    (hne : absolute = false → texts ≠ []) :
    (Path.textOfSteps absolute texts).toList.head? = some '/' ↔ absolute = true := by
  cases absolute with
  | true => simp [Path.textOfSteps]
  | false =>
    simp only [Path.textOfSteps, Bool.false_eq_true, iff_false]
    -- no step of a relative path starts with a slash
    match texts, htexts, hne rfl with
    | u :: rest, htexts, _ =>
      obtain ⟨hnil, hslash⟩ := htexts u (by simp)
      cases hu : u.toList with
      | nil => exact absurd hu hnil
      | cons c cs =>
        rw [hu, List.mem_cons, not_or] at hslash
        cases rest <;> simp [hu, Ne.symm hslash.1]

/-- Two legal paths with one text are one path. -/
theorem Paired.path_eq_of_pathText {p q : Path} (hpl : p.IsLegal) (hql : q.IsLegal)
    {t : String} (h : r.pathText p = .ok t) (h' : r.pathText q = .ok t) : p = q := by
  obtain ⟨texts, htexts, rfl⟩ := pathText_eq_ok_iff.mp h
  obtain ⟨texts', htexts', heq⟩ := pathText_eq_ok_iff.mp h'
  have hparts := stepTexts_ne_nil hp hr hpl.steps htexts
  have hparts' := stepTexts_ne_nil hp hr hql.steps htexts'
  have hne : p.absolute = false → texts ≠ [] := fun habs hnil =>
    hpl.nonempty habs (by rwa [hnil, List.forall₂_nil_right_iff] at htexts)
  have hne' : q.absolute = false → texts' ≠ [] := fun habs hnil =>
    hql.nonempty habs (by rwa [hnil, List.forall₂_nil_right_iff] at htexts')
  -- only the text of an absolute path starts with a slash
  have habs : p.absolute = q.absolute := by
    rw [Bool.eq_iff_iff, ← head?_textOfSteps hparts hne, ← head?_textOfSteps hparts' hne', heq]
  have hjoin : ['/'].intercalate (texts.map String.toList) =
      ['/'].intercalate (texts'.map String.toList) := by
    have hlist := congrArg String.toList heq
    simpa [Path.textOfSteps, habs] using hlist
  -- the slashes then part the same step texts
  have hmap := eq_of_intercalate_eq (by simpa using fun u hu => (hparts u hu).1)
    (by simpa using fun u hu => (hparts' u hu).1) (by simpa using fun u hu => (hparts u hu).2)
    (by simpa using fun u hu => (hparts' u hu).2) hjoin
  rw [List.map_injective_iff.mpr (fun _ _ => String.toList_injective) hmap] at htexts
  have hsteps : p.steps = q.steps := by
    have hunique : Relator.LeftUnique fun s u => Step.IsLegal s ∧ r.stepText s = .ok u :=
      fun _ _ _ hs hs' => hp.step_eq_of_stepText hr hs.1 hs'.1 hs.2 hs'.2
    exact List.left_unique_forall₂' hunique
      ((List.forall₂_and_left _ _).mpr ⟨hpl.steps, htexts⟩)
      ((List.forall₂_and_left _ _).mpr ⟨hql.steps, htexts'⟩)
  cases p; cases q
  rw [Path.mk.injEq]
  exact ⟨habs, hsteps⟩

end Registry

end ContentQuery.Naming
