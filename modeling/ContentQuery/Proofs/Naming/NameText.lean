import ContentQuery.Naming.NameText
import ContentQuery.Proofs.Naming.Registry
import ContentQuery.Proofs.Outcome
import ContentQuery.Proofs.Text.Cut

/-! # Name texts

A legal name is one whose local part reading accepts; reading gives no other. The last colon of a
name text parts prefix and local part, so the text of a legal name determines it. Without colons
and opening braces in the prefixes, the text reads back as the name.
-/

namespace ContentQuery.Naming

open Text

/-- The local part is one that reading accepts. -/
def Name.IsLegal (n : Name) : Prop := localPartFault? n.localPart.toList = none

/-- No registered prefix holds one of the characters. -/
def Registry.PrefixesAvoid (r : Registry) (cs : List Char) : Prop :=
  ∀ label, r.HasPrefix label → ∀ c ∈ label.toList, c ∉ cs

theorem Registry.PrefixesAvoid.mono {r : Registry} {cs cs' : List Char} (h : r.PrefixesAvoid cs)
    (hcs : cs' ⊆ cs) : r.PrefixesAvoid cs' :=
  fun label hlabel c hc hbad => h label hlabel c hc (hcs hbad)

/-- Registering prefixes that avoid some characters brings none of them in. -/
theorem Registry.PrefixesAvoid.registerAll {r : Registry} {cs : List Char} (h : r.PrefixesAvoid cs)
    {calls : List (String × String)} (hcalls : ∀ call ∈ calls, ∀ c ∈ call.1.toList, c ∉ cs) :
    (r.registerAll calls).PrefixesAvoid cs := by
  intro label hlabel
  rcases hlabel.of_registerAll with hold | ⟨call, hcall, rfl⟩
  · exact h label hold
  · exact hcalls call hcall

/-- A local part has characters, none of them illegal, and is no step that stays or climbs. -/
theorem localPartFault?_eq_none_iff {cs : List Char} : localPartFault? cs = none ↔
    cs ≠ [] ∧ (∀ c ∈ cs, c ∉ illegalInLocalPart) ∧ cs ≠ ['.'] ∧ cs ≠ ['.', '.'] := by
  unfold localPartFault?
  split
  · simp [*]
  · split
    · next hne hany =>
      obtain ⟨c, hc, hill⟩ := List.any_eq_true.mp hany
      refine ⟨fun h => absurd h (by simp), fun h => absurd (h.2.1 c hc) ?_⟩
      simpa using hill
    · next hne hany =>
      have hlegal : ∀ c ∈ cs, c ∉ illegalInLocalPart := fun c hc hill =>
        hany (List.any_eq_true.mpr ⟨c, hc, by simpa using hill⟩)
      split
      · next hdots => rcases hdots with rfl | rfl <;> simp
      · next hdots => exact ⟨fun _ => ⟨hne, hlegal, not_or.mp hdots⟩, fun _ => rfl⟩

namespace Name.IsLegal

variable {n : Name} (h : n.IsLegal)
include h

theorem localPart_ne_nil : n.localPart.toList ≠ [] := (localPartFault?_eq_none_iff.mp h).1

theorem notMem {c : Char} (hc : c ∈ n.localPart.toList) : c ∉ illegalInLocalPart :=
  (localPartFault?_eq_none_iff.mp h).2.1 c hc

theorem colon_notMem : ':' ∉ n.localPart.toList := fun hc => h.notMem hc (by decide)

theorem localPart_ne_dot : n.localPart.toList ≠ ['.'] := (localPartFault?_eq_none_iff.mp h).2.2.1

theorem localPart_ne_dots : n.localPart.toList ≠ ['.', '.'] :=
  (localPartFault?_eq_none_iff.mp h).2.2.2

end Name.IsLegal

/-- The check of a local part passes exactly on legal ones and gives them back. -/
theorem checkLocalPart_eq_ok_iff {text localPart : String} {cs : List Char} :
    checkLocalPart text cs = .ok localPart ↔
      localPartFault? cs = none ∧ localPart = String.ofList cs := by
  unfold checkLocalPart
  split
  · next fault h => simp [h]
  · next h => simp [h, eq_comm]

namespace Registry

variable {r : Registry}

/-- Reading gives legal names only. -/
theorem isLegal_of_readName {text : String} {n : Name} (h : r.readName text = .ok n) :
    n.IsLegal := by
  unfold readName at h
  split at h
  · split at h
    · simp at h
    · simp only [bind_eq_ok_iff, pure_eq_ok_iff, checkLocalPart_eq_ok_iff] at h
      obtain ⟨localPart, ⟨hfault, rfl⟩, rfl⟩ := h
      simpa [Name.IsLegal] using hfault
  · simp only [bind_eq_ok_iff, checkLocalPart_eq_ok_iff] at h
    obtain ⟨localPart, ⟨hfault, rfl⟩, h⟩ := h
    split at h
    · rw [pure_eq_ok_iff] at h
      subst h
      simpa [Name.IsLegal] using hfault
    · exact absurd h throw_ne_ok

/-- A name is written if its namespace has a prefix, which stands in front unless it is empty. -/
theorem nameText_eq_ok_iff {n : Name} {t : String} : r.nameText n = .ok t ↔
    ∃ label, r.prefixOf? n.uri = some label ∧
      t = if label = "" then n.localPart else label ++ ":" ++ n.localPart := by
  unfold nameText
  split
  · next h => simp [h]
  · next label h => simp [h, eq_comm]

/-- The text of a name has an empty prefix and no colon, or a prefix in front of the last colon. -/
theorem nameText_cases {n : Name} {t : String} (h : r.nameText n = .ok t) :
    ∃ label, r.prefixOf? n.uri = some label ∧
      (label = "" ∧ t.toList = n.localPart.toList ∨
        label ≠ "" ∧ t.toList = label.toList ++ ':' :: n.localPart.toList) := by
  obtain ⟨label, hlabel, rfl⟩ := nameText_eq_ok_iff.mp h
  refine ⟨label, hlabel, ?_⟩
  by_cases hempty : label = ""
  · exact .inl ⟨hempty, by rw [if_pos hempty]⟩
  · exact .inr ⟨hempty, by simp [if_neg hempty, String.toList_append]⟩

/-- Two legal names with one text are one name. -/
theorem Paired.name_eq_of_nameText (hp : r.Paired) {n m : Name} (hn : n.IsLegal) (hm : m.IsLegal)
    {t : String} (hnt : r.nameText n = .ok t) (hmt : r.nameText m = .ok t) : n = m := by
  obtain ⟨label, hlabel, hcase⟩ := nameText_cases hnt
  obtain ⟨label', hlabel', hcase'⟩ := nameText_cases hmt
  have huri : label = label' → n.uri = m.uri := by
    rintro rfl
    exact hp.uri_eq_of_prefixOf? hlabel hlabel'
  have hname : label = label' → n.localPart.toList = m.localPart.toList → n = m := by
    intro hl hlocal
    cases n; cases m
    exact Name.mk.injEq .. |>.mpr ⟨huri hl, String.toList_inj.mp hlocal⟩
  -- a text with a prefix has a colon, one without has none
  rcases hcase with ⟨he, ht⟩ | ⟨_, ht⟩ <;> rcases hcase' with ⟨he', ht'⟩ | ⟨_, ht'⟩
  · exact hname (he.trans he'.symm) (ht.symm.trans ht')
  · exact absurd (ht ▸ ht' ▸ by simp) hn.colon_notMem
  · exact absurd (ht' ▸ ht ▸ by simp) hm.colon_notMem
  · obtain ⟨hl, hlocal⟩ :=
      separator_append_cancel hn.colon_notMem hm.colon_notMem (ht.symm.trans ht')
    exact hname (String.toList_inj.mp hl) hlocal

/-- Where no prefix starts like an expanded name, no name text does. -/
theorem Paired.head?_nameText_ne_brace (hp : r.Paired)
    (hbrace : ∀ label, r.HasPrefix label → label.toList.head? ≠ some '{') {n : Name}
    (hn : n.IsLegal) {t : String} (h : r.nameText n = .ok t) : t.toList.head? ≠ some '{' := by
  obtain ⟨label, hlabel, ⟨-, ht⟩ | ⟨hne, ht⟩⟩ := nameText_cases h
  · rw [ht]
    exact fun hhead => hn.notMem (List.mem_of_mem_head? hhead) (by simp [illegalInLocalPart])
  · have hlabelBrace := hbrace _ (hp.hasPrefix hlabel)
    have hcons : label.toList ≠ [] := by simpa using hne
    rw [ht, List.head?_append_of_ne_nil _ hcons]
    exact hlabelBrace

/-- Where no prefix holds a colon or starts like an expanded name, a name text reads back. -/
theorem Paired.readName_nameText (hp : r.Paired) (hcolon : r.PrefixesAvoid [':'])
    (hbrace : ∀ label, r.HasPrefix label → label.toList.head? ≠ some '{') {n : Name}
    (hn : n.IsLegal) {t : String} (h : r.nameText n = .ok t) : r.readName t = .ok n := by
  have hhead := hp.head?_nameText_ne_brace hbrace hn h
  obtain ⟨label, hlabel, hcase⟩ := nameText_cases h
  have hlabelColon : ':' ∉ label.toList := fun hc =>
    hcolon _ (hp.hasPrefix hlabel) _ hc (by simp)
  -- the writer puts the last colon, the reader cuts at the first: there is one only
  have hsplit : splitPrefix t.toList = (label.toList, n.localPart.toList) := by
    rcases hcase with ⟨rfl, ht⟩ | ⟨-, ht⟩ <;> rw [ht, splitPrefix]
    · rw [splitAtFirst?_eq_none hn.colon_notMem]
      rfl
    · rw [splitAtFirst?_append hlabelColon]
      rfl
  have hcheck : checkLocalPart t n.localPart.toList = .ok n.localPart :=
    checkLocalPart_eq_ok_iff.mpr ⟨hn, by simp⟩
  have huri : r.uriOf? label = some n.uri := (hp label n.uri).mpr hlabel
  unfold readName
  split
  · next rest hrest => exact absurd (by rw [hrest]; rfl) hhead
  · simp [hsplit, hcheck, huri]

/-- The text of a legal name has characters and is no step that stays or climbs. -/
theorem nameText_ne_dots {n : Name} (hn : n.IsLegal) {t : String} (h : r.nameText n = .ok t) :
    t.toList ≠ [] ∧ t.toList ≠ ['.'] ∧ t.toList ≠ ['.', '.'] := by
  obtain ⟨label, -, ⟨-, ht⟩ | ⟨-, ht⟩⟩ := nameText_cases h
  · rw [ht]
    exact ⟨hn.localPart_ne_nil, hn.localPart_ne_dot, hn.localPart_ne_dots⟩
  · have hcolon : ':' ∈ t.toList := by simp [ht]
    refine ⟨?_, ?_, ?_⟩ <;> intro heq <;> simp [heq] at hcolon

/-- The text of a legal name holds no illegal character that the prefixes avoid. -/
theorem Paired.notMem_nameText (hp : r.Paired) {cs : List Char}
    (hcs : ∀ c ∈ cs, c ∈ illegalInLocalPart) (hcolon : ':' ∉ cs) (hr : r.PrefixesAvoid cs) {n : Name}
    (hn : n.IsLegal) {t : String} (h : r.nameText n = .ok t) : ∀ c ∈ t.toList, c ∉ cs := by
  obtain ⟨label, hlabel, hcase⟩ := nameText_cases h
  have hlabelAvoids := hr _ (hp.hasPrefix hlabel)
  intro c hc hbad
  rcases hcase with ⟨-, ht⟩ | ⟨-, ht⟩ <;> rw [ht] at hc
  · exact hn.notMem hc (hcs c hbad)
  · rcases List.mem_append.mp hc with hc | hc
    · exact hlabelAvoids c hc hbad
    · rcases List.mem_cons.mp hc with rfl | hc
      · exact hcolon hbad
      · exact hn.notMem hc (hcs c hbad)

end Registry

end ContentQuery.Naming
