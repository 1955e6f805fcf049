import ContentQuery.Proofs.Naming.PathRoundTrip

/-! # Expanded forms read back

The expanded form of a name in the empty namespace is its local part, so it reads back with every
registry that leaves the empty prefix to the empty namespace. All other expanded forms show the URI in
braces, whatever characters but the closing brace it holds, and need no registry. Both have the form
of a name in a path, so the expanded form of a path is cut where its steps end.
-/

namespace ContentQuery.Naming

open Text

/-- A URI that shows where it ends in an expanded form. -/
def Name.HasBraceFreeUri (n : Name) : Prop := '}' ∉ n.uri.toList

/-- All steps that descend have such a name. -/
def Path.HasBraceFreeUris (p : Path) : Prop :=
  ∀ step ∈ p.steps, ∀ n, step.name? = some n → n.HasBraceFreeUri

theorem Name.expanded_of_uri_eq {n : Name} (h : n.uri = "") : n.expanded = n.localPart := if_pos h

/-- A name in a namespace is written with the URI in braces in front. -/
theorem Name.toList_expanded {n : Name} (h : n.uri ≠ "") :
    n.expanded.toList = '{' :: (n.uri.toList ++ '}' :: n.localPart.toList) := by
  simp [expanded, braced, h]

/-- An expanded form can stand in a path. -/
theorem Name.IsLegal.isNameForm_expanded {n : Name} (hn : n.IsLegal) (huri : n.HasBraceFreeUri) :
    IsNameForm n.expanded.toList := by
  by_cases hempty : n.uri = ""
  · rw [expanded_of_uri_eq hempty]
    exact .inr fun c hc => isPlain_eq_true_iff.mp (isPlain_of_localPartFault? hn c hc)
  · exact .inl ⟨n.uri.toList, n.localPart.toList, toList_expanded hempty, huri⟩

namespace Registry

variable {r : Registry} (hdefault : r.uriOf? "" = some "")
include hdefault

/-- The expanded form of a name reads back. -/
theorem readName_expanded {n : Name} (hn : n.IsLegal) (huri : n.HasBraceFreeUri) :
    r.readName n.expanded = .ok n := by
  have hcheck : ∀ text, checkLocalPart text n.localPart.toList = .ok n.localPart := fun text =>
    checkLocalPart_eq_ok_iff.mpr ⟨hn, by simp⟩
  unfold readName
  by_cases hempty : n.uri = ""
  · -- the local part starts with no brace and has no colon, so it is read with the empty prefix
    rw [Name.expanded_of_uri_eq hempty]
    split
    · next rest hrest =>
      exact absurd (by simp [illegalInLocalPart]) (hn.notMem (hrest ▸ List.mem_cons_self))
    · have hlabel : r.uriOf? (String.ofList []) = some n.uri := hempty ▸ hdefault
      simp [splitPrefix, splitAtFirst?_eq_none hn.colon_notMem, hcheck, hlabel]
  · simp [Name.toList_expanded hempty, splitAtFirst?_append huri, hcheck]

/-- The expanded form of a legal step is the text of a written segment with this step. -/
theorem exists_writtenSegment_expanded {s : Step} (hs : s.IsLegal)
    (huri : ∀ n, s.name? = some n → n.HasBraceFreeUri) :
    ∃ segment : WrittenSegment r, segment.chars = s.expanded.toList ∧ segment.step = s := by
  cases s with
  | current => exact ⟨.current, rfl, rfl⟩
  | parent => exact ⟨.parent, rfl, rfl⟩
  | named name index =>
    obtain ⟨hname, hindex⟩ := hs
    have hread := readName_expanded hdefault hname (huri name rfl)
    rw [Step.expanded, toList_textWith]
    exact exists_writtenSegment_named (hname.isNameForm_expanded (huri name rfl))
      (by rwa [String.ofList_toList]) hindex

/-- **Expanded forms read back.** With every registry that leaves the empty prefix to the empty namespace,
the expanded form of a legal path reads back as the path, whether its namespaces are registered or not
and whatever characters but the closing brace are in them. -/
theorem readPath_expanded (p : Path) (hp : p.IsLegal) (huris : p.HasBraceFreeUris) :
    r.readPath p.expanded = .ok p := by
  refine readPath_textOfSteps ?_ hp.nonempty
  rw [List.forall₂_map_right_iff, List.forall₂_same]
  exact fun step hstep =>
    exists_writtenSegment_expanded hdefault (hp.steps step hstep) (huris step hstep)

omit hdefault in
/-- A namespace that is not registered, with slashes, brackets, a colon and an opening brace in it, and
the empty one. -/
theorem readPath_expanded_unregistered :
    let p : Path := ⟨false, [.parent, .named ⟨"http://a/[b]:\x7bc", "x"⟩ 4294967295, .current,
      .named ⟨"", "y"⟩ 1]⟩
    standard.uriOf? "" = some "" ∧ p.IsLegal ∧ p.HasBraceFreeUris ∧
      p.expanded = "../\x7bhttp://a/[b]:\x7bc\x7dx[4294967295]/./y" ∧
      standard.readPath p.expanded = .ok p := by
  intro p
  have hdefault : standard.uriOf? "" = some "" := by decide +kernel
  have hp : p.IsLegal :=
    ⟨by simp [p, Step.IsLegal, Name.IsLegal, localPartFault?, illegalInLocalPart], by simp [p]⟩
  have huris : p.HasBraceFreeUris := by
    simp [p, Path.HasBraceFreeUris, Step.name?, Name.HasBraceFreeUri]
  exact ⟨hdefault, hp, huris, by decide +kernel, readPath_expanded hdefault p hp huris⟩

end Registry

end ContentQuery.Naming
