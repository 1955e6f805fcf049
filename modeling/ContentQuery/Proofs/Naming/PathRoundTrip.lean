import ContentQuery.Proofs.Naming.PathGrammar

/-! # Path texts read back

Where no prefix holds a colon, slash or bracket, the text of a legal step is that of a written segment
with this step, and so the text of a legal path is that of a reading with this path. By the grammar
it reads back. Conversely the steps of written segments are legal, so reading gives legal paths only.
-/

namespace ContentQuery.Naming

open Number Text

/-- What an index adds to a name is the text of an index, or none for the index one. -/
theorem exists_writtenIndex {index : UInt32} (h : 1 ≤ index) : ∃ written : Option WrittenIndex,
    WrittenIndex.optionChars written = indexText index ∧
      (written.map WrittenIndex.number).getD 1 = index := by
  -- the index one is not written
  by_cases hone : 1 < index
  · have hnumber : ofDigits (decimalDigits index.toNat) = index.toNat :=
      ofDigits_decimalDigits index.toNat
    have hpos : 1 ≤ ofDigits (decimalDigits index.toNat) := by
      rw [hnumber]
      exact UInt32.le_iff_toNat_le.mp h
    have hlt : ofDigits (decimalDigits index.toNat) < 2 ^ 32 := by
      rw [hnumber]
      exact index.toNat_lt
    refine ⟨some ⟨decimalDigits index.toNat, decimalDigits_ne_nil _,
      fun _ => isDigit_of_mem_decimalDigits, hpos, hlt⟩, ?_, ?_⟩
    · rw [indexText, if_pos hone]
      rfl
    · show UInt32.ofNat (ofDigits (decimalDigits index.toNat)) = index
      rw [hnumber, UInt32.ofNat_toNat]
  · refine ⟨none, ?_, UInt32.le_antisymm h (UInt32.not_lt.mp hone)⟩
    rw [indexText, if_neg hone]
    rfl

namespace Registry

variable {r : Registry}

/-- A name text with an index counted from one is that of a written segment. -/
theorem exists_writtenSegment_named {cs : List Char} {name : Name} {index : UInt32}
    (hform : IsNameForm cs) (hread : r.readName (String.ofList cs) = .ok name) (hindex : 1 ≤ index) :
    ∃ segment : WrittenSegment r, segment.chars = cs ++ indexText index ∧
      segment.step = .named name index := by
  obtain ⟨written, hchars, hnumber⟩ := exists_writtenIndex hindex
  refine ⟨.named ⟨cs, hform, name, hread⟩ written, ?_, ?_⟩
  · rw [← hchars]
    rfl
  · rw [WrittenSegment.step, hnumber]

/-- A path reads back from the texts of written segments with its steps. -/
theorem readPath_textOfSteps {absolute : Bool} {steps : List Step} {texts : List String}
    (h : List.Forall₂ (fun s u => ∃ segment : WrittenSegment r,
      segment.chars = u.toList ∧ segment.step = s) steps texts)
    (hnonempty : absolute = false → steps ≠ []) :
    r.readPath (Path.textOfSteps absolute texts) = .ok ⟨absolute, steps⟩ := by
  -- the texts of the steps are those of a row of segments, which make a reading
  have hsegments : ∃ segments : List (WrittenSegment r),
      segments.map WrittenSegment.chars = texts.map String.toList ∧
        segments.map WrittenSegment.step = steps := by
    clear hnonempty
    induction h with
    | nil => exact ⟨[], rfl, rfl⟩
    | cons hfirst _ ih =>
      obtain ⟨segment, hchars, rfl⟩ := hfirst
      obtain ⟨segments, hmore, rfl⟩ := ih
      exact ⟨segment :: segments, by rw [List.map_cons, List.map_cons, hchars, hmore], rfl⟩
  obtain ⟨segments, hchars, rfl⟩ := hsegments
  have hne : absolute = false → segments ≠ [] := by
    rintro habsolute rfl
    exact hnonempty habsolute rfl
  refine readPath_eq_ok_iff_reading.mpr ⟨⟨absolute, segments, hne⟩, ?_, rfl⟩
  rw [PathReading.chars, WrittenSegment.joinChars, hchars, Path.textOfSteps]
  by_cases habsolute : absolute = true <;> simp [habsolute]

section Read

variable (hp : r.Paired) (hr : r.PrefixesAvoid [':', '/', '[', ']'])
  (hbrace : ∀ label, r.HasPrefix label → label.toList.head? ≠ some '{')
include hp hr hbrace

/-- The text of a legal step is that of a written segment with this step. -/
theorem exists_writtenSegment_of_stepText {s : Step} (hs : s.IsLegal) {t : String}
    (h : r.stepText s = .ok t) :
    ∃ segment : WrittenSegment r, segment.chars = t.toList ∧ segment.step = s := by
  rcases stepText_cases h with ⟨rfl, ht⟩ | ⟨rfl, ht⟩ | ⟨name, index, nt, rfl, hnt, ht⟩ <;> rw [ht]
  · exact ⟨.current, rfl, rfl⟩
  · exact ⟨.parent, rfl, rfl⟩
  · obtain ⟨hname, hindex⟩ := hs
    have hplain := isPlain_of_mem_nameText hp (hr.mono (by simp)) hname hnt
    refine exists_writtenSegment_named (.inr fun c hc => isPlain_eq_true_iff.mp (hplain c hc)) ?_
      hindex
    rw [String.ofList_toList]
    exact hp.readName_nameText (hr.mono (by simp)) hbrace hname hnt

/-- The text of a legal path reads back as the path. -/
theorem readPath_eq_of_pathText {p : Path} (hpl : p.IsLegal) {t : String}
    (h : r.pathText p = .ok t) : r.readPath t = .ok p := by
  obtain ⟨texts, htexts, rfl⟩ := pathText_eq_ok_iff.mp h
  have hlegal := (List.forall₂_and_left (R := fun s u => r.stepText s = .ok u) _ _).mpr
    ⟨hpl.steps, htexts⟩
  exact readPath_textOfSteps
    (hlegal.imp fun _ _ hstep => exists_writtenSegment_of_stepText hp hr hbrace hstep.1 hstep.2)
    hpl.nonempty

end Read

/-- The step of a written segment is legal. -/
theorem isLegal_step (segment : WrittenSegment r) : segment.step.IsLegal := by
  rcases segment with _ | _ | ⟨name, _ | index⟩
  · trivial
  · trivial
  · exact ⟨isLegal_of_readName name.readName_eq, UInt32.le_refl 1⟩
  · exact ⟨isLegal_of_readName name.readName_eq, index.one_le_number⟩

/-- Reading gives legal paths only. -/
theorem isLegal_of_readPath {text : String} {p : Path} (h : r.readPath text = .ok p) :
    p.IsLegal := by
  obtain ⟨reading, -, rfl⟩ := readPath_eq_ok_iff_reading.mp h
  refine ⟨fun step hstep => ?_, fun habsolute => ?_⟩
  · obtain ⟨segment, -, rfl⟩ := List.mem_map.mp hstep
    exact isLegal_step segment
  · simpa [PathReading.path] using reading.nonempty habsolute

/-- A prefix that names can be read back with: none of the characters that part paths and names
stands in it, and it does not start like an expanded name. -/
def IsReadablePrefix (label : String) : Prop :=
  (∀ c ∈ label.toList, c ∉ [':', '/', '[', ']']) ∧ label.toList.head? ≠ some '{'

/-- The prefixes that are there from the start can be read in paths. -/
theorem isReadablePrefix_of_standard {label : String} (h : standard.HasPrefix label) :
    IsReadablePrefix label := by
  obtain ⟨call, hcall, rfl⟩ := h.of_registerAll.resolve_left (not_hasPrefix_empty label)
  simp only [List.mem_cons, List.not_mem_nil, or_false] at hcall
  rcases hcall with rfl | rfl | rfl | rfl | rfl | rfl <;> simp [IsReadablePrefix]

theorem prefixesAvoid_standard : standard.PrefixesAvoid [':', '/', '[', ']'] :=
  fun _ hlabel => (isReadablePrefix_of_standard hlabel).1

/-- **Path texts round-trip.** Whatever has been registered under readable prefixes, the text of a
legal path reads back as the path. Every path that some registry reads is legal. -/
theorem readPath_pathText (calls : List (String × String))
    (hcalls : ∀ call ∈ calls, IsReadablePrefix call.1) :
    (∀ (p : Path) (t : String), p.IsLegal → (standard.registerAll calls).pathText p = .ok t →
      (standard.registerAll calls).readPath t = .ok p) ∧
    (∀ (r₀ : Registry) (text t : String) (p : Path), r₀.readPath text = .ok p →
      (standard.registerAll calls).pathText p = .ok t →
      (standard.registerAll calls).readPath t = .ok p) := by
  -- every prefix is one of the standard ones or one of those registered
  have hreadable : ∀ label, (standard.registerAll calls).HasPrefix label →
      IsReadablePrefix label := by
    intro label hlabel
    rcases hlabel.of_registerAll with hold | ⟨call, hcall, rfl⟩
    · exact isReadablePrefix_of_standard hold
    · exact hcalls call hcall
  have hlegal : ∀ (p : Path) (t : String), p.IsLegal →
      (standard.registerAll calls).pathText p = .ok t →
      (standard.registerAll calls).readPath t = .ok p := fun _ _ hpl h =>
    readPath_eq_of_pathText (paired_registerAll_standard calls)
      (fun label hlabel => (hreadable label hlabel).1)
      (fun label hlabel => (hreadable label hlabel).2) hpl h
  exact ⟨hlegal, fun _ _ _ _ hread h => hlegal _ _ (isLegal_of_readPath hread) h⟩

/-- A new prefix, the empty prefix and a standard one moved to other namespaces; a path with the
greatest index and one that was read from an expanded name. -/
theorem readPath_pathText_remapped :
    let calls := [("ex", "urn:a"), ("", "urn:b"), ("nt", "urn:c")]
    let r := standard.registerAll calls
    (∀ call ∈ calls, IsReadablePrefix call.1) ∧
      r.pathText ⟨true, [.named ⟨"urn:a", "x"⟩ 4294967295, .parent, .named ⟨"urn:b", "y"⟩ 1]⟩ =
        .ok "/ex:x[4294967295]/../y" ∧
      r.readPath "/ex:x[4294967295]/../y" =
        .ok ⟨true, [.named ⟨"urn:a", "x"⟩ 4294967295, .parent, .named ⟨"urn:b", "y"⟩ 1]⟩ ∧
      r.readPath "./{urn:c}file[3]" = .ok ⟨false, [.current, .named ⟨"urn:c", "file"⟩ 3]⟩ ∧
      r.readPath "./nt:file[3]" = .ok ⟨false, [.current, .named ⟨"urn:c", "file"⟩ 3]⟩ := by
  have hcalls : ∀ call ∈ [("ex", "urn:a"), ("", "urn:b"), ("nt", "urn:c")],
      IsReadablePrefix call.1 := by
    simp [IsReadablePrefix]
  have htext : (standard.registerAll [("ex", "urn:a"), ("", "urn:b"), ("nt", "urn:c")]).pathText
      ⟨true, [.named ⟨"urn:a", "x"⟩ 4294967295, .parent, .named ⟨"urn:b", "y"⟩ 1]⟩ =
        .ok "/ex:x[4294967295]/../y" := by
    cbv
  have hlegal : Path.IsLegal
      ⟨true, [.named ⟨"urn:a", "x"⟩ 4294967295, .parent, .named ⟨"urn:b", "y"⟩ 1]⟩ :=
    ⟨by simp [Step.IsLegal, Name.IsLegal, localPartFault?, illegalInLocalPart], by simp⟩
  -- an expanded name needs no prefix to be read, and is written with the one that it has
  have hread : (standard.registerAll [("ex", "urn:a"), ("", "urn:b"), ("nt", "urn:c")]).readPath
      "./{urn:c}file[3]" = .ok ⟨false, [.current, .named ⟨"urn:c", "file"⟩ 3]⟩ := by
    cbv
  exact ⟨hcalls, htext, (readPath_pathText _ hcalls).1 _ _ hlegal htext, hread,
    (readPath_pathText _ hcalls).2 _ _ "./nt:file[3]" _ hread (by cbv)⟩

end Registry

end ContentQuery.Naming
