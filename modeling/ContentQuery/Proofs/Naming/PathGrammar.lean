import ContentQuery.Proofs.Naming.PathSegments

/-! # The grammar of path texts

A `PathReading` is a path text together with how it is put together: segments with single slashes
between them, and a slash in front if the path is absolute. A text is read as a path exactly if it is
the text of a reading, and then as the path of that reading; and a text has at most one reading.

A slash ends every segment, and no segment starts with one. So a slash in front is always that of an
absolute path, and behind a slash there must be a segment, the path of the root apart.
-/

namespace ContentQuery.Naming

open Text

variable {r : Registry}

/-! ## Segments with slashes between them -/

/-- The text of a further segment, with the slash in front. -/
def WrittenSegment.nextChars (segment : WrittenSegment r) : List Char := '/' :: segment.chars

/-- A segment is followed by a slash, or by nothing. -/
theorem endsSegment_nextChars (segments : List (WrittenSegment r)) :
    EndsSegment (segments.flatMap WrittenSegment.nextChars) := by
  cases segments <;> simp [EndsSegment, WrittenSegment.nextChars]

/-- The segments behind a slash, if one can be split off. -/
theorem scanMore_slash {cs after : List Char} {segment : Segment}
    (h : Segment.scan? cs = some (segment, after)) :
    scanMore ('/' :: cs) = (segment :: (scanMore after).1, (scanMore after).2) := by
  rw [scanMore]
  split
  · next heq =>
    rw [h, Option.some.injEq, Prod.mk.injEq] at heq
    obtain ⟨rfl, rfl⟩ := heq
    rfl
  · next heq => simp [h] at heq

theorem scanMore_nil : scanMore [] = ([], []) := by
  rw [scanMore]
  simp

/-- The segments are read as these steps, and no index is zero. -/
def ReadsAs (r : Registry) (scanned : List Segment) (steps : List Step) : Prop :=
  scanned.any Segment.hasZeroIndex = false ∧ scanned.mapM (Segment.read r) = .ok steps

theorem readsAs_nil : ReadsAs r [] [] := ⟨rfl, rfl⟩

/-- Segments are read one by one: each is no index zero and gives a step. -/
theorem readsAs_cons_iff {scanned : Segment} {more : List Segment} {steps : List Step} :
    ReadsAs r (scanned :: more) steps ↔ ∃ step rest, steps = step :: rest ∧
      scanned.hasZeroIndex = false ∧ scanned.read r = .ok step ∧ ReadsAs r more rest := by
  simp only [ReadsAs, List.any_cons, Bool.or_eq_false_iff, mapM_eq_ok_iff, List.forall₂_cons_left_iff]
  constructor
  · rintro ⟨⟨hzero, hzeros⟩, step, rest, hread, hreads, rfl⟩
    exact ⟨step, rest, rfl, hzero, hread, hzeros, hreads⟩
  · rintro ⟨step, rest, rfl, hzero, hread, hzeros, hreads⟩
    exact ⟨⟨hzero, hzeros⟩, step, rest, hread, hreads, rfl⟩

/-- Further segments are split off from their text and read as their steps. -/
theorem exists_scanMore_nextChars (segments : List (WrittenSegment r)) :
    ∃ scanned, scanMore (segments.flatMap WrittenSegment.nextChars) = (scanned, []) ∧
      ReadsAs r scanned (segments.map WrittenSegment.step) := by
  induction segments with
  | nil => exact ⟨[], scanMore_nil, readsAs_nil⟩
  | cons segment segments ih =>
    obtain ⟨more, hmore, hreads⟩ := ih
    obtain ⟨scanned, hscan, hzero, hread⟩ := segment.exists_scan?_chars (endsSegment_nextChars segments)
    refine ⟨scanned :: more, ?_, readsAs_cons_iff.mpr ⟨_, _, rfl, hzero, hread, hreads⟩⟩
    rw [List.flatMap_cons, WrittenSegment.nextChars, List.cons_append, scanMore_slash hscan, hmore]

/-- What is split off as further segments and read as steps is the text of such segments. -/
theorem exists_segments_of_scanMore (cs : List Char) {steps : List Step}
    (h : ReadsAs r (scanMore cs).1 steps) :
    ∃ segments : List (WrittenSegment r),
      cs = segments.flatMap WrittenSegment.nextChars ++ (scanMore cs).2 ∧
        segments.map WrittenSegment.step = steps := by
  fun_induction scanMore cs generalizing steps with
  | case1 rest scanned after hscan ih =>
    obtain ⟨step, steps, rfl, hzero, hread, hmore⟩ := readsAs_cons_iff.mp h
    obtain ⟨segment, rfl, rfl⟩ := exists_writtenSegment_of_scan? hscan hzero hread
    obtain ⟨segments, hafter, rfl⟩ := ih hmore
    refine ⟨segment :: segments, ?_, rfl⟩
    rw [List.flatMap_cons, WrittenSegment.nextChars, List.cons_append, List.cons_append,
      List.append_assoc, ← hafter]
  | case2 | case3 =>
    obtain rfl : [] = steps := Except.ok.inj h.2
    exact ⟨[], rfl, rfl⟩

namespace WrittenSegment

/-- The text of segments: a slash between any two of them. -/
def joinChars (segments : List (WrittenSegment r)) : List Char :=
  ['/'].intercalate (segments.map chars)

theorem joinChars_cons (segment : WrittenSegment r) (segments : List (WrittenSegment r)) :
    joinChars (segment :: segments) = segment.chars ++ segments.flatMap nextChars := by
  rw [joinChars, List.map_cons, intercalate_cons, List.flatMap_map]
  rfl

/-- The text of segments does not start with a slash. -/
theorem head?_joinChars_ne_slash (segments : List (WrittenSegment r)) :
    (joinChars segments).head? ≠ some '/' := by
  cases segments with
  | nil => simp [joinChars]
  | cons segment segments =>
    obtain ⟨c, cs, hcs, hc⟩ := segment.exists_chars_eq_cons
    simp [joinChars_cons, hcs, hc]

theorem joinChars_ne_nil {segments : List (WrittenSegment r)} (h : segments ≠ []) :
    joinChars segments ≠ [] := by
  obtain ⟨segment, segments, rfl⟩ := List.exists_cons_of_ne_nil h
  obtain ⟨c, cs, hcs, -⟩ := segment.exists_chars_eq_cons
  simp [joinChars_cons, hcs]

/-- Segments are known from their text. -/
theorem joinChars_injective : Function.Injective (joinChars (r := r)) := by
  intro segments segments' h
  cases segments with
  | nil =>
    by_contra hne
    exact joinChars_ne_nil (Ne.symm hne) h.symm
  | cons segment segments =>
    cases segments' with
    | nil => exact absurd h (joinChars_ne_nil (List.cons_ne_nil _ _))
    | cons segment' segments' =>
      -- the first segment ends where a slash or nothing follows, and so does every later one
      rw [joinChars_cons, joinChars_cons] at h
      obtain ⟨rfl, hmore⟩ := chars_append_cancel (endsSegment_nextChars segments)
        (endsSegment_nextChars segments') h
      have hnext : ∀ {x y : WrittenSegment r} {u v : List Char}, EndsSegment u → EndsSegment v →
          x.nextChars ++ u = y.nextChars ++ v → x = y ∧ u = v := fun hu hv h =>
        chars_append_cancel hu hv (List.cons.inj h).2
      have hend : ∀ u : List Char, u = [] → EndsSegment u := by
        rintro _ rfl
        simp [EndsSegment]
      have hmore : segments.flatMap nextChars ++ [] = segments'.flatMap nextChars ++ [] := by
        rw [hmore]
      obtain ⟨rfl, -⟩ := flatMap_append_cancel hnext (fun x u => by simp [EndsSegment, nextChars])
        hend (fun x u _ => by simp [nextChars]) rfl rfl hmore
      rfl

/-- Segments are split off from their text and read as their steps. -/
theorem exists_scanSegments_joinChars (segments : List (WrittenSegment r)) :
    ∃ scanned, scanSegments (joinChars segments) = (scanned, []) ∧
      ReadsAs r scanned (segments.map step) := by
  cases segments with
  | nil => exact ⟨[], rfl, readsAs_nil⟩
  | cons segment segments =>
    obtain ⟨more, hmore, hreads⟩ := exists_scanMore_nextChars segments
    obtain ⟨scanned, hscan, hzero, hread⟩ := segment.exists_scan?_chars (endsSegment_nextChars segments)
    refine ⟨scanned :: more, ?_, readsAs_cons_iff.mpr ⟨_, _, rfl, hzero, hread, hreads⟩⟩
    rw [joinChars_cons, scanSegments, hscan]
    simp only [hmore]

end WrittenSegment

/-- What is split off as segments and read as steps is the text of such segments. -/
theorem exists_segments_of_scanSegments (cs : List Char) {steps : List Step}
    (hleft : (scanSegments cs).2 = []) (h : ReadsAs r (scanSegments cs).1 steps) :
    ∃ segments : List (WrittenSegment r), cs = WrittenSegment.joinChars segments ∧
      segments.map WrittenSegment.step = steps := by
  unfold scanSegments at hleft h
  -- a first segment and further ones, or none at all
  split at h
  · next scanned after hscan =>
    obtain ⟨step, steps, rfl, hzero, hread, hmore⟩ := readsAs_cons_iff.mp h
    obtain ⟨segment, rfl, rfl⟩ := exists_writtenSegment_of_scan? hscan hzero hread
    obtain ⟨segments, hafter, rfl⟩ := exists_segments_of_scanMore after hmore
    rw [hscan] at hleft
    refine ⟨segment :: segments, ?_, rfl⟩
    rw [WrittenSegment.joinChars_cons, hafter, hleft, List.append_nil]
  · next hscan =>
    obtain rfl : [] = steps := Except.ok.inj h.2
    rw [hscan] at hleft
    exact ⟨[], hleft, rfl⟩

/-! ## Paths -/

/-- A path text as it is written. A slash of its own is the path of the root. -/
structure PathReading (r : Registry) where
  absolute : Bool
  segments : List (WrittenSegment r)
  nonempty : absolute = false → segments ≠ []

namespace PathReading

/-- The text of a path. -/
def chars (reading : PathReading r) : List Char :=
  (if reading.absolute then ['/'] else []) ++ WrittenSegment.joinChars reading.segments

/-- The path that is written. -/
def path (reading : PathReading r) : Path :=
  ⟨reading.absolute, reading.segments.map WrittenSegment.step⟩

/-- Only the text of an absolute path starts with a slash. -/
theorem head?_chars_iff (reading : PathReading r) :
    reading.chars.head? = some '/' ↔ reading.absolute = true := by
  unfold chars
  cases habsolute : reading.absolute
  · simpa using WrittenSegment.head?_joinChars_ne_slash reading.segments
  · simp

/-- No path is written as nothing. -/
theorem chars_ne_nil (reading : PathReading r) : reading.chars ≠ [] := by
  unfold chars
  cases habsolute : reading.absolute
  · simpa using WrittenSegment.joinChars_ne_nil (reading.nonempty habsolute)
  · simp

/-- A path text has one reading. -/
theorem chars_injective : Function.Injective (chars (r := r)) := by
  intro reading reading' h
  have habsolute : reading.absolute = reading'.absolute := by
    rw [Bool.eq_iff_iff, ← head?_chars_iff, ← head?_chars_iff, h]
  rw [chars, chars, habsolute, List.append_cancel_left_eq] at h
  have hsegments := WrittenSegment.joinChars_injective h
  cases reading; cases reading'
  cases habsolute
  cases hsegments
  rfl

/-- The text of a path is cut into its first slash and segments that are read as its steps. -/
theorem exists_scanPath_chars (reading : PathReading r) :
    ∃ scanned, scanPath reading.chars = (reading.absolute, scanned, []) ∧
      ReadsAs r scanned reading.path.steps := by
  obtain ⟨scanned, hscan, hreads⟩ :=
    WrittenSegment.exists_scanSegments_joinChars reading.segments
  refine ⟨scanned, ?_, hreads⟩
  cases habsolute : reading.absolute
  · have hhead := WrittenSegment.head?_joinChars_ne_slash reading.segments
    rw [chars, habsolute, if_neg Bool.false_ne_true, List.nil_append]
    unfold scanPath
    split
    · next heq =>
      rw [heq] at hhead
      exact absurd rfl hhead
    · rw [hscan]
  · rw [chars, habsolute, if_pos rfl, List.singleton_append, scanPath, hscan]

end PathReading

/-- A text is read as a path if it is not empty, is cut without a rest, and the segments are read as
the steps. -/
theorem Registry.readPath_eq_ok_iff {text : String} {p : Path} : r.readPath text = .ok p ↔
    text ≠ "" ∧ ∃ scanned, scanPath text.toList = (p.absolute, scanned, []) ∧
      ReadsAs r scanned p.steps := by
  unfold readPath
  generalize scanPath text.toList = cut
  obtain ⟨absolute, scanned, left⟩ := cut
  obtain ⟨absolute', steps⟩ := p
  constructor
  -- nothing of the text is left over, and no index is zero
  · intro h
    split at h
    · cases h
    next htext =>
    simp only at h
    split at h
    · cases h
    next hleft =>
    split at h
    · cases h
    next hzero =>
    simp only [bind_eq_ok_iff, pure_eq_ok_iff] at h
    obtain ⟨_, hread, heq⟩ := h
    cases heq
    exact ⟨htext, scanned, by rw [not_not.mp hleft], Bool.not_eq_true _ ▸ hzero, hread⟩
  · rintro ⟨htext, _, hcut, hzero, hread⟩
    cases hcut
    simp [htext, hzero, hread]

/-- What is read as a path is the text of one. -/
theorem exists_reading_of_readPath {text : String} {p : Path} (h : r.readPath text = .ok p) :
    ∃ reading : PathReading r, reading.chars = text.toList ∧ reading.path = p := by
  obtain ⟨htext, scanned, hscan, hreads⟩ := Registry.readPath_eq_ok_iff.mp h
  obtain ⟨absolute, steps⟩ := p
  have hne : text.toList ≠ [] := fun hnil => htext (String.toList_eq_nil_iff.mp hnil)
  unfold scanPath at hscan
  -- with a slash in front, or without
  split at hscan
  · next rest hrest =>
    obtain ⟨habsolute, hsegments⟩ := Prod.mk.inj hscan
    cases habsolute
    obtain ⟨segments, rfl, rfl⟩ := exists_segments_of_scanSegments rest
      (congrArg Prod.snd hsegments) (by rw [hsegments]; exact hreads)
    exact ⟨⟨true, segments, by simp⟩, hrest.symm, rfl⟩
  · next hrest =>
    obtain ⟨habsolute, hsegments⟩ := Prod.mk.inj hscan
    cases habsolute
    obtain ⟨segments, htoList, rfl⟩ := exists_segments_of_scanSegments text.toList
      (congrArg Prod.snd hsegments) (by rw [hsegments]; exact hreads)
    refine ⟨⟨false, segments, fun _ hnil => hne ?_⟩, htoList.symm, rfl⟩
    rw [htoList, hnil]
    rfl

namespace Registry

/-- The paths that are read are those of the readings of the text. -/
theorem readPath_eq_ok_iff_reading {text : String} {p : Path} : r.readPath text = .ok p ↔
    ∃ reading : PathReading r, reading.chars = text.toList ∧ reading.path = p := by
  constructor
  · exact exists_reading_of_readPath
  · rintro ⟨reading, htext, rfl⟩
    obtain ⟨scanned, hscan, hreads⟩ := reading.exists_scanPath_chars
    refine readPath_eq_ok_iff.mpr ⟨?_, scanned, htext ▸ hscan, hreads⟩
    rintro rfl
    exact reading.chars_ne_nil htext

/-- **Paths are read by their grammar.** Reading gives the path of the one reading whose text it is. If
there is none, reading fails. -/
theorem readPath_grammar (r : Registry) (text : String) :
    (∀ p, r.readPath text = .ok p ↔
      ∃ reading : PathReading r, reading.chars = text.toList ∧ reading.path = p) ∧
    (∀ reading reading' : PathReading r, reading.chars = text.toList →
      reading'.chars = text.toList → reading = reading') ∧
    ((∀ reading : PathReading r, reading.chars ≠ text.toList) →
      ∃ e, r.readPath text = .error e) := by
  refine ⟨fun p => readPath_eq_ok_iff_reading, ?_, fun hnone => ?_⟩
  · intro reading reading' h h'
    exact PathReading.chars_injective (h.trans h'.symm)
  · cases hread : r.readPath text with
    | ok p =>
      obtain ⟨reading, htext, -⟩ := exists_reading_of_readPath hread
      exact absurd htext (hnone reading)
    | error e => exact ⟨e, rfl⟩

end Registry

end ContentQuery.Naming
