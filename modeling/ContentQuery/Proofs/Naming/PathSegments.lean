import ContentQuery.Proofs.Naming.PathText

/-! # The segments of path texts

A `WrittenSegment` is a segment together with how it is put together: dots, or the text of a name with
the digits of an index or without. A text starts with a segment that is read as a step exactly if it
starts with the text of a written one, and two written segments with the same text are the same.

The text of a name is what the registry reads as one. If it starts with a brace, it is an expanded
name, so the first closing brace ends the URI, whatever slashes and brackets stand before it. In what
stands behind the URI, and in all other names, the local part allows no slash and no bracket. So the
scanner, which takes the URI first and then runs up to a slash or bracket, ends where the name ends.
-/

namespace ContentQuery.Naming

open Number Text

variable {r : Registry}

/-! ## Names -/

/-- The form of a name text in a path: a URI in braces, which may hold slashes and brackets, and what
stands behind it; or a text without slashes and brackets. -/
def IsNameForm (cs : List Char) : Prop :=
  (∃ uri localPart, cs = '{' :: (uri ++ '}' :: localPart) ∧ '}' ∉ uri) ∨
    ∀ c ∈ cs, c ∉ ['/', '[', ']']

/-- The text of a name as it is written in a path, with the name the registry reads it as. -/
structure WrittenName (r : Registry) where
  chars : List Char
  isNameForm : IsNameForm chars
  name : Name
  readName_eq : r.readName (String.ofList chars) = .ok name

/-- A slash and brackets end a name, and nothing else does. -/
theorem isPlain_eq_true_iff {c : Char} : Segment.isPlain c = true ↔ c ∉ ['/', '[', ']'] := by
  simp [Segment.isPlain, and_assoc]

/-- A legal local part holds neither slashes nor brackets. -/
theorem isPlain_of_localPartFault? {cs : List Char} (h : localPartFault? cs = none) :
    ∀ c ∈ cs, Segment.isPlain c = true := by
  intro c hc
  have hlegal := (localPartFault?_eq_none_iff.mp h).2.1 c hc
  simp only [illegalInLocalPart, List.mem_cons, not_or] at hlegal
  simp [Segment.isPlain, hlegal]

namespace Segment

/-- Nothing is split off, or a URI in braces. -/
theorem splitUri_cases (cs : List Char) : splitUri cs = ([], cs) ∨
    ∃ uri after, cs = '{' :: (uri ++ '}' :: after) ∧ '}' ∉ uri ∧
      splitUri cs = ('{' :: (uri ++ ['}']), after) := by
  unfold splitUri
  split
  · split
    · next uri after hsplit =>
      obtain ⟨rfl, huri⟩ := splitAtFirst?_eq_some hsplit
      exact .inr ⟨uri, after, rfl, huri, rfl⟩
    · exact .inl rfl
  · exact .inl rfl

/-- Behind the URI, a name runs up to a character that cannot stand in it. -/
theorem scanName?_of_splitUri {cs uri plain rest : List Char}
    (huri : splitUri cs = (uri, plain ++ rest)) (hne : plain ≠ [])
    (hplain : ∀ c ∈ plain, isPlain c = true) (hrest : ∀ c ∈ rest.head?, isPlain c = false) :
    scanName? cs = some (uri ++ plain, rest) := by
  simp [scanName?, huri, takeWhile_append_run hplain hrest, dropWhile_append_run hplain hrest, hne]

/-- A text of such characters is split off as a name, unless it starts with a brace. -/
theorem scanName?_append {name rest : List Char} (hne : name ≠ [])
    (hplain : ∀ c ∈ name, isPlain c = true) (hbrace : name.head? ≠ some '{')
    (hrest : ∀ c ∈ rest.head?, isPlain c = false) : scanName? (name ++ rest) = some (name, rest) := by
  have huri : splitUri (name ++ rest) = ([], name ++ rest) := by
    obtain ⟨c, cs, rfl⟩ := List.exists_cons_of_ne_nil hne
    unfold splitUri
    split
    · next heq => exact absurd (congrArg some (List.cons.inj heq).1) hbrace
    · rfl
  exact scanName?_of_splitUri huri hne hplain hrest

/-- What is split off as the text of a name has its form. -/
theorem isNameForm_of_scanName? {cs name rest : List Char}
    (h : scanName? cs = some (name, rest)) : cs = name ++ rest ∧ IsNameForm name := by
  simp only [scanName?] at h
  split at h
  · cases h
  · obtain ⟨rfl, rfl⟩ := Prod.mk.inj (Option.some.inj h)
    have hplain : ∀ c ∈ (splitUri cs).2.takeWhile isPlain, c ∉ ['/', '[', ']'] :=
      fun c hc => isPlain_eq_true_iff.mp (List.mem_takeWhile_imp hc)
    rw [List.append_assoc, List.takeWhile_append_dropWhile]
    obtain hsplit | ⟨uri, after, rfl, huri, hsplit⟩ := splitUri_cases cs <;>
      rw [hsplit] at hplain ⊢
    · exact ⟨rfl, .inr hplain⟩
    · exact ⟨by simp, .inl ⟨uri, after.takeWhile isPlain, by simp, huri⟩⟩

end Segment

namespace WrittenName

/-- The text tells the name. -/
theorem chars_injective : Function.Injective (chars (r := r)) := by
  rintro ⟨cs, form, name, hread⟩ ⟨cs', form', name', hread'⟩ rfl
  obtain rfl : name = name' := Except.ok.inj (hread.symm.trans hread')
  rfl

/-- The text of a name is an expanded name with a legal local part, or it has characters, none of them
a slash or bracket and the first one no brace. -/
theorem chars_cases (name : WrittenName r) :
    (∃ uri localPart, name.chars = '{' :: (uri ++ '}' :: localPart) ∧ '}' ∉ uri ∧
        localPartFault? localPart = none) ∨
      name.chars ≠ [] ∧ (∀ c ∈ name.chars, Segment.isPlain c = true) ∧
        name.chars.head? ≠ some '{' := by
  obtain ⟨cs, hform, name, hread⟩ := name
  rw [Registry.readName, String.toList_ofList] at hread
  split at hread
  · next rest =>
    -- what starts with a brace is read as an expanded name, whatever its form
    split at hread
    · cases hread
    · next uri localPart hsplit =>
      obtain ⟨rfl, huri⟩ := splitAtFirst?_eq_some hsplit
      simp only [bind_eq_ok_iff, checkLocalPart_eq_ok_iff] at hread
      obtain ⟨_, ⟨hfault, -⟩, -⟩ := hread
      exact .inl ⟨uri, localPart, rfl, huri, hfault⟩
  · next hbrace =>
    have hhead : cs.head? ≠ some '{' := by
      intro hhead
      obtain ⟨rest, rfl⟩ := List.head?_eq_some_iff.mp hhead
      exact hbrace rest rfl
    refine .inr ⟨?_, ?_, hhead⟩
    · rintro rfl
      cases hread
    · obtain ⟨uri, localPart, rfl, -⟩ | hplain := hform
      · exact absurd rfl hhead
      · exact fun c hc => isPlain_eq_true_iff.mpr (hplain c hc)

/-- The text of a name ends where something else than a name goes on. -/
theorem scanName?_chars (name : WrittenName r) {rest : List Char}
    (hrest : ∀ c ∈ rest.head?, Segment.isPlain c = false) :
    Segment.scanName? (name.chars ++ rest) = some (name.chars, rest) := by
  obtain ⟨uri, localPart, hchars, huri, hfault⟩ | ⟨hne, hplain, hhead⟩ := name.chars_cases
  · have hplain := isPlain_of_localPartFault? hfault
    have hsplit : Segment.splitUri (name.chars ++ rest) =
        ('{' :: (uri ++ ['}']), localPart ++ rest) := by
      rw [hchars, List.cons_append, List.append_assoc, List.cons_append, Segment.splitUri,
        splitAtFirst?_append huri]
    rw [Segment.scanName?_of_splitUri hsplit (localPartFault?_eq_none_iff.mp hfault).1 hplain hrest,
      hchars, List.cons_append, List.append_assoc, List.singleton_append]
  · exact Segment.scanName?_append hne hplain hhead hrest

/-- Steps that stay and climb are no names. -/
theorem chars_ne_dots (name : WrittenName r) : name.chars ≠ ['.'] ∧ name.chars ≠ ['.', '.'] := by
  obtain ⟨cs, hform, name, hread⟩ := name
  constructor <;> rintro rfl <;> cases hread

/-- The text of a name does not start with a slash. -/
theorem exists_chars_eq_cons (name : WrittenName r) : ∃ c cs, name.chars = c :: cs ∧ c ≠ '/' := by
  obtain ⟨uri, localPart, hchars, -⟩ | ⟨hne, hplain, -⟩ := name.chars_cases
  · exact ⟨_, _, hchars, by decide⟩
  · obtain ⟨c, cs, hcs⟩ := List.exists_cons_of_ne_nil hne
    refine ⟨c, cs, hcs, ?_⟩
    rintro rfl
    exact absurd (hplain '/' (hcs ▸ List.mem_cons_self)) (by decide)

/-- The text of a name is read as a step to a child. -/
theorem read_eq (name : WrittenName r) {index : UInt32} (h : 1 ≤ index) :
    Segment.read r (.named name.chars index) = .ok (.named name.name index) := by
  rw [Segment.read, name.readName_eq, ← Step.child_of_one_le name.name h]
  rfl

/-- What is read as a step to a child is the text of a name. -/
theorem exists_of_read {cs : List Char} {index : UInt32} {step : Step} (hform : IsNameForm cs)
    (h : 1 ≤ index) (hread : Segment.read r (.named cs index) = .ok step) :
    ∃ name : WrittenName r, name.chars = cs ∧ .named name.name index = step := by
  simp only [Segment.read, bind_eq_ok_iff, pure_eq_ok_iff] at hread
  obtain ⟨name, hname, rfl⟩ := hread
  exact ⟨⟨cs, hform, name, hname⟩, rfl, (Step.child_of_one_le name h).symm⟩

end WrittenName

/-! ## Indexes -/

/-- The text is at its end or goes on with a slash. -/
def EndsSegment (rest : List Char) : Prop := ∀ c ∈ rest.head?, c = '/'

/-- The digits of an index: a number that is not zero and fits 32 bits. -/
abbrev WrittenIndex : Type :=
  { digits : List Char // digits ≠ [] ∧ (∀ c ∈ digits, isDigit c = true) ∧
    1 ≤ ofDigits digits ∧ ofDigits digits < 2 ^ 32 }

/-- The number that is written. -/
def WrittenIndex.number (index : WrittenIndex) : UInt32 := .ofNat (ofDigits index.1)

theorem WrittenIndex.one_le_number (index : WrittenIndex) : 1 ≤ index.number := by
  obtain ⟨digits, -, -, hpos, hlt⟩ := index
  rw [number, UInt32.le_iff_toNat_le, UInt32.toNat_ofNat', Nat.mod_eq_of_lt hlt]
  exact hpos

/-- An index is split off and read. -/
theorem WrittenIndex.scanIndex?_chars (index : WrittenIndex) (rest : List Char) :
    Segment.scanIndex? ('[' :: (index.1 ++ ']' :: rest)) = some (index.number, rest) := by
  obtain ⟨digits, hne, hdigits, hpos, hlt⟩ := index
  have hrest : ∀ c ∈ (']' :: rest).head?, isDigit c = false := by
    intro c hc
    obtain rfl : ']' = c := by simpa using hc
    decide
  rw [Segment.scanIndex?, takeWhile_append_run hdigits hrest, dropWhile_append_run hdigits hrest]
  have hdigits : digits ≠ [] ∧ ofDigits digits < Nat.pow 2 32 := ⟨hne, hlt⟩
  exact if_pos hdigits

theorem WrittenIndex.number_ne_zero (index : WrittenIndex) : index.number ≠ 0 := by
  intro hzero
  have hpos := index.one_le_number
  rw [hzero] at hpos
  exact absurd hpos (by decide)

/-- The text of an index there may be. -/
def WrittenIndex.optionChars : Option WrittenIndex → List Char
  | none => []
  | some index => '[' :: (index.1 ++ [']'])

/-- A name ends where an index or nothing follows it. -/
theorem WrittenIndex.isPlain_head?_optionChars (index : Option WrittenIndex) {rest : List Char}
    (h : EndsSegment rest) : ∀ c ∈ (optionChars index ++ rest).head?, Segment.isPlain c = false := by
  intro c hc
  cases index with
  | none =>
    rw [h c hc]
    rfl
  | some index =>
    obtain rfl : '[' = c := by simpa [optionChars] using hc
    rfl

/-- An index is known from the text it stands in front of, and so is that there is none. -/
theorem WrittenIndex.optionChars_append_cancel {index index' : Option WrittenIndex} {u v : List Char}
    (hu : EndsSegment u) (hv : EndsSegment v) (h : optionChars index ++ u = optionChars index' ++ v) :
    index = index' ∧ u = v := by
  -- a bracket cannot be the start of what follows a segment, so an index is there or is not
  have hbracket : ∀ {rest : List Char} (cs : List Char), EndsSegment rest → '[' :: cs ≠ rest := by
    rintro _ cs hrest rfl
    exact absurd (hrest '[' rfl) (by decide)
  have hdigits : ∀ index : WrittenIndex, ']' ∉ index.1 := fun index hc =>
    absurd (index.2.2.1 _ hc) (by decide)
  cases index with
  | none =>
    cases index' with
    | none => exact ⟨rfl, h⟩
    | some index' => exact absurd h.symm (hbracket _ hu)
  | some index =>
    cases index' with
    | none => exact absurd h (hbracket _ hv)
    | some index' =>
      simp only [optionChars, List.cons_append, List.append_assoc, List.cons.injEq, true_and] at h
      obtain ⟨heq, huv⟩ := append_separator_cancel (hdigits index) (hdigits index') h
      exact ⟨congrArg some (Subtype.ext heq), huv⟩

/-- What is split off as an index is one, unless it is zero. -/
theorem exists_index_of_scanIndex? {cs rest : List Char} {number : UInt32}
    (h : Segment.scanIndex? cs = some (number, rest)) (hzero : number ≠ 0) :
    ∃ index : WrittenIndex, cs = '[' :: (index.1 ++ ']' :: rest) ∧ index.number = number := by
  unfold Segment.scanIndex? at h
  split at h
  · next tail =>
    split at h
    · next after hafter =>
      split at h
      -- digits that fit 32 bits, and are not all zero
      · next hdigits =>
        obtain ⟨rfl, rfl⟩ := Prod.mk.inj (Option.some.inj h)
        rw [Nat.pow_eq] at hdigits
        have hpos : ofDigits (tail.takeWhile isDigit) ≠ 0 := fun heq => hzero (by rw [heq]; rfl)
        refine ⟨⟨tail.takeWhile isDigit, hdigits.1, fun c hc => List.mem_takeWhile_imp hc,
          Nat.pos_of_ne_zero hpos, hdigits.2⟩, ?_, rfl⟩
        rw [← hafter, List.takeWhile_append_dropWhile]
      · cases h
    · cases h
  · cases h

namespace Segment

/-- Where no bracket opens, there is no index. -/
theorem scanIndex?_eq_none {rest : List Char} (h : rest.head? ≠ some '[') :
    scanIndex? rest = none := by
  unfold scanIndex?
  split
  · exact absurd rfl h
  · rfl

/-- A name text without an index is a step of dots or a name counted first. -/
theorem scan?_of_scanIndex?_none {cs name rest : List Char}
    (hname : scanName? cs = some (name, rest)) (hindex : scanIndex? rest = none) :
    scan? cs = some (if name = ['.'] then current else if name = ['.', '.'] then parent
      else named name 1, rest) := by
  simp only [scan?, hname, hindex]
  split
  · rfl
  · split <;> rfl

/-- A name text with an index is a name. -/
theorem scan?_of_scanIndex?_some {cs name rest after : List Char} {index : UInt32}
    (hname : scanName? cs = some (name, rest)) (hindex : scanIndex? rest = some (index, after)) :
    scan? cs = some (named name index, after) := by
  simp only [scan?, hname, hindex]

end Segment

/-! ## Segments -/

/-- A segment as it is written. -/
inductive WrittenSegment (r : Registry)
  | current
  | parent
  | named (name : WrittenName r) (index : Option WrittenIndex)

namespace WrittenSegment

/-- The text in front of the index: that of a name, or dots. -/
def nameChars : WrittenSegment r → List Char
  | current => ['.']
  | parent => ['.', '.']
  | named name _ => name.chars

/-- The index, if there is one. -/
def index? : WrittenSegment r → Option WrittenIndex
  | named _ index => index
  | _ => none

/-- The text of a segment. -/
def chars (segment : WrittenSegment r) : List Char :=
  segment.nameChars ++ WrittenIndex.optionChars segment.index?

/-- The step that is written. Without an index it counts one. -/
def step : WrittenSegment r → Step
  | current => .current
  | parent => .parent
  | named name index => .named name.name ((index.map WrittenIndex.number).getD 1)

theorem chars_named_none (name : WrittenName r) : (named name none).chars = name.chars :=
  List.append_nil _

theorem chars_named_some (name : WrittenName r) (index : WrittenIndex) :
    (named name (some index)).chars = name.chars ++ '[' :: (index.1 ++ [']']) := rfl

/-- The text of a segment does not start with a slash. -/
theorem exists_chars_eq_cons (segment : WrittenSegment r) :
    ∃ c cs, segment.chars = c :: cs ∧ c ≠ '/' := by
  cases segment with
  | current => exact ⟨'.', [], rfl, by decide⟩
  | parent => exact ⟨'.', ['.'], rfl, by decide⟩
  | named name index =>
    obtain ⟨c, cs, hcs, hc⟩ := name.exists_chars_eq_cons
    exact ⟨c, _, by rw [chars, nameChars, hcs, List.cons_append], hc⟩

/-- What stands in front of the index is split off as a name. -/
theorem scanName?_chars (segment : WrittenSegment r) {rest : List Char} (h : EndsSegment rest) :
    Segment.scanName? (segment.chars ++ rest) =
      some (segment.nameChars, WrittenIndex.optionChars segment.index? ++ rest) := by
  have hindex := WrittenIndex.isPlain_head?_optionChars segment.index? h
  rw [chars, List.append_assoc]
  cases segment with
  | current | parent =>
    exact Segment.scanName?_append (by simp [nameChars]) (by simp [nameChars, Segment.isPlain])
      (by simp [nameChars]) hindex
  | named name index => exact name.scanName?_chars hindex

/-- A segment is made of its name and its index. -/
theorem eq_of_nameChars_eq {segment segment' : WrittenSegment r}
    (hname : segment.nameChars = segment'.nameChars) (hindex : segment.index? = segment'.index?) :
    segment = segment' := by
  cases segment <;> cases segment'
  case current.current => rfl
  case parent.parent => rfl
  case named.named name index name' index' =>
    rw [WrittenName.chars_injective hname]
    exact congrArg _ hindex
  case current.parent => cases hname
  case parent.current => cases hname
  -- no name is written as dots
  case current.named name _ => exact absurd hname.symm name.chars_ne_dots.1
  case parent.named name _ => exact absurd hname.symm name.chars_ne_dots.2
  case named.current name _ => exact absurd hname name.chars_ne_dots.1
  case named.parent name _ => exact absurd hname name.chars_ne_dots.2

/-- A segment is known from the text it stands in front of. -/
theorem chars_append_cancel {segment segment' : WrittenSegment r} {u v : List Char}
    (hu : EndsSegment u) (hv : EndsSegment v) (h : segment.chars ++ u = segment'.chars ++ v) :
    segment = segment' ∧ u = v := by
  have hscan := segment.scanName?_chars hu
  rw [h, segment'.scanName?_chars hv, Option.some.injEq, Prod.mk.injEq] at hscan
  obtain ⟨hindex, huv⟩ := WrittenIndex.optionChars_append_cancel hu hv hscan.2.symm
  exact ⟨eq_of_nameChars_eq hscan.1.symm hindex, huv⟩

/-- A segment is split off from its text and read as its step. -/
theorem exists_scan?_chars (segment : WrittenSegment r) {rest : List Char} (h : EndsSegment rest) :
    ∃ scanned, Segment.scan? (segment.chars ++ rest) = some (scanned, rest) ∧
      scanned.hasZeroIndex = false ∧ scanned.read r = .ok segment.step := by
  have hname := segment.scanName?_chars h
  have hnone : Segment.scanIndex? rest = none :=
    Segment.scanIndex?_eq_none fun hbracket => absurd (h _ hbracket) (by decide)
  -- what follows is no index, so only a written one is scanned
  rcases segment with _ | _ | ⟨name, _ | index⟩
  · exact ⟨.current, Segment.scan?_of_scanIndex?_none hname hnone, rfl, rfl⟩
  · exact ⟨.parent, Segment.scan?_of_scanIndex?_none hname hnone, rfl, rfl⟩
  · have hscan := Segment.scan?_of_scanIndex?_none hname hnone
    rw [nameChars, if_neg name.chars_ne_dots.1, if_neg name.chars_ne_dots.2] at hscan
    exact ⟨_, hscan, rfl, name.read_eq (UInt32.le_refl 1)⟩
  · have hindex : Segment.scanIndex? (WrittenIndex.optionChars (some index) ++ rest) =
        some (index.number, rest) := by
      rw [WrittenIndex.optionChars, List.cons_append, List.append_assoc]
      exact index.scanIndex?_chars rest
    refine ⟨_, Segment.scan?_of_scanIndex?_some hname hindex, ?_, name.read_eq index.one_le_number⟩
    exact beq_eq_false_iff_ne.mpr index.number_ne_zero

end WrittenSegment

/-- What is split off and read as a step is the text of a segment with this step. -/
theorem exists_writtenSegment_of_scan? {cs rest : List Char} {scanned : Segment} {step : Step}
    (hscan : Segment.scan? cs = some (scanned, rest)) (hzero : scanned.hasZeroIndex = false)
    (hread : scanned.read r = .ok step) :
    ∃ segment : WrittenSegment r, cs = segment.chars ++ rest ∧ segment.step = step := by
  unfold Segment.scan? at hscan
  split at hscan
  · cases hscan
  · next chars behind hname =>
    obtain ⟨rfl, hform⟩ := Segment.isNameForm_of_scanName? hname
    split at hscan
    -- with an index even dots are a name
    · next number after hindex =>
      obtain ⟨rfl, rfl⟩ := Prod.mk.inj (Option.some.inj hscan)
      obtain ⟨index, rfl, rfl⟩ :=
        exists_index_of_scanIndex? hindex (beq_eq_false_iff_ne.mp hzero)
      obtain ⟨name, rfl, rfl⟩ := WrittenName.exists_of_read hform index.one_le_number hread
      exact ⟨.named name (some index), by simp [WrittenSegment.chars_named_some], rfl⟩
    · split at hscan
      -- without one they are steps of their own
      · next hdot =>
        obtain ⟨rfl, rfl⟩ := Prod.mk.inj (Option.some.inj hscan)
        exact ⟨.current, hdot ▸ rfl, Except.ok.inj hread⟩
      · split at hscan
        · next hdots =>
          obtain ⟨rfl, rfl⟩ := Prod.mk.inj (Option.some.inj hscan)
          exact ⟨.parent, hdots ▸ rfl, Except.ok.inj hread⟩
        · obtain ⟨rfl, rfl⟩ := Prod.mk.inj (Option.some.inj hscan)
          obtain ⟨name, rfl, rfl⟩ := WrittenName.exists_of_read hform (UInt32.le_refl 1) hread
          exact ⟨.named name none, by rw [WrittenSegment.chars_named_none], rfl⟩

end ContentQuery.Naming
