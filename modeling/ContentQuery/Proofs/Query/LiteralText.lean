import ContentQuery.Proofs.Naming.PathRoundTrip
import ContentQuery.Proofs.Number.DoubleText
import ContentQuery.Proofs.Query.OperandText
import ContentQuery.Proofs.Text.Utf8
import ContentQuery.Proofs.Time.WrittenAlike

/-! # Literals of one type

A literal wraps the text of its value in the way of its type, so it tells the value exactly if the text
does. Most types have texts that tell their values: strings and references are their own texts, numbers
read back, and names and paths are told apart by their prefixed forms. Two types have not. Binaries are
written as the UTF-8 that they are read as, in which all bytes that are no text look alike; and dates are
written with the minutes nearest to their offsets.
-/

namespace ContentQuery

open Naming Number Text Time

/-- The value is finite if it is a double, and legal if it is a name or a path. -/
def Value.IsProper : Value → Prop
  | .name n => n.IsLegal
  | .path p => p.IsLegal
  | .double x => x.isFinite = true
  | .string _ | .long _ | .boolean _ | .date _ | .binary _ | .reference _ => True

/-- Whether a value has a text of its own: a binary has no mark in its text, and a date is an outermost
one. -/
def Value.IsTold : Value → Prop
  | .binary bytes => replacement ∉ (readUtf8 bytes).toList
  | .date t => t.IsOutermost
  | .string _ | .long _ | .double _ | .boolean _ | .name _ | .path _ | .reference _ => True

/-- Proper values whose text is exact are legal. -/
theorem Value.IsProper.isLegal {v : Value} (h : v.IsProper)
    (hexact : v.type ∉ [.double, .date, .binary]) : v.IsLegal := by
  cases v with
  | double | date | binary => simp [type] at hexact
  | string | long | boolean | name | path | reference => exact h

theorem Value.exists_binary {v : Value} (h : v.type = .binary) : ∃ bytes, v = .binary bytes := by
  cases v with
  | binary bytes => exact ⟨bytes, rfl⟩
  | string | long | double | boolean | date | name | path | reference => simp [type] at h

theorem Value.exists_date {v : Value} (h : v.type = .date) : ∃ t, v = .date t := by
  cases v with
  | date t => exact ⟨t, rfl⟩
  | string | long | double | boolean | binary | name | path | reference => simp [type] at h

namespace Statement

/-! ## Around the text -/

/-- The literal of a type around the text of a value. -/
def literalForm : PropertyType → String → String
  | .string, text => quote text
  | .long, text | .double, text => text
  | type, text => castText text type

/-- Quoted texts tell the texts in them. -/
theorem quote_injective : Function.Injective quote := by
  intro x y h
  exact (quote_append_cancel ends_nil ends_nil (by rw [h])).1

theorem castText_injective (type : PropertyType) : Function.Injective (castText · type) := by
  intro x y h
  have hcasts : castText x type = castText y type := h
  exact (castText_append_cancel (u := []) (v := []) (by rw [hcasts])).1

/-- Whatever its type, a literal tells the text that it is put around. -/
theorem literalForm_injective (type : PropertyType) : Function.Injective (literalForm type) := by
  cases type with
  | string => exact quote_injective
  | long | double => exact Function.injective_id
  | boolean | date | binary | name | path | reference => exact castText_injective _

variable {names : Registry}

/-- A literal is written if its value has a text, around which it is put. -/
theorem literalText_eq_ok_iff {v : Value} {t : String} :
    literalText names v = .ok t ↔ ∃ x, v.lexical names = .ok x ∧ literalForm v.type x = t := by
  cases v with
  | string | long | double => simp [literalText, literalForm, Value.lexical, Value.lexicalForm?,
      Value.type]
  | boolean | date | binary | name | path | reference =>
    simp only [literalText, literalForm, Value.type, bind_eq_ok_iff, pure_eq_ok_iff]

/-- Values of one type that are written the same have one text. -/
theorem exists_lexical_of_literalText {v w : Value} (htype : w.type = v.type) {t : String}
    (hv : literalText names v = .ok t) (hw : literalText names w = .ok t) :
    ∃ x, v.lexical names = .ok x ∧ w.lexical names = .ok x := by
  obtain ⟨x, hx, rfl⟩ := literalText_eq_ok_iff.mp hv
  obtain ⟨y, hy, hform⟩ := literalText_eq_ok_iff.mp hw
  rw [htype] at hform
  exact ⟨x, hx, literalForm_injective _ hform ▸ hy⟩

/-- Literals around texts are the same exactly if the texts are. -/
theorem castText_eq_iff {type : PropertyType} {x y : String} :
    (Except.ok (castText x type) : Except ResolveError String) = .ok (castText y type) ↔ x = y := by
  rw [Except.ok.injEq, (castText_injective type).eq_iff]

/-! ## The text of a value -/

section Lexical

variable (hp : names.Paired) (hr : names.PrefixesAvoid ['/', '[', ']'])
include hp hr

/-- Proper values of one type are told apart by their texts, if they are no binaries and no dates. -/
theorem proper_eq_of_lexical {v w : Value} (hv : v.IsProper) (hw : w.IsProper)
    (htype : w.type = v.type) (hexact : v.type ∉ [.binary, .date]) {x : String}
    (hvx : v.lexical names = .ok x) (hwx : w.lexical names = .ok x) : w = v := by
  cases v with
  | binary | date => simp [Value.type] at hexact
  | double a =>
    cases w <;> simp only [Value.type, reduceCtorEq] at htype
    next b =>
    have htext : b.text = a.text := Except.ok.inj (hwx.trans hvx.symm)
    have hread := Double.readDouble?_text hw
    rw [htext, Double.readDouble?_text hv, Option.some.injEq] at hread
    rw [hread]
  | string | long | boolean | name | path | reference =>
    have hlegal : w.IsLegal := hw.isLegal (by rw [htype]; simp [Value.type])
    exact value_eq_of_lexical hp hr hlegal hv htype hwx hvx

end Lexical

/-! ## Literals that tell their values -/

/-- A binary is told from its literal exactly if there is no mark in its text. -/
theorem literalText_binary_tells_iff (names : Registry) (bytes : List UInt8) :
    (∀ w : Value, w.IsProper → w.type = .binary →
      literalText names w = literalText names (.binary bytes) → w = .binary bytes) ↔
        replacement ∉ (readUtf8 bytes).toList := by
  rw [← readUtf8_determines_iff]
  constructor
  · intro htells bytes' htext
    exact Value.binary.inj (htells (.binary bytes') trivial rfl (castText_eq_iff.mpr htext))
  · intro htells w _ htype hw
    obtain ⟨bytes', rfl⟩ := Value.exists_binary htype
    rw [htells bytes' (castText_eq_iff.mp hw)]

/-- A date is told from its literal exactly if it is an outermost one. -/
theorem literalText_date_tells_iff (names : Registry) (t : DateTime) :
    (∀ w : Value, w.IsProper → w.type = .date →
      literalText names w = literalText names (.date t) → w = .date t) ↔ t.IsOutermost := by
  rw [← text_tells_iff]
  constructor
  · intro htells t' htext
    exact Value.date.inj (htells (.date t') trivial rfl (castText_eq_iff.mpr htext))
  · intro htells w _ htype hw
    obtain ⟨t', rfl⟩ := Value.exists_date htype
    rw [htells t' (castText_eq_iff.mp hw)]

/-- **What a literal tells of its value**, whatever prefixes without slashes and brackets have been
registered. No other proper value of the type is written the same, exactly if the value is no binary with
a mark in its text and no date but an outermost one. Of the dates that the library itself makes, though,
no two are written the same; and no two dates of one instant are, so it makes no difference whether dates
are told apart by their clocks or by their instants. -/
theorem literalText_determines_iff (calls : List (String × String))
    (hr : (Registry.standard.registerAll calls).PrefixesAvoid ['/', '[', ']']) {v : Value}
    (hv : v.IsProper) {text : String}
    (htext : literalText (Registry.standard.registerAll calls) v = .ok text) :
    ((∀ w : Value, w.IsProper → w.type = v.type →
        literalText (Registry.standard.registerAll calls) w = .ok text → w = v) ↔ v.IsTold) ∧
      ∀ t t' : DateTime, v = .date t →
        literalText (Registry.standard.registerAll calls) (.date t') = .ok text →
          (t.IsMade ∧ t'.IsMade) ∨ t'.compareInstant t = .eq → t' = t := by
  constructor
  · rw [← htext]
    cases hvalue : v with
    | binary bytes => exact literalText_binary_tells_iff _ bytes
    | date t => exact literalText_date_tells_iff _ t
    -- all other types have texts that tell their values
    | string | long | double | boolean | name | path | reference =>
      rw [← hvalue]
      have hp := Registry.paired_registerAll_standard calls
      refine iff_of_true (fun w hw htype hwv => ?_) (by rw [hvalue]; trivial)
      obtain ⟨x, hvx, hwx⟩ := exists_lexical_of_literalText htype htext (hwv.trans htext)
      exact proper_eq_of_lexical hp hr hv hw htype (by simp [hvalue, Value.type]) hvx hwx
  · rintro t t' rfl htext' hsame
    have hdates : t'.text = t.text := castText_eq_iff.mp (htext'.trans htext.symm)
    rcases hsame with ⟨hmade, hmade'⟩ | hinstant
    · exact hmade.eq_of_text_eq hmade' hdates
    · exact eq_of_text_eq_of_instant_eq hdates hinstant

/-- The two bytes of an accented letter are told from all other binaries. An hour past the epoch, as a
clock an hour east shows it, is told from all other dates that the library makes, but not from all. -/
theorem literalText_determines_iff_accented :
    let past : DateTime := ⟨⟨1970, 1, 1, 2, 0, 0, 0, 3600⟩, by decide⟩
    Registry.standard.PrefixesAvoid ['/', '[', ']'] ∧ (Value.binary [0xC3, 0xA9]).IsProper ∧
      literalText .standard (.binary [0xC3, 0xA9]) = .ok "CAST('é' AS BINARY)" ∧
      (∀ w : Value, w.IsProper → w.type = .binary →
        literalText .standard w = .ok "CAST('é' AS BINARY)" → w = .binary [0xC3, 0xA9]) ∧
      (Value.date past).IsProper ∧ past.IsMade ∧
      literalText .standard (.date past) = .ok "CAST('1970-01-01T02:00:00+01:00' AS DATE)" ∧
      (∀ t' : DateTime, t'.IsMade → literalText .standard (.date t') =
        .ok "CAST('1970-01-01T02:00:00+01:00' AS DATE)" → t' = past) ∧
      ¬ ∀ w : Value, w.IsProper → w.type = .date → literalText .standard w =
        .ok "CAST('1970-01-01T02:00:00+01:00' AS DATE)" → w = .date past := by
  intro past
  have hr : Registry.standard.PrefixesAvoid ['/', '[', ']'] :=
    Registry.prefixesAvoid_standard.mono (by simp)
  have hbinary : literalText .standard (.binary [0xC3, 0xA9]) = .ok "CAST('é' AS BINARY)" := by
    decide +kernel
  have htold : (Value.binary [0xC3, 0xA9]).IsTold := by
    show replacement ∉ (readUtf8 [0xC3, 0xA9]).toList
    decide +kernel
  have hdate : literalText .standard (.date past) =
      .ok "CAST('1970-01-01T02:00:00+01:00' AS DATE)" := by decide +kernel
  have hmade : past.IsMade := .inl ⟨"1970-01-01T02:00:00+01:00", by decide +kernel⟩
  have hinner : ¬ (Value.date past).IsTold := by
    rintro (⟨hfirst, -⟩ | ⟨hlast, -⟩)
    · exact absurd hfirst (by decide)
    · exact absurd hlast (by decide)
  have hbinaries := literalText_determines_iff [] hr (v := .binary [0xC3, 0xA9]) trivial hbinary
  have hdates := literalText_determines_iff [] hr (v := .date past) trivial hdate
  exact ⟨hr, trivial, hbinary, hbinaries.1.mpr htold, trivial, hmade, hdate,
    fun t' hmade' htext' => hdates.2 past t' rfl htext' (.inl ⟨hmade, hmade'⟩),
    fun htells => hinner (hdates.1.mp htells)⟩

/-- A byte that starts no character is written like the UTF-8 of U+FFFD, and an offset of an hour and a
quarter of a minute like one of an hour. -/
theorem literalText_merges_values :
    let hour : DateTime := ⟨⟨1970, 1, 1, 2, 0, 0, 0, 3600⟩, by decide⟩
    let longer : DateTime := ⟨⟨1970, 1, 1, 2, 0, 0, 0, 3615⟩, by decide⟩
    Registry.standard.PrefixesAvoid ['/', '[', ']'] ∧
      ((Value.binary [0xFF]).IsProper ∧ (Value.binary [0xEF, 0xBF, 0xBD]).IsProper ∧
        (Value.binary [0xFF]).type = (Value.binary [0xEF, 0xBF, 0xBD]).type ∧
        literalText .standard (.binary [0xFF]) = .ok "CAST('\ufffd' AS BINARY)" ∧
        literalText .standard (.binary [0xEF, 0xBF, 0xBD]) = .ok "CAST('\ufffd' AS BINARY)" ∧
        Value.binary [0xFF] ≠ .binary [0xEF, 0xBF, 0xBD]) ∧
      (Value.date hour).IsProper ∧ (Value.date longer).IsProper ∧
        (Value.date hour).type = (Value.date longer).type ∧
        literalText .standard (.date hour) = .ok "CAST('1970-01-01T02:00:00+01:00' AS DATE)" ∧
        literalText .standard (.date longer) = .ok "CAST('1970-01-01T02:00:00+01:00' AS DATE)" ∧
        hour.compareInstant longer = .gt := by
  intro hour longer
  refine ⟨Registry.prefixesAvoid_standard.mono (by simp), ⟨trivial, trivial, rfl, ?_, ?_, by simp⟩,
    trivial, trivial, rfl, ?_, ?_, ?_⟩ <;> decide +kernel

end Statement

end ContentQuery
