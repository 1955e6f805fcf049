import ContentQuery.Proofs.Time.DateText

/-! # Dates that are written alike

A text rounds the offset to minutes and writes a leap second as one second more. So two dates have one
text exactly if they agree up to the minute, their seconds are written alike, and so are their offsets.
Nearly every date shares its text with others: that with an offset one second longer or shorter, or the
second after a leap second. Only where the others would lie in front of the calendar or behind it does
a date have a text of its own.

A date that the library itself makes has an offset in whole minutes and leap seconds only at the end of a
minute. Nothing of it is rounded, so among themselves such dates are told apart by their texts.
-/

namespace ContentQuery.Time

open DateTime Number Text

variable {t t' : DateTime} {r : Reading}

/-! ## Bounds -/

/-- A second, and the nanoseconds of it or of the leap second behind it. -/
theorem DateTime.second_lt (t : DateTime) : t.reading.second < 60 ∧ t.reading.nanosecond < 2000000000 :=
  t.valid.2.2.1.2.2

/-- Offsets lie within a day. -/
theorem DateTime.offset_bounds (t : DateTime) : -86400 < t.reading.offset ∧ t.reading.offset < 86400 :=
  t.valid.2.2.2.1

/-- Every date lies in the calendar. -/
theorem DateTime.seconds_bounds (t : DateTime) :
    secondRange.1 ≤ t.seconds ∧ t.seconds ≤ secondRange.2 :=
  t.valid.2.2.2.2

/-- A date is what its clock reading says. -/
theorem DateTime.eq_of_reading_eq (h : t'.reading = t.reading) : t' = t := by
  obtain ⟨reading, valid⟩ := t
  cases h
  rfl

/-! ## What a text keeps -/

/-- What is written for a second is written for what it reads back as. -/
theorem writtenSecond_asWritten (h : r.second < 60 ∧ r.nanosecond < 2000000000) :
    writtenSecond r.asWritten = writtenSecond r := by
  obtain ⟨hsecond, hnanosecond⟩ := h
  by_cases hleap : 1000000000 ≤ r.nanosecond
  · by_cases hlast : r.second = 59
    · simp [writtenSecond, Reading.asWritten, Reading.isLeap, secondOf, hleap, hlast]
    · have hnext : r.second + 1 ≠ 60 := by omega
      have hrest : ¬ 1000000000 ≤ r.nanosecond - 1000000000 := by omega
      simp [writtenSecond, Reading.asWritten, Reading.isLeap, secondOf, hleap, hnext, hrest]
  · simp [writtenSecond, Reading.asWritten, Reading.isLeap, secondOf, hleap, hsecond.ne]

/-- A text tells the reading that it gives. -/
theorem asWritten_eq_of_text_eq (h : t'.text = t.text) :
    t'.reading.asWritten = t.reading.asWritten := by
  have hread := readFields?_text t.valid
  have hread' := readFields?_text t'.valid
  rw [show DateTime.text ⟨t.reading, t.valid⟩ = DateTime.text ⟨t'.reading, t'.valid⟩ from h.symm,
    hread'] at hread
  exact congrArg Prod.fst (Option.some.inj hread)

/-- What is written for two seconds is the same for one second, or for a leap second and the second
after it. -/
theorem writtenSecond_eq_iff {r r' : Reading} (h : r.nanosecond < 2000000000)
    (h' : r'.nanosecond < 2000000000) : writtenSecond r' = writtenSecond r ↔
      (r'.second = r.second ∧ r'.nanosecond = r.nanosecond) ∨
      (r'.second = r.second + 1 ∧ r'.nanosecond + 1000000000 = r.nanosecond) ∨
      (r'.second + 1 = r.second ∧ r'.nanosecond = r.nanosecond + 1000000000) := by
  unfold writtenSecond Reading.isLeap
  by_cases hleap : 1000000000 ≤ r.nanosecond <;> by_cases hleap' : 1000000000 ≤ r'.nanosecond <;>
    simp only [hleap, hleap', decide_true, decide_false, if_true, Bool.false_eq_true, if_false,
      Prod.mk.injEq] <;> omega

/-- Offsets are written alike that have one sign and round to the same minutes. -/
theorem offsetText_eq_iff {o o' : ℤ} (h : -86400 < o ∧ o < 86400) (h' : -86400 < o' ∧ o' < 86400) :
    offsetText o' = offsetText o ↔ (o' < 0 ↔ o < 0) ∧ roundedMinutes o' = roundedMinutes o := by
  constructor
  · intro htext
    have hchars := congrArg String.toList htext
    have hsign : o' < 0 ↔ o < 0 := by
      rw [toList_offsetText, toList_offsetText] at hchars
      have hhead := (List.cons.inj hchars).1
      by_cases hwest : o < 0 <;> by_cases hwest' : o' < 0 <;> simp [hwest, hwest'] at hhead ⊢
    -- reading a text back gives the rounded minutes
    have hread := takes_offsetText h []
    rw [← hchars, takes_offsetText h' []] at hread
    have hrounded : roundedOffset o' = roundedOffset o := congrArg Prod.fst (Option.some.inj hread)
    refine ⟨hsign, ?_⟩
    unfold roundedOffset at hrounded
    simp only [hsign] at hrounded
    split at hrounded <;> omega
  · rintro ⟨hsign, hminutes⟩
    unfold offsetText
    simp only [hsign, hminutes]

/-- Two dates have one text exactly if they agree up to the minute, and seconds and offsets are written
alike. -/
theorem text_eq_iff : t'.text = t.text ↔
    t'.reading = { t.reading with
      second := t'.reading.second
      nanosecond := t'.reading.nanosecond
      offset := t'.reading.offset } ∧
    writtenSecond t'.reading = writtenSecond t.reading ∧
    offsetText t'.reading.offset = offsetText t.reading.offset := by
  constructor
  · intro htext
    have hwritten := asWritten_eq_of_text_eq htext
    -- the text tells what is written of a date, up to the second
    have hsecond : writtenSecond t'.reading = writtenSecond t.reading := by
      rw [← writtenSecond_asWritten t'.second_lt, hwritten,
        writtenSecond_asWritten t.second_lt]
    simp only [Reading.asWritten, Reading.mk.injEq] at hwritten
    obtain ⟨hyear, hmonth, hday, hhour, hminute, -⟩ := hwritten
    have hreading : t'.reading = ⟨t.reading.year, t.reading.month, t.reading.day, t.reading.hour,
        t.reading.minute, t'.reading.second, t'.reading.nanosecond, t'.reading.offset⟩ := by
      rw [← hyear, ← hmonth, ← hday, ← hhour, ← hminute]
    refine ⟨hreading, hsecond, ?_⟩
    -- the offsets are what is left of two texts that start alike
    have hlocal : localText t'.reading = localText t.reading := by
      simp only [localText, hyear, hmonth, hday, hhour, hminute, hsecond]
    have hchars := congrArg String.toList htext
    rw [DateTime.text, DateTime.text, hlocal, String.toList_append, String.toList_append] at hchars
    exact String.toList_inj.mp (List.append_cancel_left hchars)
  · rintro ⟨hreading, hsecond, hoffset⟩
    have hlocal : localText t'.reading = localText t.reading := by
      unfold localText
      rw [hsecond, hreading]
    rw [DateTime.text, DateTime.text, hlocal, hoffset]

/-- Two dates that are written alike and mean one instant are one date. -/
theorem eq_of_text_eq_of_instant_eq (htext : t'.text = t.text)
    (hinstant : t'.compareInstant t = .eq) : t' = t := by
  obtain ⟨hreading, hwritten, -⟩ := text_eq_iff.mp htext
  have hmoved := (writtenSecond_eq_iff t.second_lt.2 t'.second_lt.2).mp hwritten
  rw [compareInstant, Ordering.then_eq_eq, compare_eq_iff_eq, compare_eq_iff_eq] at hinstant
  obtain ⟨hseconds, hsubsecond⟩ := hinstant
  have hnanosecond : t'.reading.nanosecond = t.reading.nanosecond := hsubsecond
  -- the nanoseconds tell a leap second from the second after it
  have hsecond : t'.reading.second = t.reading.second := by omega
  have hoffset : t'.reading.offset = t.reading.offset := by
    rw [DateTime.seconds, hreading] at hseconds
    simp only [Reading.seconds, DateTime.seconds] at hseconds
    omega
  refine eq_of_reading_eq ?_
  rw [hreading, hsecond, hnanosecond, hoffset]

/-! ## Dates with a text of their own -/

/-- Whether the other dates that are written alike would lie outside of the calendar: the date has the
first second of the calendar, with the least offset of those written alike, and no leap second, or it has
the last one, in a leap second and with the greatest offset. -/
def DateTime.IsOutermost (t : DateTime) : Prop :=
  (t.seconds = secondRange.1 ∧ t.reading.isLeap = false ∧
    ∀ o, -86400 < o → offsetText o = offsetText t.reading.offset → t.reading.offset ≤ o) ∨
  (t.seconds = secondRange.2 ∧ t.reading.isLeap = true ∧
    ∀ o < 86400, offsetText o = offsetText t.reading.offset → o ≤ t.reading.offset)

/-- Another second or another offset that is written alike gives another date, if that lies in the
calendar. -/
theorem exists_text_eq_of_moved {second nanosecond : ℕ} {offset : ℤ}
    (hne : second ≠ t.reading.second ∨ offset ≠ t.reading.offset) (hsecond : second < 60)
    (hnanosecond : nanosecond < 2000000000) (hoffset : -86400 < offset ∧ offset < 86400)
    (hwritten : writtenSecond { t.reading with second, nanosecond } = writtenSecond t.reading)
    (htext : offsetText offset = offsetText t.reading.offset)
    (hrange : secondRange.1 ≤ t.seconds + (second - t.reading.second) - (offset - t.reading.offset) ∧
      t.seconds + (second - t.reading.second) - (offset - t.reading.offset) ≤ secondRange.2) :
    ∃ t' : DateTime, t' ≠ t ∧ t'.text = t.text := by
  obtain ⟨hmonth, hday, ⟨hhour, hminute, -⟩, -, -⟩ := t.valid
  -- the instant moves with the second, and against the offset
  have hseconds : Reading.seconds { t.reading with second, nanosecond, offset } =
      t.seconds + (second - t.reading.second) - (offset - t.reading.offset) := by
    simp only [Reading.seconds, DateTime.seconds]
    ring
  have hvalid : Reading.Valid { t.reading with second, nanosecond, offset } :=
    ⟨hmonth, hday, ⟨hhour, hminute, hsecond, hnanosecond⟩, hoffset, by rwa [hseconds]⟩
  refine ⟨⟨_, hvalid⟩, fun heq => ?_, text_eq_iff.mpr ⟨rfl, hwritten, htext⟩⟩
  have hsame := congrArg (fun t => (t.reading.second, t.reading.offset)) heq
  rcases hne with hne | hne
  · exact hne (Prod.mk.inj hsame).1
  · exact hne (Prod.mk.inj hsame).2

/-- The date with another offset that is written alike. -/
theorem exists_text_eq_of_offset {offset : ℤ} (hne : offset ≠ t.reading.offset)
    (hoffset : -86400 < offset ∧ offset < 86400)
    (htext : offsetText offset = offsetText t.reading.offset)
    (hrange : secondRange.1 ≤ t.seconds - (offset - t.reading.offset) ∧
      t.seconds - (offset - t.reading.offset) ≤ secondRange.2) :
    ∃ t' : DateTime, t' ≠ t ∧ t'.text = t.text := by
  exact exists_text_eq_of_moved (.inr hne) t.second_lt.1 t.second_lt.2 hoffset rfl htext (by omega)

/-- The date with the second after a leap second, or the leap second in front of a second. -/
theorem exists_text_eq_of_second (second nanosecond : ℕ) (hsecond : second < 60)
    (hnanosecond : nanosecond < 2000000000)
    (hmove : (second = t.reading.second + 1 ∧ nanosecond + 1000000000 = t.reading.nanosecond) ∨
      (second + 1 = t.reading.second ∧ nanosecond = t.reading.nanosecond + 1000000000))
    (hrange : secondRange.1 ≤ t.seconds + (second - t.reading.second) ∧
      t.seconds + (second - t.reading.second) ≤ secondRange.2) :
    ∃ t' : DateTime, t' ≠ t ∧ t'.text = t.text := by
  have hwritten : writtenSecond { t.reading with second, nanosecond } = writtenSecond t.reading :=
    (writtenSecond_eq_iff t.second_lt.2 hnanosecond).mpr (.inr hmove)
  exact exists_text_eq_of_moved (.inl (by omega)) hsecond hnanosecond t.offset_bounds hwritten rfl
    (by omega)

/-- The offset one second longer or the one a second shorter is written alike. -/
theorem offsetText_eq_next_or_previous {o : ℤ} (h : -86400 < o ∧ o < 86400) :
    (o + 1 < 86400 ∧ offsetText (o + 1) = offsetText o) ∨
      (-86400 < o - 1 ∧ offsetText (o - 1) = offsetText o) := by
  by_cases hnext : o + 1 < 86400 ∧ (o + 1 < 0 ↔ o < 0) ∧ roundedMinutes (o + 1) = roundedMinutes o
  · exact .inl ⟨hnext.1, (offsetText_eq_iff h ⟨by omega, hnext.1⟩).mpr hnext.2⟩
  · unfold roundedMinutes at hnext
    have hprevious : -86400 < o - 1 ∧ (o - 1 < 0 ↔ o < 0) ∧
        roundedMinutes (o - 1) = roundedMinutes o := by
      unfold roundedMinutes
      omega
    exact .inr ⟨hprevious.1, (offsetText_eq_iff h ⟨hprevious.1, by omega⟩).mpr hprevious.2⟩

/-- What lies between two offsets that are written alike is written like them. -/
theorem offsetText_eq_of_between {o o' m : ℤ} (h : -86400 < o ∧ o < 86400)
    (h' : -86400 < o' ∧ o' < 86400) (hbetween : (o' ≤ m ∧ m ≤ o) ∨ (o ≤ m ∧ m ≤ o'))
    (htext : offsetText o' = offsetText o) : offsetText m = offsetText o := by
  have hsame := (offsetText_eq_iff h h').mp htext
  refine (offsetText_eq_iff h ⟨by omega, by omega⟩).mpr ?_
  unfold roundedMinutes at hsame ⊢
  omega

/-- Where the offset a second shorter is not written alike, no shorter one is. It is not one second short
of a full minute then. -/
theorem least_of_not_previous {o : ℤ} (h : -86400 < o ∧ o < 86400)
    (hnot : ¬ (-86400 < o - 1 ∧ offsetText (o - 1) = offsetText o)) :
    (∀ o', -86400 < o' → offsetText o' = offsetText o → o ≤ o') ∧ o % 60 ≠ 59 := by
  constructor
  · intro o' hlow htext
    by_contra hless
    exact hnot ⟨by omega,
      offsetText_eq_of_between h ⟨hlow, by omega⟩ (.inl ⟨by omega, by omega⟩) htext⟩
  · intro hshort
    have hbounds : -86400 < o - 1 ∧ o - 1 < 86400 := by omega
    refine hnot ⟨hbounds.1, (offsetText_eq_iff h hbounds).mpr ?_⟩
    unfold roundedMinutes
    omega

/-- Where the offset a second longer is not written alike, no longer one is. It is not one second past a
full minute then. -/
theorem greatest_of_not_next {o : ℤ} (h : -86400 < o ∧ o < 86400)
    (hnot : ¬ (o + 1 < 86400 ∧ offsetText (o + 1) = offsetText o)) :
    (∀ o' < 86400, offsetText o' = offsetText o → o' ≤ o) ∧ o % 60 ≠ 1 := by
  constructor
  · intro o' hhigh htext
    by_contra hmore
    exact hnot ⟨by omega,
      offsetText_eq_of_between h ⟨by omega, hhigh⟩ (.inr ⟨by omega, by omega⟩) htext⟩
  · intro hpast
    have hbounds : -86400 < o + 1 ∧ o + 1 < 86400 := by omega
    refine hnot ⟨hbounds.2, (offsetText_eq_iff h hbounds).mpr ?_⟩
    unfold roundedMinutes
    omega

/-- A date that is not outermost shares its text with another one. -/
theorem exists_text_eq (hinner : ¬ t.IsOutermost) : ∃ t' : DateTime, t' ≠ t ∧ t'.text = t.text := by
  have hsecond := t.second_lt
  have hoffset := t.offset_bounds
  have hrange := t.seconds_bounds
  have hseconds : t.seconds = dayNumber t.reading.year t.reading.month t.reading.day * 86400 +
    t.reading.hour * 3600 + t.reading.minute * 60 + t.reading.second - t.reading.offset := rfl
  have hranges : secondRange.1 % 60 = 0 ∧ secondRange.2 % 60 = 59 ∧
    secondRange.1 < secondRange.2 := by decide
  rw [DateTime.IsOutermost, not_or] at hinner
  by_cases hfirst : t.seconds = secondRange.1
  · by_cases hprevious : -86400 < t.reading.offset - 1 ∧
        offsetText (t.reading.offset - 1) = offsetText t.reading.offset
    · exact exists_text_eq_of_offset (by omega) ⟨hprevious.1, by omega⟩ hprevious.2 (by omega)
    · -- with the least offset only a leap second leaves another date, the second after it
      obtain ⟨hleast, hmod⟩ := least_of_not_previous hoffset hprevious
      have hleap : 1000000000 ≤ t.reading.nanosecond := by
        by_contra hno
        exact hinner.1 ⟨hfirst, by simpa [Reading.isLeap] using hno, hleast⟩
      exact exists_text_eq_of_second (t.reading.second + 1)
        (t.reading.nanosecond - 1000000000) (by omega) (by omega) (by omega) (by omega)
  · by_cases hlast : t.seconds = secondRange.2
    · by_cases hnext : t.reading.offset + 1 < 86400 ∧
          offsetText (t.reading.offset + 1) = offsetText t.reading.offset
      · exact exists_text_eq_of_offset (by omega) ⟨by omega, hnext.1⟩ hnext.2 (by omega)
      · -- with the greatest offset another date is left unless the second is a leap one
        obtain ⟨hgreatest, hmod⟩ := greatest_of_not_next hoffset hnext
        have hleap : ¬ 1000000000 ≤ t.reading.nanosecond := by
          intro hleap
          exact hinner.2 ⟨hlast, by simpa [Reading.isLeap] using hleap, hgreatest⟩
        exact exists_text_eq_of_second (t.reading.second - 1)
          (t.reading.nanosecond + 1000000000) (by omega) (by omega) (by omega) (by omega)
    · rcases offsetText_eq_next_or_previous hoffset with ⟨hbound, htext⟩ | ⟨hbound, htext⟩
      · exact exists_text_eq_of_offset (by omega) ⟨by omega, hbound⟩ htext (by omega)
      · exact exists_text_eq_of_offset (by omega) ⟨hbound, by omega⟩ htext (by omega)

/-- An outermost date has a text of its own. -/
theorem DateTime.IsOutermost.eq_of_text_eq (hout : t.IsOutermost) (htext : t'.text = t.text) :
    t' = t := by
  obtain ⟨hreading, hwritten, hoffset⟩ := text_eq_iff.mp htext
  have hmoved := (writtenSecond_eq_iff t.second_lt.2 t'.second_lt.2).mp hwritten
  have hseconds : t'.seconds = t.seconds + (t'.reading.second - t.reading.second) -
      (t'.reading.offset - t.reading.offset) := by
    rw [DateTime.seconds, hreading]
    simp only [Reading.seconds, DateTime.seconds]
    ring
  have hrange := t'.seconds_bounds
  have hsecond := t.second_lt
  have hsecond' := t'.second_lt
  have hsame : t'.reading.second = t.reading.second ∧ t'.reading.nanosecond = t.reading.nanosecond ∧
      t'.reading.offset = t.reading.offset := by
    rcases hout with ⟨hfirst, hleap, hleast⟩ | ⟨hlast, hleap, hgreatest⟩
    · -- the other one is not earlier, so its second is not less and its offset not greater
      have hless := hleast _ t'.offset_bounds.1 hoffset
      rw [Reading.isLeap, decide_eq_false_iff_not] at hleap
      omega
    · have hmore := hgreatest _ t'.offset_bounds.2 hoffset
      rw [Reading.isLeap, decide_eq_true_iff] at hleap
      omega
  refine eq_of_reading_eq ?_
  rw [hreading, hsame.1, hsame.2.1, hsame.2.2]

/-- The dates with a text of their own are the outermost ones. -/
theorem text_tells_iff : (∀ t' : DateTime, t'.text = t.text → t' = t) ↔ t.IsOutermost := by
  constructor
  · intro htells
    by_contra hinner
    obtain ⟨t', hne, htext⟩ := exists_text_eq hinner
    exact hne (htells t' htext)
  · exact fun hout t' => hout.eq_of_text_eq

/-! ## Dates that the library makes -/

/-- The date is read from a text, in either notation, or counted in milliseconds. -/
def DateTime.IsMade (t : DateTime) : Prop :=
  (∃ text, readDateTime? text = some t) ∨ (∃ text, readLenientDateTime? text = some t) ∨
    ∃ ms, ofMillis? ms = some t

/-- Whether the second is written as it is: it is no leap second, or the last one of its minute. -/
def Reading.HasExactSecond (r : Reading) : Prop :=
  (r.nanosecond < 1000000000 ∧ r.second ≠ 60) ∨ (1000000000 ≤ r.nanosecond ∧ r.second = 59)

/-- A reading is written exactly if its second is and its offset has whole minutes. -/
theorem Reading.HasExactSecond.asWritten_eq (hsecond : r.HasExactSecond) (hoffset : 60 ∣ r.offset) :
    r.asWritten = r := by
  obtain ⟨year, month, day, hour, minute, second, nanosecond, offset⟩ := r
  have hrounded : roundedOffset offset = offset := by
    have hdvd : 60 ∣ offset := hoffset
    unfold roundedOffset roundedMinutes
    split <;> omega
  rcases hsecond with ⟨hplain, hsecond⟩ | ⟨hleap, hsecond⟩
  · have hplain : ¬ 1000000000 ≤ nanosecond := Nat.not_le.mpr hplain
    have hsecond : second ≠ 60 := hsecond
    simp [asWritten, writtenSecond, isLeap, secondOf, hrounded, hplain, hsecond]
  · have hleap : 1000000000 ≤ nanosecond := hleap
    have hsecond : second = 59 := hsecond
    simp [asWritten, writtenSecond, isLeap, secondOf, hrounded, hleap, hsecond]

/-- A fraction that is read is less than a second. -/
theorem readFraction?_lt {cs rest : List Char} {n : ℕ} (h : readFraction? cs = some (n, rest)) :
    n < 1000000000 := by
  unfold readFraction? at h
  split at h
  · next cs =>
    dsimp only at h
    split at h
    · cases h
    · obtain ⟨rfl, -⟩ := Prod.mk.inj (Option.some.inj h)
      have hdigits : ∀ c ∈ (cs.takeWhile isDigit).take 9, isDigit c = true := fun c hc =>
        List.mem_takeWhile_imp (List.mem_of_mem_take hc)
      have hlt := ofDigits_lt hdigits
      rw [List.length_take] at hlt
      -- nine digits at most, and for each that is missing a power of ten
      have hpow : 10 ^ min 9 (cs.takeWhile isDigit).length *
          10 ^ (9 - (cs.takeWhile isDigit).length) = 1000000000 := by
        rw [← pow_add, show min 9 (cs.takeWhile isDigit).length +
          (9 - (cs.takeWhile isDigit).length) = 9 by omega]
        norm_num
      rw [nanosecondsOf, Nat.pow_eq, ← hpow]
      exact Nat.mul_lt_mul_of_pos_right hlt (by positivity)
  · obtain ⟨rfl, -⟩ := Prod.mk.inj (Option.some.inj h)
    norm_num

/-- An offset that is read has whole minutes. -/
theorem dvd_of_readOffset? {separator : Reader Unit} {cs rest : List Char} {o : ℤ}
    (h : readOffset? separator cs = some (o, rest)) : 60 ∣ o := by
  unfold readOffset? at h
  split at h
  · obtain ⟨rfl, -⟩ := Prod.mk.inj (Option.some.inj h)
    exact dvd_zero 60
  · obtain ⟨rfl, -⟩ := Prod.mk.inj (Option.some.inj h)
    exact dvd_zero 60
  · simp only [Option.bind_eq_bind, Option.bind_eq_some_iff, Option.ite_none_right_eq_some,
      Option.some.injEq, Prod.mk.injEq, Prod.exists] at h
    obtain ⟨west, _, -, hours, _, -, _, _, -, minutes, _, -, -, rfl, -⟩ := h
    split <;> omega

theorem dvd_of_readNamedOffset? {cs rest : List Char} {o : ℤ}
    (h : readNamedOffset? cs = some (o, rest)) : 60 ∣ o := by
  unfold readNamedOffset? at h
  split at h
  · obtain ⟨rfl, -⟩ := Prod.mk.inj (Option.some.inj h)
    exact dvd_zero 60
  · exact dvd_of_readOffset? h

/-- Fields that are read are written exactly, if the offset has whole minutes. -/
theorem asWritten_of_readFields? {year : Reader ℤ} {field : Reader ℕ} {separator : Char → Reader Unit}
    {offset : Reader ℤ} (hoffset : ∀ {cs rest o}, offset cs = some (o, rest) → 60 ∣ o)
    {cs rest : List Char} (h : readFields? year field separator offset cs = some (r, rest)) :
    r.asWritten = r := by
  simp only [readFields?, Option.bind_eq_bind, Option.bind_eq_some_iff, Option.some.injEq,
    Prod.mk.injEq, Prod.exists] at h
  obtain ⟨_, _, -, _, _, -, _, _, -, _, _, -, _, _, -, _, _, -, _, _, -, _, _, -, _, _, -, _, _, -,
    second, _, -, nanosecond, _, hfraction, o, _, hread, rfl, -⟩ := h
  have hlt := readFraction?_lt hfraction
  refine Reading.HasExactSecond.asWritten_eq ?_ (hoffset hread)
  unfold Reading.HasExactSecond secondOf
  split <;> dsimp only <;> omega

/-- A date made of a clock reading shows it. -/
theorem reading_of_ofReading? (h : ofReading? r = some t) : t.reading = r := by
  unfold ofReading? at h
  split at h
  · split at h
    · cases h
      rfl
    · cases h
  · cases h

/-- Nothing of a date that the library makes is rounded. -/
theorem DateTime.IsMade.asWritten_eq (h : t.IsMade) : t.reading.asWritten = t.reading := by
  -- both readers take whole minutes, and milliseconds are taken in UTC
  rcases h with ⟨text, h⟩ | ⟨text, h⟩ | ⟨ms, h⟩
  · simp only [readDateTime?, Option.bind_eq_bind, Option.bind_eq_some_iff,
      Option.ite_none_right_eq_some, Prod.exists] at h
    obtain ⟨r, _, hread, -, hreading⟩ := h
    rw [reading_of_ofReading? hreading]
    exact asWritten_of_readFields? dvd_of_readOffset? hread
  · simp only [readLenientDateTime?, Option.bind_eq_bind, Option.bind_eq_some_iff,
      Option.ite_none_right_eq_some, Prod.exists] at h
    obtain ⟨r, _, hread, -, hreading⟩ := h
    rw [reading_of_ofReading? hreading]
    exact asWritten_of_readFields? dvd_of_readNamedOffset? hread
  · rw [reading_of_ofReading? h]
    refine Reading.HasExactSecond.asWritten_eq (.inl ⟨?_, ?_⟩) (dvd_zero 60)
    · show (ms % 1000).toNat * 1000000 < 1000000000
      omega
    · show (ms / 1000 % 86400 % 60).toNat ≠ 60
      omega

/-- Dates that the library makes are told apart by their texts. -/
theorem DateTime.IsMade.eq_of_text_eq (h : t.IsMade) (h' : t'.IsMade) (htext : t'.text = t.text) :
    t' = t := by
  refine eq_of_reading_eq ?_
  rw [← h'.asWritten_eq, asWritten_eq_of_text_eq htext, h.asWritten_eq]

end ContentQuery.Time
