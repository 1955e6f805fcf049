import ContentQuery.Proofs.Number.Digits
import ContentQuery.Proofs.Text.Cut
import ContentQuery.Time.Rfc3339

/-! # What a date text tells

Every date is written in the notation that the lenient reader takes, years of more or less than four
digits included. What is read back is the clock reading up to what the text rounds: the offset comes
back in whole minutes, and a leap second as the sixtieth of its minute or as the second after it.

All fields but the year have a fixed width. A year with a sign ends at the dash behind it, and the
fraction of a second at the sign of the offset.
-/

namespace ContentQuery.Time

open DateTime Number Text

/-! ## Readers -/

/-- The reader takes the text off and gives the value, whatever follows. -/
def Takes {α : Type} (reader : Reader α) (text : List Char) (value : α) : Prop :=
  ∀ rest, reader (text ++ rest) = some (value, rest)

theorem bind_eq_some_of_eq {α β : Type} {x : Option α} {f : α → Option β} {a : α} {b : β}
    (hx : x = some a) (hf : f a = some b) : x >>= f = some b := by
  rw [hx]
  exact hf

/-- A digit is no blank. -/
theorem isBlank_of_isDigit {c : Char} (h : isDigit c = true) : isBlank c = false := by
  have hcode : 0x30 ≤ c.toNat ∧ c.toNat ≤ 0x39 := by
    simpa [isDigit, Char.le_def, UInt32.le_iff_toNat_le] using h
  obtain ⟨hlow, hhigh⟩ := hcode
  rw [isBlank, CodePoints.contains]
  interval_cases c.toNat <;> rfl

/-- No blanks are passed over where none stand. -/
theorem afterBlanks_cons {α : Type} (reader : Reader α) {c : Char} (h : isBlank c = false)
    (cs : List Char) : afterBlanks reader (c :: cs) = reader (c :: cs) := by
  rw [afterBlanks, List.dropWhile_cons_of_neg (by simp [h])]

/-- There are no blanks in front of a digit. -/
theorem afterBlanks_digits {α : Type} (reader : Reader α) {digits : List Char} (hne : digits ≠ [])
    (hdigits : ∀ c ∈ digits, isDigit c = true) (rest : List Char) :
    afterBlanks reader (digits ++ rest) = reader (digits ++ rest) := by
  obtain ⟨c, cs, rfl⟩ := List.exists_cons_of_ne_nil hne
  exact afterBlanks_cons reader (isBlank_of_isDigit (hdigits c List.mem_cons_self)) _

/-- As many digits as may be read are read. -/
theorem readNumber?_of_length {least : ℕ} {digits : List Char} (hleast : least ≤ digits.length)
    (hdigits : ∀ c ∈ digits, isDigit c = true) (rest : List Char) :
    readNumber? least digits.length (digits ++ rest) = some (ofDigits digits, rest) := by
  have hrun : digits.takeWhile isDigit = digits := List.takeWhile_eq_self_iff.mpr hdigits
  simp [readNumber?, hrun, hleast]

/-- Digits in front of something else are read up to there. -/
theorem readNumber?_run {least : ℕ} {digits rest : List Char} (hleast : least ≤ digits.length)
    (hdigits : ∀ c ∈ digits, isDigit c = true) (hrest : ∀ c ∈ rest.head?, isDigit c = false) :
    readNumber? least (digits ++ rest).length (digits ++ rest) = some (ofDigits digits, rest) := by
  simp only [readNumber?, List.take_length, takeWhile_append_run hdigits hrest]
  simp [hleast]

/-- A field of two digits is read as its number, with any rest. -/
theorem takes_twoDigits {least n : ℕ} (hleast : least ≤ 2) (h : n < 100) :
    Takes (readNumber? least 2) (paddedText 2 n).toList n := by
  intro rest
  have hlength : (paddedText 2 n).toList.length = 2 := length_paddedText (by norm_num) h
  have hread := readNumber?_of_length (hleast.trans hlength.ge) isDigit_of_mem_paddedText rest
  rwa [hlength, ofDigits_paddedText] at hread

theorem takes_field {n : ℕ} (h : n < 100) :
    Takes (afterBlanks (readNumber? 1 2)) (paddedText 2 n).toList n := by
  intro rest
  have hne : (paddedText 2 n).toList ≠ [] :=
    List.ne_nil_of_length_pos ((le_length_paddedText 2 n).trans' (by norm_num))
  rw [afterBlanks_digits _ hne isDigit_of_mem_paddedText, takes_twoDigits (by norm_num) h]

theorem readChar?_cons {c : Char} (h : isBlank c = false) (rest : List Char) :
    afterBlanks (readChar? c) (c :: rest) = some ((), rest) := by
  rw [afterBlanks_cons _ h, readChar?, if_pos rfl]

/-! ## Years -/

/-- Only the years from 0 to 9999 are written without a sign. -/
theorem toList_yearText (year : ℤ) : (yearText year).toList =
    if 0 ≤ year ∧ year ≤ 9999 then (paddedText 4 year.natAbs).toList
    else (if year < 0 then '-' else '+') :: (paddedText 4 year.natAbs).toList := by
  unfold yearText
  split
  · rfl
  · split <;> simp

/-- A year of four digits is read without a sign. -/
theorem readLongYear?_of_digits {cs : List Char} (h : ∀ c ∈ cs.head?, isDigit c = true) :
    readLongYear? cs = (readNumber? 1 4 cs).map fun (n, rest) => ((n : ℤ), rest) := by
  unfold readLongYear?
  split
  · exact absurd (h '-' rfl) (by decide)
  · exact absurd (h '+' rfl) (by decide)
  · rfl

/-- A year reads back in front of the dash behind it. -/
theorem readLongYear?_yearText (year : ℤ) (rest : List Char) :
    afterBlanks readLongYear? ((yearText year).toList ++ '-' :: rest) = some (year, '-' :: rest) := by
  have hdigits : ∀ c ∈ (paddedText 4 year.natAbs).toList, isDigit c = true :=
    isDigit_of_mem_paddedText
  have hlong : 1 ≤ (paddedText 4 year.natAbs).toList.length :=
    (le_length_paddedText 4 year.natAbs).trans' (by norm_num)
  rw [toList_yearText]
  split
  · next h =>
    have hlength : (paddedText 4 year.natAbs).toList.length = 4 :=
      length_paddedText (by norm_num) (by omega)
    have hread := readNumber?_of_length hlong hdigits ('-' :: rest)
    rw [hlength, ofDigits_paddedText] at hread
    have hne : (paddedText 4 year.natAbs).toList ≠ [] := List.ne_nil_of_length_pos (by omega)
    have hhead : ∀ c ∈ ((paddedText 4 year.natAbs).toList ++ '-' :: rest).head?,
        isDigit c = true := by
      intro c hc
      rw [List.head?_append_of_ne_nil _ hne] at hc
      exact hdigits c (List.mem_of_mem_head? hc)
    rw [afterBlanks_digits _ hne hdigits, readLongYear?_of_digits hhead, hread]
    simp only [Option.map_some, Int.natCast_natAbs, abs_of_nonneg h.1]
  · -- a sign is in front, and all digits up to the dash are read
    have hdash : ∀ c ∈ ('-' :: rest).head?, isDigit c = false := by
      intro c hc
      obtain rfl : '-' = c := by simpa using hc
      decide
    have hread := readNumber?_run hlong hdigits hdash
    rw [ofDigits_paddedText] at hread
    split
    · next h =>
      rw [List.cons_append, afterBlanks_cons _ (by decide), readLongYear?, hread]
      simp only [Option.map_some, Int.natCast_natAbs, abs_of_neg h, neg_neg]
    · next h =>
      rw [List.cons_append, afterBlanks_cons _ (by decide), readLongYear?, hread]
      simp only [Option.map_some, Int.natCast_natAbs, abs_of_nonneg (not_lt.mp h)]

/-! ## Fractions of a second -/

/-- Digits of a fraction read back, as nanoseconds. -/
theorem readFraction?_paddedText (width : ℕ) {n : ℕ} (hwidth : 0 < width ∧ width ≤ 9)
    (h : n < 10 ^ width) {rest : List Char} (hrest : ∀ c ∈ rest.head?, isDigit c = false) :
    readFraction? ('.' :: ((paddedText width n).toList ++ rest)) =
      some (n * 10 ^ (9 - width), rest) := by
  have hlength := length_paddedText hwidth.1 h
  have hne : (paddedText width n).toList ≠ [] := List.ne_nil_of_length_pos (by omega)
  have htake : (paddedText width n).toList.take 9 = (paddedText width n).toList :=
    List.take_of_length_le (by omega)
  rw [readFraction?, takeWhile_append_run isDigit_of_mem_paddedText hrest,
    dropWhile_append_run isDigit_of_mem_paddedText hrest]
  simp [hne, nanosecondsOf, htake, hlength]

/-- The fraction is nothing for a whole second, or digits that count the nanoseconds. -/
theorem fractionText_cases {n : ℕ} (h : n < 1000000000) : n = 0 ∧ (fractionText n).toList = [] ∨
    ∃ width k, (0 < width ∧ width ≤ 9) ∧ k < 10 ^ width ∧ k * 10 ^ (9 - width) = n ∧
      (fractionText n).toList = '.' :: (paddedText width k).toList := by
  unfold fractionText
  split
  · next hzero => exact .inl ⟨hzero, rfl⟩
  · right
    split
    · exact ⟨3, n / 1000000, by norm_num, by omega, by omega, by simp⟩
    · split
      · exact ⟨6, n / 1000, by norm_num, by omega, by omega, by simp⟩
      · exact ⟨9, n, by norm_num, h, by omega, by simp⟩

/-- A fraction reads back in front of the sign of an offset. -/
theorem readFraction?_fractionText {n : ℕ} (h : n < 1000000000) {rest : List Char}
    (hrest : ∀ c ∈ rest.head?, c = '+' ∨ c = '-') :
    readFraction? ((fractionText n).toList ++ rest) = some (n, rest) := by
  rcases fractionText_cases h with ⟨rfl, htext⟩ | ⟨width, k, hwidth, hk, rfl, htext⟩ <;> rw [htext]
  · rw [List.nil_append]
    unfold readFraction?
    split
    · exact absurd (hrest '.' rfl) (by decide)
    · rfl
  · refine readFraction?_paddedText width hwidth hk fun c hc => ?_
    rcases hrest c hc with rfl | rfl <;> rfl

/-! ## Offsets -/

/-- An offset is its sign, two digits of hours, a colon and two of minutes. -/
theorem toList_offsetText (offset : ℤ) : (offsetText offset).toList =
    (if offset < 0 then '-' else '+') :: ((paddedText 2 (roundedMinutes offset / 60)).toList ++
      ':' :: (paddedText 2 (roundedMinutes offset % 60)).toList) := by
  unfold offsetText
  split <;> simp

/-- The colon between hours and minutes is passed over. -/
theorem passColons_colon {digits : List Char} (hne : digits ≠ [])
    (hdigits : ∀ c ∈ digits, isDigit c = true) (rest : List Char) :
    passColons (':' :: (digits ++ rest)) = some ((), digits ++ rest) := by
  obtain ⟨c, cs, rfl⟩ := List.exists_cons_of_ne_nil hne
  have hc := hdigits c List.mem_cons_self
  have hcolon : c ≠ ':' := by
    rintro rfl
    exact absurd hc (by decide)
  simp [passColons, hcolon, isBlank_of_isDigit hc]

/-- Hours and minutes are read behind the sign. -/
theorem readOffset?_sign {sign : Char} {west : Bool}
    (hsign : ∀ cs, readOffsetSign? (sign :: cs) = some (west, cs)) (hZ : sign ≠ 'Z' ∧ sign ≠ 'z')
    {hours minutes : ℕ} (hhours : hours < 100) (hminutes : minutes < 60) (rest : List Char) :
    readOffset? passColons (sign :: ((paddedText 2 hours).toList ++
      ':' :: ((paddedText 2 minutes).toList ++ rest))) =
      some (if west then -(hours * 3600 + minutes * 60 : ℤ) else hours * 3600 + minutes * 60,
        rest) := by
  have hcolon := passColons_colon (List.ne_nil_of_length_pos
    ((le_length_paddedText 2 minutes).trans' (by norm_num))) isDigit_of_mem_paddedText rest
  unfold readOffset?
  split
  · next heq => exact absurd (List.cons.inj heq).1 hZ.1
  · next heq => exact absurd (List.cons.inj heq).1 hZ.2
  · simp [hsign, takes_twoDigits le_rfl hhours _, hcolon,
      takes_twoDigits le_rfl (hminutes.trans (by norm_num)) _, hminutes]

/-- A sign starts no blank and no name of an offset. -/
theorem readNamedOffset?_sign {sign : Char} (hsign : sign = '-' ∨ sign = '+') (cs : List Char) :
    afterBlanks readNamedOffset? (sign :: cs) = readOffset? passColons (sign :: cs) := by
  rcases hsign with rfl | rfl <;>
    rw [afterBlanks_cons _ (by decide), readNamedOffset?, if_neg (by simp)]

/-- The offset in whole minutes that is nearest to an offset. -/
def roundedOffset (offset : ℤ) : ℤ :=
  if offset < 0 then -(roundedMinutes offset * 60) else roundedMinutes offset * 60

/-- The text of an offset reads back as the nearest one in whole minutes. -/
theorem takes_offsetText {offset : ℤ} (h : -86400 < offset ∧ offset < 86400) :
    Takes (afterBlanks readNamedOffset?) (offsetText offset).toList (roundedOffset offset) := by
  intro rest
  have hhours : roundedMinutes offset / 60 < 100 := by
    unfold roundedMinutes
    omega
  have hminutes : roundedMinutes offset % 60 < 60 := Nat.mod_lt _ (by norm_num)
  have hwest : ∀ cs, readOffsetSign? ('-' :: cs) = some (true, cs) := fun _ => rfl
  have heast : ∀ cs, readOffsetSign? ('+' :: cs) = some (false, cs) := fun _ => rfl
  rw [toList_offsetText, roundedOffset]
  simp only [List.cons_append, List.append_assoc]
  -- the sign is written apart from the minutes, so the sides of zero are read apart
  split
  · rw [readNamedOffset?_sign (.inl rfl),
      readOffset?_sign hwest (by decide) hhours hminutes rest, if_pos rfl]
    congr 2
    omega
  · rw [readNamedOffset?_sign (.inr rfl),
      readOffset?_sign heast (by decide) hhours hminutes rest, if_neg Bool.false_ne_true]
    congr 2
    omega

/-! ## Dates -/

/-- Days have two digits. -/
theorem daysInMonth_le (year : ℤ) (month : ℕ) : daysInMonth year month ≤ 31 := by
  unfold daysInMonth
  split
  · split <;> norm_num
  all_goals norm_num

/-- What is written for a second fits its two digits and the nine of its fraction. -/
theorem writtenSecond_lt {r : Reading} (h : r.second < 60 ∧ r.nanosecond < 2000000000) :
    (writtenSecond r).1 < 100 ∧ (writtenSecond r).2 < 1000000000 := by
  unfold writtenSecond
  split
  · exact ⟨by omega, by omega⟩
  · next hleap =>
    have hnanosecond : r.nanosecond < 1000000000 := by simpa [Reading.isLeap] using hleap
    exact ⟨by omega, hnanosecond⟩

/-- The reading that the text of a date gives. -/
def Reading.asWritten (r : Reading) : Reading :=
  { r with
    second := (secondOf (writtenSecond r).1 (writtenSecond r).2).1
    nanosecond := (secondOf (writtenSecond r).1 (writtenSecond r).2).2
    offset := roundedOffset r.offset }

/-- The fields of a date read back as they are written. -/
theorem readFields?_text {r : Reading} (h : r.Valid) :
    readFields? (afterBlanks readLongYear?) (afterBlanks (readNumber? 1 2))
      (fun c => afterBlanks (readChar? c)) (afterBlanks readNamedOffset?)
      (DateTime.text ⟨r, h⟩).toList = some (r.asWritten, []) := by
  have hvalid := h
  obtain ⟨⟨-, hmonth⟩, ⟨-, hday⟩, ⟨hhour, hminute, hsecond⟩, hoffset, -⟩ := hvalid
  have hdays := daysInMonth_le r.year r.month
  obtain ⟨hwritten, hfraction⟩ := writtenSecond_lt hsecond
  have htext : (DateTime.text ⟨r, h⟩).toList = (yearText r.year).toList ++
      '-' :: ((paddedText 2 r.month).toList ++ '-' :: ((paddedText 2 r.day).toList ++
      'T' :: ((paddedText 2 r.hour).toList ++ ':' :: ((paddedText 2 r.minute).toList ++
      ':' :: ((paddedText 2 (writtenSecond r).1).toList ++
      ((fractionText (writtenSecond r).2).toList ++ ((offsetText r.offset).toList ++ []))))))) := by
    simp [DateTime.text, localText]
  have hsign : ∀ c ∈ ((offsetText r.offset).toList ++ []).head?, c = '+' ∨ c = '-' := by
    rw [toList_offsetText]
    split <;> simp
  have hdash := readChar?_cons (c := '-') (by decide)
  have hcolon := readChar?_cons (c := ':') (by decide)
  have hend : ∀ rest, readDateEnd? ('T' :: rest) = some ((), rest) := fun _ => rfl
  -- field after field, each of them with what separates it from the next one
  rw [htext]
  refine bind_eq_some_of_eq (readLongYear?_yearText _ _) ?_
  refine bind_eq_some_of_eq (hdash _) ?_
  refine bind_eq_some_of_eq (takes_field (by omega) _) ?_
  refine bind_eq_some_of_eq (hdash _) ?_
  refine bind_eq_some_of_eq (takes_field (by omega) _) ?_
  refine bind_eq_some_of_eq (hend _) ?_
  refine bind_eq_some_of_eq (takes_field (by omega) _) ?_
  refine bind_eq_some_of_eq (hcolon _) ?_
  refine bind_eq_some_of_eq (takes_field (by omega) _) ?_
  refine bind_eq_some_of_eq (hcolon _) ?_
  refine bind_eq_some_of_eq (takes_field hwritten _) ?_
  refine bind_eq_some_of_eq (readFraction?_fractionText hfraction hsign) ?_
  exact bind_eq_some_of_eq (takes_offsetText hoffset _) rfl

end ContentQuery.Time
