import ContentQuery.Text.Utf8
import Mathlib

/-! # What a text tells about its bytes

Bytes that are the UTF-8 of a text read as this text, and a text that has no U+FFFD is read from its
UTF-8 only. U+FFFD is written for its own UTF-8 and for bytes that are not text, so a text that holds it
is read from more than one byte sequence.
-/

namespace ContentQuery.Text

open String (utf8EncodeChar)

/-- The bytes that spell a code point. Behind `E0` and `F0` no shorter form may follow, behind `ED` no
surrogate, and behind `F4` nothing beyond the last code point. -/
inductive Spells : List UInt8 → ℕ → Prop
  | one {a : UInt8} (ha : a.toNat < 0x80) : Spells [a] a.toNat
  | two {a b : UInt8} (ha : 0xC2 ≤ a.toNat ∧ a.toNat ≤ 0xDF) (hb : 0x80 ≤ b.toNat ∧ b.toNat ≤ 0xBF) :
      Spells [a, b] ((a.toNat - 0xC0) * 64 + b.toNat % 64)
  | three {a b c : UInt8} (ha : 0xE0 ≤ a.toNat ∧ a.toNat ≤ 0xEF)
      (hb : 0x80 ≤ b.toNat ∧ b.toNat ≤ 0xBF)
      (hab : (a.toNat = 0xE0 → 0xA0 ≤ b.toNat) ∧ (a.toNat = 0xED → b.toNat ≤ 0x9F))
      (hc : 0x80 ≤ c.toNat ∧ c.toNat ≤ 0xBF) :
      Spells [a, b, c] (((a.toNat - 0xE0) * 64 + b.toNat % 64) * 64 + c.toNat % 64)
  | four {a b c d : UInt8} (ha : 0xF0 ≤ a.toNat ∧ a.toNat ≤ 0xF4)
      (hb : 0x80 ≤ b.toNat ∧ b.toNat ≤ 0xBF)
      (hab : (a.toNat = 0xF0 → 0x90 ≤ b.toNat) ∧ (a.toNat = 0xF4 → b.toNat ≤ 0x8F))
      (hc : 0x80 ≤ c.toNat ∧ c.toNat ≤ 0xBF) (hd : 0x80 ≤ d.toNat ∧ d.toNat ≤ 0xBF) :
      Spells [a, b, c, d]
        ((((a.toNat - 0xF0) * 64 + b.toNat % 64) * 64 + c.toNat % 64) * 64 + d.toNat % 64)

theorem Spells.isValidChar {bytes : List UInt8} {n : ℕ} (h : Spells bytes n) : n.isValidChar := by
  rw [Nat.isValidChar]
  cases h <;> omega

theorem Spells.of_eq {bytes : List UInt8} {m n : ℕ} (h : Spells bytes m) (hmn : m = n) :
    Spells bytes n :=
  hmn ▸ h

/-- Characters are spelled by their UTF-8. -/
theorem spells_utf8EncodeChar (c : Char) : Spells (utf8EncodeChar c) c.toNat := by
  have hvalid : c.val.toNat.isValidChar := c.valid
  rw [Nat.isValidChar] at hvalid
  simp only [utf8EncodeChar]
  rw [Char.toNat]
  generalize c.val.toNat = n at hvalid
  split
  · refine (Spells.one ?_).of_eq ?_ <;> rw [UInt8.toNat_ofNat'] <;> omega
  · split
    · refine (Spells.two ?_ ?_).of_eq ?_ <;> simp only [UInt8.toNat_ofNat'] <;> omega
    · split
      · refine (Spells.three ?_ ?_ ?_ ?_).of_eq ?_ <;> simp only [UInt8.toNat_ofNat'] <;> omega
      · refine (Spells.four ?_ ?_ ?_ ?_ ?_).of_eq ?_ <;> simp only [UInt8.toNat_ofNat'] <;> omega

/-- Code points are spelled by their UTF-8 only. -/
theorem Spells.eq_utf8EncodeChar {bytes : List UInt8} {c : Char} (h : Spells bytes c.toNat) :
    bytes = utf8EncodeChar c := by
  generalize hn : c.toNat = n at h
  rw [Char.toNat] at hn
  simp only [utf8EncodeChar, hn]
  -- the number of bytes follows from the range of the character
  cases h with
  | one ha => rw [if_pos (by omega), UInt8.ofNat_toNat]
  | two ha hb =>
    rw [if_neg (by omega), if_pos (by omega)]
    simp only [List.cons.injEq, ← UInt8.toNat_inj, UInt8.toNat_ofNat', and_true]
    omega
  | three ha hb hab hc =>
    rw [if_neg (by omega), if_neg (by omega), if_pos (by omega)]
    simp only [List.cons.injEq, ← UInt8.toNat_inj, UInt8.toNat_ofNat', and_true]
    omega
  | four ha hb hab hc hd =>
    rw [if_neg (by omega), if_neg (by omega), if_neg (by omega)]
    simp only [List.cons.injEq, ← UInt8.toNat_inj, UInt8.toNat_ofNat', and_true]
    omega

/-! ## Reading one byte -/

namespace Utf8State

theorem lead?_of_two {b : ℕ} (h : 0xC2 ≤ b ∧ b ≤ 0xDF) : lead? b = some ⟨1, 0x80, 0xBF, b - 0xC0⟩ :=
  if_pos h

/-- The first byte of three bounds the second one, where too few or surrogates would be spelled. -/
theorem lead?_of_three {b : ℕ} (h : 0xE0 ≤ b ∧ b ≤ 0xEF) : lead? b = some
    ⟨2, if b = 0xE0 then 0xA0 else 0x80, if b = 0xED then 0x9F else 0xBF, b - 0xE0⟩ := by
  obtain ⟨h, h'⟩ := h
  interval_cases b <;> rfl

/-- The first byte of four bounds the second one, where too few or too much would be spelled. -/
theorem lead?_of_four {b : ℕ} (h : 0xF0 ≤ b ∧ b ≤ 0xF4) : lead? b = some
    ⟨3, if b = 0xF0 then 0x90 else 0x80, if b = 0xF4 then 0x8F else 0xBF, b - 0xF0⟩ := by
  obtain ⟨h, h'⟩ := h
  interval_cases b <;> rfl

/-- No other byte beyond those of one byte starts a character. -/
theorem lead?_eq_none {b : ℕ} (h : b < 0xC2 ∨ 0xF4 < b) : lead? b = none := by
  unfold lead?
  repeat rw [if_neg (by omega)]

end Utf8State

open Utf8State

variable {b : UInt8} {rest : List UInt8}

/-- A byte of seven bits is its character. -/
theorem readUtf8From_ascii (h : b.toNat < 0x80) :
    readUtf8From .start (b :: rest) = Char.ofNat b.toNat :: readUtf8From .start rest := by
  simp [readUtf8From, step, start, begin, h]

/-- A first byte leaves the reader waiting for the bytes that it announces. -/
theorem readUtf8From_lead {state : Utf8State} (h : 0x80 ≤ b.toNat)
    (hlead : lead? b.toNat = some state) :
    readUtf8From .start (b :: rest) = readUtf8From state rest := by
  simp [readUtf8From, step, start, begin, Nat.not_lt.mpr h, hlead]

/-- A byte that begins no character is shown as a mark. -/
theorem readUtf8From_no_lead (h : 0x80 ≤ b.toNat) (hlead : lead? b.toNat = none) :
    readUtf8From .start (b :: rest) = replacement :: readUtf8From .start rest := by
  simp [readUtf8From, step, start, begin, Nat.not_lt.mpr h, hlead]

/-- The last byte of a character ends it. -/
theorem readUtf8From_last {least greatest bits : ℕ} (h : least ≤ b.toNat ∧ b.toNat ≤ greatest) :
    readUtf8From ⟨1, least, greatest, bits⟩ (b :: rest) =
      Char.ofNat (bits * 64 + b.toNat % 64) :: readUtf8From .start rest := by
  simp [readUtf8From, step, h]

/-- A byte within a character is kept. -/
theorem readUtf8From_more {owed least greatest bits : ℕ} (h : least ≤ b.toNat ∧ b.toNat ≤ greatest) :
    readUtf8From ⟨owed + 2, least, greatest, bits⟩ (b :: rest) =
      readUtf8From ⟨owed + 1, 0x80, 0xBF, bits * 64 + b.toNat % 64⟩ rest := by
  simp [readUtf8From, step, h]

/-- Where no mark is written, a character that has begun goes on. -/
theorem exists_cons_of_unmarked {owed least greatest bits : ℕ} {bytes : List UInt8}
    (h : replacement ∉ readUtf8From ⟨owed + 1, least, greatest, bits⟩ bytes) :
    ∃ b rest, bytes = b :: rest ∧ least ≤ b.toNat ∧ b.toNat ≤ greatest := by
  cases bytes with
  | nil => simp [readUtf8From] at h
  | cons b rest =>
    refine ⟨b, rest, rfl, ?_⟩
    by_contra hout
    simp [readUtf8From, step, hout] at h

/-! ## Reading one character -/

/-- The bytes that spell a code point are read as its character. -/
theorem Spells.readUtf8From_append {bytes : List UInt8} {n : ℕ} (h : Spells bytes n)
    (rest : List UInt8) :
    readUtf8From .start (bytes ++ rest) = Char.ofNat n :: readUtf8From .start rest := by
  cases h with
  | one ha => exact readUtf8From_ascii ha
  | two ha hb =>
    exact (readUtf8From_lead (by omega) (lead?_of_two ha)).trans (readUtf8From_last hb)
  | three ha hb hab hc =>
    refine (readUtf8From_lead (by omega) (lead?_of_three ha)).trans ?_
    refine (readUtf8From_more ?_).trans (readUtf8From_last hc)
    split_ifs <;> omega
  | four ha hb hab hc hd =>
    refine (readUtf8From_lead (by omega) (lead?_of_four ha)).trans ?_
    refine (readUtf8From_more ?_).trans ((readUtf8From_more hc).trans (readUtf8From_last hd))
    split_ifs <;> omega

/-- Where no mark is written, bytes start with the UTF-8 of a character. -/
theorem exists_spells_of_unmarked (h : replacement ∉ readUtf8From .start (b :: rest)) :
    ∃ bytes n after, b :: rest = bytes ++ after ∧ Spells bytes n := by
  -- a lead byte asks for one to three more, and each that is missing leaves a mark
  rcases Nat.lt_or_ge b.toNat 0x80 with hascii | hlong
  · exact ⟨[b], _, rest, rfl, .one hascii⟩
  by_cases htwo : 0xC2 ≤ b.toNat ∧ b.toNat ≤ 0xDF
  · rw [readUtf8From_lead hlong (lead?_of_two htwo)] at h
    obtain ⟨b₁, after, rfl, hb₁⟩ := exists_cons_of_unmarked h
    exact ⟨[b, b₁], _, after, rfl, .two htwo hb₁⟩
  by_cases hthree : 0xE0 ≤ b.toNat ∧ b.toNat ≤ 0xEF
  · rw [readUtf8From_lead hlong (lead?_of_three hthree)] at h
    obtain ⟨b₁, rest, rfl, hb₁⟩ := exists_cons_of_unmarked h
    rw [readUtf8From_more hb₁] at h
    obtain ⟨b₂, after, rfl, hb₂⟩ := exists_cons_of_unmarked h
    refine ⟨[b, b₁, b₂], _, after, rfl, .three hthree ?_ ?_ hb₂⟩ <;> split_ifs at hb₁ <;> omega
  by_cases hfour : 0xF0 ≤ b.toNat ∧ b.toNat ≤ 0xF4
  · rw [readUtf8From_lead hlong (lead?_of_four hfour)] at h
    obtain ⟨b₁, rest, rfl, hb₁⟩ := exists_cons_of_unmarked h
    rw [readUtf8From_more hb₁] at h
    obtain ⟨b₂, rest, rfl, hb₂⟩ := exists_cons_of_unmarked h
    rw [readUtf8From_more hb₂] at h
    obtain ⟨b₃, after, rfl, hb₃⟩ := exists_cons_of_unmarked h
    refine ⟨[b, b₁, b₂, b₃], _, after, rfl, .four hfour ?_ ?_ hb₂ hb₃⟩ <;> split_ifs at hb₁ <;> omega
  · rw [readUtf8From_no_lead hlong (lead?_eq_none (by omega))] at h
    simp at h

/-! ## Texts -/

/-- The UTF-8 of a text reads as the text. -/
theorem readUtf8From_flatMap_utf8EncodeChar (cs : List Char) (rest : List UInt8) :
    readUtf8From .start (cs.flatMap utf8EncodeChar ++ rest) = cs ++ readUtf8From .start rest := by
  induction cs with
  | nil => rfl
  | cons c cs ih =>
    rw [List.flatMap_cons, List.append_assoc, (spells_utf8EncodeChar c).readUtf8From_append,
      Char.ofNat_toNat, ih, List.cons_append]

/-- Where no mark is written, bytes are the UTF-8 of what they read as. -/
theorem eq_flatMap_of_unmarked (bytes : List UInt8) (h : replacement ∉ readUtf8From .start bytes) :
    bytes = (readUtf8From .start bytes).flatMap utf8EncodeChar := by
  -- every character takes at least one byte
  induction hlength : bytes.length using Nat.strong_induction_on generalizing bytes with
  | _ length ih =>
    cases bytes with
    | nil => rfl
    | cons b rest =>
      obtain ⟨spelling, n, after, hbytes, hspells⟩ := exists_spells_of_unmarked h
      have hn : (Char.ofNat n).toNat = n := by rw [Char.toNat_ofNat, if_pos hspells.isValidChar]
      have hspelling : spelling = utf8EncodeChar (Char.ofNat n) :=
        Spells.eq_utf8EncodeChar (hn.symm ▸ hspells)
      rw [hbytes, hspells.readUtf8From_append] at h ⊢
      have hshorter : after.length < length := by
        have hpos := List.length_pos_iff.mpr (String.utf8EncodeChar_ne_nil (c := Char.ofNat n))
        rw [← hlength, hbytes, List.length_append, hspelling]
        omega
      rw [List.flatMap_cons, ← ih _ hshorter after (fun hmark => h (List.mem_cons_of_mem _ hmark)) rfl,
        hspelling]

/-- A text tells its bytes exactly if it holds no mark. -/
theorem readUtf8_determines_iff (bytes : List UInt8) :
    (∀ bytes', readUtf8 bytes' = readUtf8 bytes → bytes' = bytes) ↔
      replacement ∉ (readUtf8 bytes).toList := by
  have hread : ∀ bytes', readUtf8 bytes' = readUtf8 bytes ↔
      readUtf8From .start bytes' = readUtf8From .start bytes := fun bytes' => String.ofList_inj
  simp only [hread]
  rw [readUtf8, String.toList_ofList]
  constructor
  · intro hsame hmark
    -- besides the UTF-8 of the text, there are the bytes with one that is not text for the mark
    obtain ⟨front, back, htext⟩ := List.append_of_mem hmark
    have hutf8 := hsame ((front ++ replacement :: back).flatMap utf8EncodeChar) (by
      rw [← List.append_nil (List.flatMap _ _), readUtf8From_flatMap_utf8EncodeChar, htext]
      simp [readUtf8From, start])
    have hother := hsame (front.flatMap utf8EncodeChar ++ 0xFF :: back.flatMap utf8EncodeChar) (by
      rw [readUtf8From_flatMap_utf8EncodeChar, readUtf8From_no_lead (by decide) (by decide),
        ← List.append_nil (List.flatMap _ back), readUtf8From_flatMap_utf8EncodeChar, htext]
      simp [readUtf8From, start])
    rw [← hother, List.flatMap_append, List.flatMap_cons] at hutf8
    exact absurd (List.append_cancel_left hutf8) (by simp [replacement, utf8EncodeChar])
  · intro hunmarked bytes' hsame
    rw [eq_flatMap_of_unmarked bytes hunmarked, ← hsame]
    exact eq_flatMap_of_unmarked bytes' (hsame ▸ hunmarked)

end ContentQuery.Text
