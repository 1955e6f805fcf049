import ContentQuery.Value.LikePattern
import Mathlib

/-! # What patterns match

A pattern matches a text that can be cut into pieces, one for each character of the pattern. The
search tries out only some of these cuts. What it gives up is not needed: between the last `%` it has
passed and the place where it stands, every token has taken one character, so a cut in which an
earlier `%` takes more can do no better than one in which the last `%` takes more. A cursor that keeps
to this (`Cursor.Sound`) still has a match to find (`Cursor.CanMatch`) exactly if the cursor after the
next turn has one.
-/

namespace ContentQuery.LikePattern

/-! ## Cuts -/

/-- What one character of a pattern may stand for. -/
def Takes (c : Char) (piece : List Char) : Prop :=
  if c = '%' then True else if c = '_' then piece.length = 1 else piece = [c]

/-- What a token may stand for. -/
def Token.Takes : Token → List Char → Prop
  | anyRun, _ => True
  | token, piece => ∃ c, piece = [c] ∧ token.Allows c

theorem Token.takes_ofChar (c : Char) (piece : List Char) :
    (ofChar c).Takes piece ↔ LikePattern.Takes c piece := by
  rw [ofChar, LikePattern.Takes]
  by_cases hrun : c = '%'
  · rw [if_pos hrun, if_pos hrun, Takes]
  · by_cases hone : c = '_'
    · simp [hone, Takes, Allows, List.length_eq_one_iff]
    · simp [hrun, hone, Takes, Allows]

/-- A token that is no run takes one character that it allows. -/
theorem Token.takes_iff {token : Token} (h : token ≠ .anyRun) (piece : List Char) :
    token.Takes piece ↔ ∃ c, piece = [c] ∧ token.Allows c := by
  cases token with
  | anyRun => exact absurd rfl h
  | anyOne | char d => rfl

theorem Token.Allows.ne_anyRun {token : Token} {c : Char} (h : token.Allows c) :
    token ≠ .anyRun := by
  rintro rfl
  exact h

/-- The text can be cut into pieces, one for each of the tokens. -/
def Cuts (tokens : List Token) (text : List Char) : Prop :=
  ∃ pieces : List (List Char), pieces.flatten = text ∧ List.Forall₂ Token.Takes tokens pieces

theorem cuts_nil_iff {text : List Char} : Cuts [] text ↔ text = [] := by
  simp [Cuts, eq_comm]

/-- A text is cut by its first piece and a cut of the rest. -/
theorem cuts_cons_iff {token : Token} {tokens : List Token} {text : List Char} :
    Cuts (token :: tokens) text ↔
      ∃ piece rest, piece ++ rest = text ∧ token.Takes piece ∧ Cuts tokens rest := by
  constructor
  · rintro ⟨_, rfl, _ | ⟨htakes, hrest⟩⟩
    exact ⟨_, _, rfl, htakes, _, rfl, hrest⟩
  · rintro ⟨piece, _, rfl, htakes, pieces, rfl, hrest⟩
    exact ⟨piece :: pieces, rfl, .cons htakes hrest⟩

/-- A `%` takes the text up to any place. -/
theorem cuts_anyRun_iff {tokens : List Token} {text : List Char} :
    Cuts (.anyRun :: tokens) text ↔ ∃ k ≤ text.length, Cuts tokens (text.drop k) := by
  rw [cuts_cons_iff]
  constructor
  · rintro ⟨piece, rest, rfl, -, hrest⟩
    exact ⟨piece.length, by simp, by rwa [List.drop_left]⟩
  · rintro ⟨k, -, hrest⟩
    exact ⟨text.take k, text.drop k, List.take_append_drop k text, trivial, hrest⟩

/-- Any other token takes the first character. -/
theorem cuts_cons_cons_iff {token : Token} (h : token ≠ .anyRun) {tokens : List Token} {c : Char}
    {text : List Char} : Cuts (token :: tokens) (c :: text) ↔ token.Allows c ∧ Cuts tokens text := by
  rw [cuts_cons_iff]
  constructor
  · rintro ⟨piece, rest, htext, htakes, hrest⟩
    obtain ⟨d, rfl, hallows⟩ := (Token.takes_iff h piece).mp htakes
    obtain ⟨rfl, rfl⟩ := List.cons.inj htext
    exact ⟨hallows, hrest⟩
  · rintro ⟨hallows, hrest⟩
    exact ⟨[c], text, rfl, (Token.takes_iff h [c]).mpr ⟨c, rfl, hallows⟩, hrest⟩

/-- Where no text is left, only `%` can stand for it. -/
theorem cuts_nil_right_iff {tokens : List Token} :
    Cuts tokens [] ↔ ∀ token ∈ tokens, token = .anyRun := by
  induction tokens with
  | nil => simp [cuts_nil_iff]
  | cons token tokens ih =>
    rw [List.forall_mem_cons, ← ih]
    by_cases h : token = .anyRun
    · subst h
      simp [cuts_anyRun_iff]
    · refine iff_of_false ?_ fun hall => h hall.1
      rw [cuts_cons_iff]
      rintro ⟨piece, rest, htext, htakes, -⟩
      obtain ⟨c, rfl, -⟩ := (Token.takes_iff h piece).mp htakes
      cases htext

/-- The tokens from one place on match the text from another place on. -/
def MatchesFrom (tokens : Array Token) (text : Array Char) (i k : ℕ) : Prop :=
  Cuts (tokens.toList.drop i) (text.toList.drop k)

section

variable {tokens : Array Token} {text : Array Char} {token : Token} {i k : ℕ}

theorem drop_of_getElem? (h : tokens[i]? = some token) :
    tokens.toList.drop i = token :: tokens.toList.drop (i + 1) := by
  obtain ⟨hi, rfl⟩ := Array.getElem?_eq_some_iff.mp h
  rw [← Array.getElem_toList, List.drop_eq_getElem_cons (by simpa using hi)]

/-- A run takes any number of characters, also none. -/
theorem matchesFrom_run_iff (h : tokens[i]? = some .anyRun) (hk : k ≤ text.size) :
    MatchesFrom tokens text i k ↔
      ∃ m, k ≤ m ∧ m ≤ text.size ∧ MatchesFrom tokens text (i + 1) m := by
  rw [MatchesFrom, drop_of_getElem? h, cuts_anyRun_iff]
  simp only [List.length_drop, Array.length_toList, List.drop_drop]
  constructor
  · rintro ⟨j, hj, hcuts⟩
    exact ⟨k + j, by omega, by omega, hcuts⟩
  · rintro ⟨m, hkm, hm, hcuts⟩
    exact ⟨m - k, by omega, by rwa [show k + (m - k) = m by omega]⟩

/-- Any other token takes one character, if it allows it. -/
theorem matchesFrom_one_iff (h : tokens[i]? = some token) (htoken : token ≠ .anyRun)
    (hk : k < text.size) :
    MatchesFrom tokens text i k ↔ token.Allows text[k] ∧ MatchesFrom tokens text (i + 1) (k + 1) := by
  have htext : text.toList.drop k = text[k] :: text.toList.drop (k + 1) := by
    rw [List.drop_eq_getElem_cons (by simpa using hk), Array.getElem_toList]
  rw [MatchesFrom, drop_of_getElem? h, htext, cuts_cons_cons_iff htoken, MatchesFrom]

/-- At the end of the text only `%` may be left. -/
theorem matchesFrom_end_iff (hk : text.size ≤ k) :
    MatchesFrom tokens text i k ↔ ∀ token ∈ tokens.toList.drop i, token = .anyRun := by
  have htext : text.toList.drop k = [] := List.drop_eq_nil_of_le (by simpa using hk)
  rw [MatchesFrom, htext, cuts_nil_right_iff]

/-- A number of tokens from a place on stand for one character each. -/
def Ones (tokens : Array Token) (i n : ℕ) : Prop :=
  ∀ j < n, ∃ token, tokens[i + j]? = some token ∧ token ≠ .anyRun

/-- A stretch without runs is longer by a token that is none. -/
theorem Ones.succ {n : ℕ} (h : Ones tokens i n) (htoken : tokens[i + n]? = some token)
    (hne : token ≠ .anyRun) : Ones tokens i (n + 1) := by
  intro j hj
  obtain hlt | rfl := Nat.lt_or_eq_of_le (Nat.le_of_lt_succ hj)
  · exact h j hlt
  · exact ⟨token, htoken, hne⟩

/-- Tokens that stand for one character each take as many characters, in any match. -/
theorem Ones.matchesFrom {n : ℕ} (h : Ones tokens i n) (hk : k ≤ text.size)
    (hmatch : MatchesFrom tokens text i k) :
    k + n ≤ text.size ∧ MatchesFrom tokens text (i + n) (k + n) := by
  induction n with
  | zero => exact ⟨hk, hmatch⟩
  | succ n ih =>
    obtain ⟨hle, hrest⟩ := ih fun j hj => h j (Nat.lt_succ_of_lt hj)
    obtain ⟨token, htoken, hne⟩ := h n (Nat.lt_succ_self n)
    have hlt : k + n < text.size := by
      by_contra hend
      rw [matchesFrom_end_iff (Nat.le_of_not_lt hend), drop_of_getElem? htoken] at hrest
      exact hne (hrest token List.mem_cons_self)
    exact ⟨hlt, ((matchesFrom_one_iff htoken hne hlt).mp hrest).2⟩

end

/-! ## The places a search comes to -/

namespace Cursor

variable {tokens : Array Token} {text : Array Char} {s s' : Cursor}

/-- What holds wherever a search comes: both indexes are in bounds, and since the last `%` every token
has taken one character. -/
structure Sound (tokens : Array Token) (text : Array Char) (s : Cursor) : Prop where
  tokenAt_le : s.tokenAt ≤ tokens.size
  textAt_le : s.textAt ≤ text.size
  ones_of_retry : ∀ r, s.retry = some r →
    ∃ n, s.tokenAt = r.star + 1 + n ∧ s.textAt = r.start + n ∧ Ones tokens (r.star + 1) n

/-- There is a match from here on, or one in which the last `%` takes more than so far. -/
def CanMatch (tokens : Array Token) (text : Array Char) (s : Cursor) : Prop :=
  MatchesFrom tokens text s.tokenAt s.textAt ∨
    ∃ r, s.retry = some r ∧
      ∃ m, r.start < m ∧ m ≤ text.size ∧ MatchesFrom tokens text (r.star + 1) m

/-- The cursor in front of both texts is sound. -/
theorem sound_first : first.Sound tokens text := ⟨Nat.zero_le _, Nat.zero_le _, nofun⟩

theorem canMatch_first_iff : first.CanMatch tokens text ↔ Cuts tokens.toList text.toList := by
  simp [CanMatch, MatchesFrom, first]

/-! ### One turn -/

/-- Remembering a run keeps the cursor sound. -/
theorem Sound.passRun (h : s.Sound tokens text) (hrun : tokens[s.tokenAt]? = some .anyRun) :
    s.passRun.Sound tokens text where
  tokenAt_le := (Array.getElem?_eq_some_iff.mp hrun).1
  textAt_le := h.textAt_le
  ones_of_retry := by
    rintro _ ⟨⟩
    exact ⟨0, rfl, rfl, nofun⟩

/-- Earlier chances are among those of the `%` that is passed: the tokens in between take no more
than one character each, so that this `%` is reached further on in the text. -/
theorem Sound.canMatch_passRun_iff (h : s.Sound tokens text)
    (hrun : tokens[s.tokenAt]? = some .anyRun) :
    s.passRun.CanMatch tokens text ↔ s.CanMatch tokens text := by
  -- remembering the run keeps all its lengths, the empty one at once and the others as retries
  have hhere : s.passRun.CanMatch tokens text ↔ MatchesFrom tokens text s.tokenAt s.textAt := by
    rw [matchesFrom_run_iff hrun h.textAt_le]
    constructor
    · rintro (hmatch | ⟨_, ⟨⟩, m, hlt, hm, hmatch⟩)
      · exact ⟨s.textAt, le_rfl, h.textAt_le, hmatch⟩
      · exact ⟨m, hlt.le, hm, hmatch⟩
    · rintro ⟨m, hle, hm, hmatch⟩
      obtain rfl | hlt := hle.eq_or_lt
      · exact .inl hmatch
      · exact .inr ⟨_, rfl, m, hlt, hm, hmatch⟩
  rw [hhere, CanMatch]
  refine ⟨.inl, ?_⟩
  rintro (hmatch | ⟨r, hr, m, hlt, hm, hmatch⟩)
  · exact hmatch
  -- an earlier run that took more can leave the difference to this one
  · obtain ⟨n, htokenAt, htextAt, hones⟩ := h.ones_of_retry r hr
    obtain ⟨hle, hreached⟩ := hones.matchesFrom hm hmatch
    rw [← htokenAt, matchesFrom_run_iff hrun hle] at hreached
    obtain ⟨m', hm', hle', hmatch'⟩ := hreached
    exact (matchesFrom_run_iff hrun h.textAt_le).mpr ⟨m', by omega, hle', hmatch'⟩

theorem Sound.passOne {token : Token} (h : s.Sound tokens text) (hs : s.textAt < text.size)
    (htoken : tokens[s.tokenAt]? = some token) (hne : token ≠ .anyRun) :
    s.passOne.Sound tokens text where
  tokenAt_le := (Array.getElem?_eq_some_iff.mp htoken).1
  textAt_le := hs
  ones_of_retry r hr := by
    obtain ⟨n, htokenAt, htextAt, hones⟩ := h.ones_of_retry r hr
    exact ⟨n + 1, congrArg (· + 1) htokenAt, congrArg (· + 1) htextAt,
      hones.succ (htokenAt ▸ htoken) hne⟩

/-- A character that is allowed is passed without a choice. -/
theorem canMatch_passOne_iff {token : Token} (hs : s.textAt < text.size)
    (htoken : tokens[s.tokenAt]? = some token) (hallows : token.Allows text[s.textAt]) :
    s.passOne.CanMatch tokens text ↔ s.CanMatch tokens text := by
  have hone := matchesFrom_one_iff htoken hallows.ne_anyRun hs
  rw [CanMatch, CanMatch, hone]
  simp only [hallows, true_and]
  rfl

/-- Going back to the last run keeps it sound. -/
theorem Sound.again {r : Retry} (h : s.Sound tokens text) (hs : s.textAt < text.size)
    (hr : s.retry = some r) : r.again.Sound tokens text := by
  obtain ⟨n, htokenAt, htextAt, -⟩ := h.ones_of_retry r hr
  have htokenAt_le := h.tokenAt_le
  refine ⟨?_, ?_, ?_⟩
  · show r.star + 1 ≤ tokens.size
    omega
  · show r.start + 1 ≤ text.size
    omega
  · rintro _ ⟨⟩
    exact ⟨0, rfl, rfl, nofun⟩

/-- Going back can match exactly if the run can take more. -/
theorem canMatch_again_iff (r : Retry) (hr : r.start < text.size) :
    r.again.CanMatch tokens text ↔
      ∃ m, r.start < m ∧ m ≤ text.size ∧ MatchesFrom tokens text (r.star + 1) m := by
  constructor
  · rintro (hmatch | ⟨_, ⟨⟩, m, hlt, hm, hmatch⟩)
    · exact ⟨r.start + 1, Nat.lt_succ_self _, hr, hmatch⟩
    · exact ⟨m, Nat.lt_of_succ_lt hlt, hm, hmatch⟩
  · rintro ⟨m, hlt, hm, hmatch⟩
    obtain rfl | hlt := (Nat.succ_le_of_lt hlt).eq_or_lt
    · exact .inl hmatch
    · exact .inr ⟨_, rfl, m, hlt, hm, hmatch⟩

/-- Where the next token does not allow the next character, only the last `%` can help. -/
theorem not_matchesFrom_of_stuck (hs : s.textAt < text.size)
    (hstuck : s.Stuck tokens text[s.textAt]) :
    ¬ MatchesFrom tokens text s.tokenAt s.textAt := by
  intro hmatch
  cases htoken : tokens[s.tokenAt]? with
  | none =>
    have hend : tokens.toList.drop s.tokenAt = [] :=
      List.drop_eq_nil_of_le (by simpa using Array.getElem?_eq_none_iff.mp htoken)
    rw [MatchesFrom, hend, cuts_nil_iff, List.drop_eq_nil_iff, Array.length_toList] at hmatch
    omega
  | some token =>
    obtain ⟨hne, hnot⟩ := hstuck token htoken
    exact hnot ((matchesFrom_one_iff htoken hne hs).mp hmatch).1

/-- A turn keeps a search sound, and neither finds nor loses a chance to match. -/
theorem Sound.turn? (h : s.Sound tokens text) (hs : s.textAt < text.size)
    (hturn : s.turn? tokens text[s.textAt] = some s') :
    s'.Sound tokens text ∧ (s'.CanMatch tokens text ↔ s.CanMatch tokens text) := by
  obtain ⟨hrun, hnext⟩ | ⟨token, htoken, hallows, hnext⟩ | ⟨hstuck, hnext⟩ :=
    turn?_cases tokens text[s.textAt] s
  · obtain rfl := Option.some.inj (hnext.symm.trans hturn)
    exact ⟨h.passRun hrun, h.canMatch_passRun_iff hrun⟩
  · obtain rfl := Option.some.inj (hnext.symm.trans hturn)
    exact ⟨h.passOne hs htoken hallows.ne_anyRun, canMatch_passOne_iff hs htoken hallows⟩
  · obtain ⟨r, hr, rfl⟩ := Option.map_eq_some_iff.mp (hnext.symm.trans hturn)
    obtain ⟨n, -, htextAt, -⟩ := h.ones_of_retry r hr
    refine ⟨h.again hs hr, ?_⟩
    rw [canMatch_again_iff r (by omega), CanMatch,
      or_iff_right (not_matchesFrom_of_stuck hs hstuck)]
    simp [hr]

/-- A search that cannot turn has no chance left. -/
theorem not_canMatch_of_turn?_eq_none (hs : s.textAt < text.size)
    (hturn : s.turn? tokens text[s.textAt] = none) : ¬ s.CanMatch tokens text := by
  obtain ⟨-, hnext⟩ | ⟨-, -, -, hnext⟩ | ⟨hstuck, hnext⟩ := turn?_cases tokens text[s.textAt] s
  · cases hnext.symm.trans hturn
  · cases hnext.symm.trans hturn
  · have hretry : s.retry = none := Option.map_eq_none_iff.mp (hnext.symm.trans hturn)
    rintro (hmatch | ⟨r, hr, -⟩)
    · exact not_matchesFrom_of_stuck hs hstuck hmatch
    · cases hretry.symm.trans hr

/-- At the end of the text going back does not help: the tokens since the last `%` would not find
enough characters. -/
theorem Sound.canMatch_end_iff (h : s.Sound tokens text) (hs : ¬ s.textAt < text.size) :
    s.CanMatch tokens text ↔ ∀ token ∈ tokens.toList.drop s.tokenAt, token = .anyRun := by
  rw [← matchesFrom_end_iff (Nat.le_of_not_lt hs), CanMatch, or_iff_left]
  rintro ⟨r, hr, m, hlt, hm, hmatch⟩
  obtain ⟨n, -, htextAt, hones⟩ := h.ones_of_retry r hr
  have hle := (hones.matchesFrom hm hmatch).1
  omega

end Cursor

/-! ## Whole searches -/

section

variable {tokens : Array Token} {text : Array Char} {s s' : Cursor}

theorem search?_of_turn (hs : s.textAt < text.size)
    (hturn : s.turn? tokens text[s.textAt] = some s') :
    search? tokens text s = search? tokens text s' := by
  rw [search?, dif_pos hs]
  split
  · next found hfound => rw [Option.some.inj (hfound.symm.trans hturn)]
  · next hfailed => cases hfailed.symm.trans hturn

/-- A turn with nothing to go back to answers no. -/
theorem search?_of_failed (hs : s.textAt < text.size)
    (hturn : s.turn? tokens text[s.textAt] = none) : search? tokens text s = some false := by
  rw [search?, dif_pos hs]
  split
  · next found hfound => cases hfound.symm.trans hturn
  · rfl

/-- The tokens that are left can be cut off, as the search is not behind the last one. -/
theorem Cursor.Sound.search?_end (h : s.Sound tokens text) (hs : ¬ s.textAt < text.size) :
    search? tokens text s = some ((tokens.toList.drop s.tokenAt).all (· == .anyRun)) := by
  rw [search?, dif_neg hs, tokensFrom?, if_pos h.tokenAt_le, Option.map_some]

/-- From every sound place a search comes to an answer, and the answer tells whether there is a
match. -/
theorem exists_search?_eq_some (h : s.Sound tokens text) :
    ∃ answer, search? tokens text s = some answer ∧
      (answer = true ↔ s.CanMatch tokens text) := by
  induction s using search?.induct tokens text with
  | case1 s hs s' hturn ih =>
    obtain ⟨hsound, hcan⟩ := h.turn? hs hturn
    obtain ⟨answer, hanswer, hiff⟩ := ih hsound
    exact ⟨answer, (search?_of_turn hs hturn).trans hanswer, hiff.trans hcan⟩
  | case2 s hs hturn =>
    have hcan := Cursor.not_canMatch_of_turn?_eq_none hs hturn
    exact ⟨false, search?_of_failed hs hturn, iff_of_false Bool.false_ne_true hcan⟩
  | case3 s hs =>
    refine ⟨_, h.search?_end hs, ?_⟩
    rw [h.canMatch_end_iff hs, List.all_eq_true]
    simp

/-- A turn of the search leads from the second place to the first. -/
def Follows (tokens : Array Token) (text : Array Char) (s' s : Cursor) : Prop :=
  ∃ hs : s.textAt < text.size, s.turn? tokens text[s.textAt] = some s'

/-- No search turns forever, wherever it begins. -/
theorem wellFounded_follows : WellFounded (Follows tokens text) := by
  have hlex : WellFounded (Prod.Lex (· < ·) (Prod.Lex (· < ·) (· < ·)) :
      ℕ × ℕ × ℕ → ℕ × ℕ × ℕ → Prop) :=
    WellFounded.prod_lex wellFounded_lt (WellFounded.prod_lex wellFounded_lt wellFounded_lt)
  refine Subrelation.wf ?_ (InvImage.wf (Cursor.left tokens text) hlex)
  rintro s' s ⟨hs, hturn⟩
  exact Cursor.left_turn? hs hturn

end

/-- Joining runs of percent signs to one token changes no cut. -/
theorem cuts_tokensOf_iff {pattern : String} {text : List Char} :
    Cuts (tokensOf pattern).toList text ↔ ∃ pieces : List (List Char), pieces.flatten = text ∧
      List.Forall₂ Takes pattern.toList pieces := by
  simp only [Cuts, tokensOf, List.toList_toArray, List.forall₂_map_left_iff, Token.takes_ofChar]

/-- **A pattern matches exactly the texts that can be cut into pieces for its characters.** The search
for it does not turn forever, it always comes to an answer, so that the tokens it cuts off at the end
are there, and the answer is yes exactly if the text is made of pieces, one for each character of
the pattern in order, that `%` takes whatever they are, `_` if they are one character, and any other
character if they are that character. -/
theorem isMatch_iff_pieces (pattern text : String) :
    WellFounded (Follows (tokensOf pattern) text.toList.toArray) ∧
      answer? pattern text = some (isMatch pattern text) ∧
      (isMatch pattern text = true ↔ ∃ pieces : List (List Char),
        pieces.flatten = text.toList ∧ List.Forall₂ Takes pattern.toList pieces) := by
  have hfirst : Cursor.first.Sound (tokensOf pattern) text.toList.toArray := Cursor.sound_first
  obtain ⟨answer, hanswer, hiff⟩ := exists_search?_eq_some hfirst
  have hmatch : isMatch pattern text = answer := by
    rw [isMatch, answer?, hanswer, Option.getD_some]
  refine ⟨wellFounded_follows, ?_, ?_⟩
  · rw [hmatch]
    exact hanswer
  · rw [hmatch, hiff, Cursor.canMatch_first_iff, cuts_tokensOf_iff]

end ContentQuery.LikePattern
