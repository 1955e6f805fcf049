/-!
# Patterns

A pattern is matched against a whole text, character by character: `%` stands for any run of
characters, `_` for any one character, and every other character, the backslash included, for
itself.

The search walks through pattern and text with an index into each. A `%` stands for no characters at
first. Where the pattern does not allow the next character, the search goes back to the last `%` it
has passed and lets that one stand for one character more; earlier ones are not tried again. At the
end of the text it cuts off the tokens that are left, which must all be `%`.
-/

namespace ContentQuery.LikePattern

/-- What one character of a pattern stands for. -/
inductive Token
  | anyRun
  | anyOne
  | char (c : Char)
  deriving DecidableEq

/-- The meaning of a pattern character. -/
def Token.ofChar (c : Char) : Token :=
  if c = '%' then anyRun else if c = '_' then anyOne else char c

/-- The token stands for one character and may stand for this one. -/
def Token.Allows : Token → Char → Prop
  | anyRun, _ => False
  | anyOne, _ => True
  | char d, c => d = c

/-- The last `%` that a search has passed. -/
structure Retry where
  /-- Its index among the tokens. -/
  star : Nat
  /-- The index in the text from which the tokens behind it are being tried. -/
  start : Nat
  deriving DecidableEq

/-- Where a search stands: the indexes of the next character and of the next token. -/
structure Cursor where
  textAt : Nat
  tokenAt : Nat
  retry : Option Retry
  deriving DecidableEq

/-- Back at a `%`, which now stands for one character more. -/
def Retry.again (r : Retry) : Cursor := ⟨r.start + 1, r.star + 1, some ⟨r.star, r.start + 1⟩⟩

namespace Cursor

/-- The beginning of a search. -/
def first : Cursor := ⟨0, 0, none⟩

/-- Past a `%`, which stands for no characters so far. -/
def passRun (s : Cursor) : Cursor := ⟨s.textAt, s.tokenAt + 1, some ⟨s.tokenAt, s.textAt⟩⟩

/-- Past one character and the token that allows it. -/
def passOne (s : Cursor) : Cursor := ⟨s.textAt + 1, s.tokenAt + 1, s.retry⟩

/-- Back at the last `%`, if there is one. -/
def back? (s : Cursor) : Option Cursor := s.retry.map Retry.again

/-- One turn of a search, at a character of the text; none if the search has failed. -/
def turn? (tokens : Array Token) (c : Char) (s : Cursor) : Option Cursor :=
  match tokens[s.tokenAt]? with
  | some .anyRun => some s.passRun
  | some .anyOne => some s.passOne
  | some (.char d) => if d = c then some s.passOne else s.back?
  | none => s.back?

/-- There is no next token, or it stands for one character but not for this one. -/
def Stuck (tokens : Array Token) (c : Char) (s : Cursor) : Prop :=
  ∀ token, tokens[s.tokenAt]? = some token → token ≠ .anyRun ∧ ¬ token.Allows c

/-- A turn passes a `%`, or passes a character that the next token allows, or else goes back. -/
theorem turn?_cases (tokens : Array Token) (c : Char) (s : Cursor) :
    (tokens[s.tokenAt]? = some .anyRun ∧ s.turn? tokens c = some s.passRun) ∨
      (∃ token, tokens[s.tokenAt]? = some token ∧ token.Allows c ∧
        s.turn? tokens c = some s.passOne) ∨
      (s.Stuck tokens c ∧ s.turn? tokens c = s.back?) := by
  cases htoken : tokens[s.tokenAt]? with
  | none =>
    refine .inr (.inr ⟨fun token h => ?_, by rw [turn?, htoken]⟩)
    rw [htoken] at h
    cases h
  | some token =>
    cases token with
    | anyRun => exact .inl ⟨rfl, by rw [turn?, htoken]⟩
    | anyOne => exact .inr (.inl ⟨.anyOne, rfl, trivial, by rw [turn?, htoken]⟩)
    | char d =>
      by_cases hd : d = c
      · exact .inr (.inl ⟨.char d, rfl, hd, by simp only [turn?, htoken, if_pos hd]⟩)
      · refine .inr (.inr ⟨fun token h => ?_, by simp only [turn?, htoken, if_neg hd]⟩)
        rw [htoken] at h
        cases h
        exact ⟨nofun, hd⟩

/-- What is left of a search: the tokens behind the last `%` passed, the characters behind the place
from which they are tried, and the tokens to come. -/
def left (tokens : Array Token) (text : Array Char) (s : Cursor) : Nat × Nat × Nat :=
  (tokens.size - min (s.retry.elim 0 (·.star + 1)) s.tokenAt,
    text.size - min (s.retry.elim 0 (·.start)) s.textAt,
    tokens.size - s.tokenAt)

/-- Every turn leaves less, in the order in which the first number that differs decides. The minima
in `left` make this so for all cursors, also for those with a last `%` ahead of them. -/
theorem left_turn? {tokens : Array Token} {text : Array Char} {c : Char} {s s' : Cursor}
    (hs : s.textAt < text.size) (h : s.turn? tokens c = some s') :
    Prod.Lex (· < ·) (Prod.Lex (· < ·) (· < ·)) (s'.left tokens text) (s.left tokens text) := by
  rw [Prod.lex_def, Prod.lex_def]
  obtain ⟨hrun, hturn⟩ | ⟨token, htoken, -, hturn⟩ | ⟨-, hturn⟩ := turn?_cases tokens c s
  · -- a `%` is passed, so that fewer tokens are behind the last one
    obtain rfl := Option.some.inj (hturn.symm.trans h)
    have hlt : s.tokenAt < tokens.size := (Array.getElem?_eq_some_iff.mp hrun).1
    simp only [left, passRun, Option.elim_some]
    omega
  · obtain rfl := Option.some.inj (hturn.symm.trans h)
    have hlt : s.tokenAt < tokens.size := (Array.getElem?_eq_some_iff.mp htoken).1
    simp only [left, passOne]
    omega
  · -- the last `%` is the same, and its tokens are tried one character later
    obtain ⟨r, hr, rfl⟩ := Option.map_eq_some_iff.mp (hturn.symm.trans h)
    simp only [left, Retry.again, hr, Option.elim_some]
    omega

end Cursor

/-- The tokens from an index on, which may be the end but not lie behind it. -/
def tokensFrom? (tokens : Array Token) (i : Nat) : Option (List Token) :=
  if i ≤ tokens.size then some (tokens.toList.drop i) else none

/-- The answer of a search, turn by turn up to the end of the text; none if the tokens that are left
cannot be cut off. -/
def search? (tokens : Array Token) (text : Array Char) (s : Cursor) : Option Bool :=
  if hs : s.textAt < text.size then
    match hturn : s.turn? tokens text[s.textAt] with
    | some s' => search? tokens text s'
    | none => some false
  else (tokensFrom? tokens s.tokenAt).map fun rest => rest.all (· == .anyRun)
termination_by s.left tokens text
decreasing_by exact Cursor.left_turn? hs hturn

/-- The tokens of a pattern. -/
def tokensOf (pattern : String) : Array Token := (pattern.toList.map Token.ofChar).toArray

/-- The answer of the search for a pattern in a text. -/
def answer? (pattern text : String) : Option Bool :=
  search? (tokensOf pattern) text.toList.toArray .first

/-- Whether a pattern matches a whole text. -/
def isMatch (pattern text : String) : Bool := (answer? pattern text).getD false

end ContentQuery.LikePattern
