/-!
# Cutting a text at a character
-/

namespace ContentQuery.Text

/-- Cut at the first occurrence of a character, which belongs to neither part. -/
def splitAtFirst? (separator : Char) : List Char → Option (List Char × List Char)
  | [] => none
  | c :: rest =>
    if c = separator then some ([], rest)
    else (splitAtFirst? separator rest).map fun (before, after) => (c :: before, after)

/-- The parts of a cut text and the separator make up the text, and the first part lacks it. -/
theorem splitAtFirst?_eq_some {separator : Char} {cs before after : List Char}
    (h : splitAtFirst? separator cs = some (before, after)) :
    cs = before ++ separator :: after ∧ separator ∉ before := by
  induction cs generalizing before with
  | nil => simp [splitAtFirst?] at h
  | cons c rest ih =>
    rw [splitAtFirst?] at h
    split at h
    · simp_all
    · next hc =>
      obtain ⟨⟨b, a⟩, hr, he⟩ := Option.map_eq_some_iff.1 h
      simp only [Prod.mk.injEq] at he
      obtain ⟨rfl, rfl⟩ := he
      obtain ⟨hcs, hmem⟩ := ih hr
      exact ⟨by simp [hcs], by simp [hmem, Ne.symm hc]⟩

end ContentQuery.Text
