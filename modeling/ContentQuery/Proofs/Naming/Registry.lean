import ContentQuery.Naming.Registry
import Mathlib

/-! # The registry pairs prefixes and namespaces one to one

The two maps of a registry are written apart, and registering takes out of each what has been lost
in the other. `Paired` is what this keeps: the maps undo each other.
-/

namespace ContentQuery.Naming

namespace TextMap

@[simp] theorem get?_erase (m : TextMap) (key key' : String) :
    (m.erase key).get? key' = if key' = key then none else m.get? key' := by
  obtain ⟨entries⟩ := m
  simp only [get?, erase]
  -- along the entries; one with the erased key is passed over
  induction entries with
  | nil => simp
  | cons entry rest ih =>
    obtain ⟨first, value⟩ := entry
    by_cases hfirst : first = key
    · subst hfirst
      rw [List.filter_cons_of_neg (by simp), ih]
      by_cases hkey : key' = first
      · simp [hkey]
      · simp [hkey, List.lookup_cons, beq_eq_false_iff_ne.mpr hkey]
    · rw [List.filter_cons_of_pos (by simpa using hfirst), List.lookup_cons, List.lookup_cons, ih]
      by_cases hkey : key' = first
      · simp [hkey, hfirst]
      · simp [beq_eq_false_iff_ne.mpr hkey]

@[simp] theorem get?_insert (m : TextMap) (key value key' : String) :
    (m.insert key value).get? key' = if key' = key then some value else m.get? key' := by
  by_cases hkey : key' = key
  · simp [get?, insert, hkey]
  · have herase := get?_erase m key key'
    rw [if_neg hkey] at herase
    rw [if_neg hkey, ← herase]
    simp [get?, insert, List.lookup_cons, beq_eq_false_iff_ne.mpr hkey]

@[simp] theorem get?_eraseOption (m : TextMap) (old : Option String) (key : String) :
    (m.eraseOption old).get? key = if old = some key then none else m.get? key := by
  cases old <;> simp [eraseOption, eq_comm]

end TextMap

namespace Registry

/-- A prefix has a URI exactly if the URI has the prefix. -/
def Paired (r : Registry) : Prop :=
  ∀ label uri, r.uriOf? label = some uri ↔ r.prefixOf? uri = some label

/-- The prefix is registered. -/
def HasPrefix (r : Registry) (label : String) : Prop := ∃ uri, r.uriOf? label = some uri

/-- A prefix has the namespace that it was registered with last, unless that has moved to another one.
-/
theorem uriOf?_register (r : Registry) (label uri label' : String) :
    (r.register label uri).uriOf? label' = if r.otherPrefix? label uri = some label' then none
      else if label' = label then some uri else r.uriOf? label' := by
  change ((r.uris.insert label uri).eraseOption (r.otherPrefix? label uri)).get? label' = _
  rw [TextMap.get?_eraseOption, TextMap.get?_insert]
  rfl

/-- A namespace has the prefix that it was registered with last, unless that has moved to another one.
-/
theorem prefixOf?_register (r : Registry) (label uri uri' : String) :
    (r.register label uri).prefixOf? uri' = if uri' = uri then some label
      else if r.uriOf? label = some uri' then none else r.prefixOf? uri' := by
  change ((r.prefixes.eraseOption (r.uriOf? label)).insert uri label).get? uri' = _
  rw [TextMap.get?_insert, TextMap.get?_eraseOption]
  rfl

namespace Paired

variable {r : Registry} (h : r.Paired)
include h

/-- The prefix that is taken out is the other one that has the URI. -/
theorem otherPrefix?_eq_some_iff {label uri label' : String} :
    r.otherPrefix? label uri = some label' ↔ label' ≠ label ∧ r.uriOf? label' = some uri := by
  rw [otherPrefix?, Option.filter_eq_some_iff, TextMap.get?_eraseOption, bne_iff_ne, and_comm]
  refine and_congr_right fun hne => ?_
  by_cases hpair : r.uriOf? label = some uri
  · have hprefix := (h label uri).mp hpair
    have hfree : r.uriOf? label' ≠ some uri := fun h' =>
      hne (Option.some_inj.mp (((h label' uri).mp h').symm.trans hprefix))
    simp [hpair, hfree]
  · rw [if_neg hpair]
    exact (h label' uri).symm

/-- A pair is the new one, or an old one that shares neither side with it. -/
theorem uriOf?_register_eq_some_iff {label uri label' uri' : String} :
    (r.register label uri).uriOf? label' = some uri' ↔ label' = label ∧ uri' = uri ∨
      label' ≠ label ∧ uri' ≠ uri ∧ r.uriOf? label' = some uri' := by
  rw [uriOf?_register]
  simp only [h.otherPrefix?_eq_some_iff]
  grind

/-- A registration adds one pair and drops those that have a part of it. -/
theorem prefixOf?_register_eq_some_iff {label uri label' uri' : String} :
    (r.register label uri).prefixOf? uri' = some label' ↔ label' = label ∧ uri' = uri ∨
      label' ≠ label ∧ uri' ≠ uri ∧ r.prefixOf? uri' = some label' := by
  rw [prefixOf?_register]
  have hpair := h label uri'
  grind

/-- Registering keeps the maps inverse. -/
theorem register (label uri : String) : (r.register label uri).Paired := by
  intro label' uri'
  rw [h.uriOf?_register_eq_some_iff, h.prefixOf?_register_eq_some_iff, h label' uri']

end Paired

/-- Registrations keep both maps inverse to each other. -/
theorem Paired.registerAll {r : Registry} (h : r.Paired) (calls : List (String × String)) :
    (r.registerAll calls).Paired := by
  induction calls generalizing r with
  | nil => exact h
  | cons call rest ih => exact ih (h.register call.1 call.2)

/-- The prefixes that are there from the start have one namespace each. -/
theorem paired_standard : standard.Paired :=
  Paired.registerAll (r := empty) (fun _ _ => by simp [uriOf?, prefixOf?, empty, TextMap.get?]) _

/-- A registry that was reached by registering is paired. -/
theorem paired_registerAll_standard (calls : List (String × String)) :
    (standard.registerAll calls).Paired :=
  paired_standard.registerAll calls

/-- **Prefixes and namespaces stay paired one to one.** Whatever has been registered, a prefix has a
URI exactly if the URI has the prefix. One more registration gives the prefix its URI, and takes that
URI from the prefix that had it and the old URI of the prefix from the other map; all other entries
of both maps stay. -/
theorem registered_one_to_one (calls : List (String × String)) :
    let r : Registry := standard.registerAll calls
    (∀ label uri, r.uriOf? label = some uri ↔ r.prefixOf? uri = some label) ∧
      ∀ label uri,
        (∀ label', (r.register label uri).uriOf? label' =
          if label' = label then some uri
          else if r.uriOf? label' = some uri then none else r.uriOf? label') ∧
        ∀ uri', (r.register label uri).prefixOf? uri' =
          if uri' = uri then some label
          else if r.uriOf? label = some uri' then none else r.prefixOf? uri' := by
  intro r
  have hr : r.Paired := paired_registerAll_standard calls
  refine ⟨hr, fun label uri => ⟨fun label' => ?_, r.prefixOf?_register label uri⟩⟩
  -- the prefix that gives way is the other one that the namespace had
  have hother : r.otherPrefix? label uri = some label' ↔ label' ≠ label ∧ r.uriOf? label' = some uri :=
    hr.otherPrefix?_eq_some_iff
  rw [uriOf?_register]
  by_cases hlabel : label' = label
  · rw [if_neg (fun h => (hother.mp h).1 hlabel), if_pos hlabel, if_pos hlabel]
  · rw [if_neg hlabel, if_neg hlabel]
    by_cases huri : r.uriOf? label' = some uri
    · rw [if_pos (hother.mpr ⟨hlabel, huri⟩), if_pos huri]
    · rw [if_neg (fun h => huri (hother.mp h).2), if_neg huri]

/-- Two URIs with one prefix are one URI. -/
theorem Paired.uri_eq_of_prefixOf? {r : Registry} (h : r.Paired) {label uri uri' : String}
    (hu : r.prefixOf? uri = some label) (hu' : r.prefixOf? uri' = some label) : uri = uri' :=
  Option.some_inj.mp (((h label uri).mpr hu).symm.trans ((h label uri').mpr hu'))

/-- A prefix that a URI has is registered. -/
theorem Paired.hasPrefix {r : Registry} (h : r.Paired) {label uri : String}
    (hu : r.prefixOf? uri = some label) : r.HasPrefix label :=
  ⟨uri, (h label uri).mpr hu⟩

/-- Registering adds no other prefix. -/
theorem HasPrefix.of_register {r : Registry} {label uri label' : String}
    (h : (r.register label uri).HasPrefix label') : label' = label ∨ r.HasPrefix label' := by
  obtain ⟨uri', huri'⟩ := h
  by_cases heq : label' = label
  · exact .inl heq
  · right
    rw [uriOf?_register, if_neg heq] at huri'
    split at huri'
    · exact absurd huri' (by simp)
    · exact ⟨uri', huri'⟩

/-- A prefix was registered before or is among the calls. -/
theorem HasPrefix.of_registerAll {r : Registry} {calls : List (String × String)} {label : String}
    (h : (r.registerAll calls).HasPrefix label) :
    r.HasPrefix label ∨ ∃ call ∈ calls, call.1 = label := by
  induction calls generalizing r with
  | nil => exact .inl h
  | cons call rest ih =>
    rcases ih h with hreg | ⟨later, hlater, heq⟩
    · rcases hreg.of_register with rfl | hold
      · exact .inr ⟨call, List.mem_cons_self, rfl⟩
      · exact .inl hold
    · exact .inr ⟨later, List.mem_cons_of_mem call hlater, heq⟩

theorem not_hasPrefix_empty (label : String) : ¬ empty.HasPrefix label := by
  simp [HasPrefix, uriOf?, empty, TextMap.get?]

end Registry

end ContentQuery.Naming
