import ContentQuery.Filter.Schedule
import Mathlib

/-! # What a schedule does

An event moves one tuple one stage on, or none. So a tuple that has left the first stage has been
checked, and one that has reached the last has been finished once: every tuple of a batch sees the
flag, and the tuples are finished in some order of all of them.
-/

namespace ContentQuery.Filter

/-! ## Events -/

/-- An event changes the flag, or takes one tuple from its stage to the next. -/
theorem BatchEvent.step?_cases {event : BatchEvent} {stages stages' : List Stage}
    (h : event.step? stages = some stages') :
    ((event = .flag .cancel ∨ event = .flag .reset) ∧ stages' = stages) ∨
      ∃ place before after, stages[place]? = some before ∧ stages' = stages.set place after ∧
        ((event = .flag (.check place) ∧ before = .waiting ∧ after = .checked) ∨
          (event = .evaluate place ∧ before = .checked ∧ after = .evaluated) ∨
          (event = .finish place ∧ before = .evaluated ∧ after = .finished)) := by
  -- checking, evaluating and finishing move one place on by a stage
  have hadvance : ∀ {place before after}, advance? stages place before after = some stages' →
      stages[place]? = some before ∧ stages' = stages.set place after := by
    intro place before after hmove
    unfold advance? at hmove
    split at hmove
    · next hstage => exact ⟨hstage, (Option.some.inj hmove).symm⟩
    · cases hmove
  cases event with
  | flag change =>
    cases change with
    | cancel => exact .inl ⟨.inl rfl, (Option.some.inj h).symm⟩
    | reset => exact .inl ⟨.inr rfl, (Option.some.inj h).symm⟩
    | check place =>
      obtain ⟨hstage, hset⟩ := hadvance h
      exact .inr ⟨place, _, _, hstage, hset, .inl ⟨rfl, rfl, rfl⟩⟩
  | evaluate place =>
    obtain ⟨hstage, hset⟩ := hadvance h
    exact .inr ⟨place, _, _, hstage, hset, .inr (.inl ⟨rfl, rfl, rfl⟩)⟩
  | finish place =>
    obtain ⟨hstage, hset⟩ := hadvance h
    exact .inr ⟨place, _, _, hstage, hset, .inr (.inr ⟨rfl, rfl, rfl⟩)⟩

/-- A row of events can happen if its first one can and the others can after it. -/
theorem runEvents?_cons_eq_some_iff {event : BatchEvent} {rest : List BatchEvent}
    {stages stages' : List Stage} : runEvents? stages (event :: rest) = some stages' ↔
      ∃ next, event.step? stages = some next ∧ runEvents? next rest = some stages' :=
  Option.bind_eq_some_iff

/-- Only a look at the flag takes a tuple out of the first stage. -/
theorem BatchEvent.check_of_step? {event : BatchEvent} {stages stages' : List Stage} {k : Nat}
    (h : event.step? stages = some stages') (hk : stages[k]? = some .waiting) :
    stages'[k]? = some .waiting ∨ event.flagEvent? = some (.check k) := by
  rcases step?_cases h with ⟨-, rfl⟩ | ⟨place, before, after, hstage, rfl, hmove⟩
  · exact .inl hk
  · by_cases hplace : place = k
    · subst hplace
      rw [hk, Option.some.injEq] at hstage
      subst hstage
      rcases hmove with ⟨rfl, -⟩ | ⟨-, hbefore, -⟩ | ⟨-, hbefore, -⟩
      · exact .inr rfl
      · cases hbefore
      · cases hbefore
    · rw [List.getElem?_set_ne hplace]
      exact .inl hk

/-- A tuple reaches the last stage when it is finished, and stays there. -/
theorem BatchEvent.count_finished_step? {event : BatchEvent} {stages stages' : List Stage}
    (h : event.step? stages = some stages') (k : Nat) :
    (if event.finished? = some k then 1 else 0) + (if stages[k]? = some .finished then 1 else 0) =
      if stages'[k]? = some .finished then 1 else 0 := by
  rcases step?_cases h with ⟨hevent, rfl⟩ | ⟨place, before, after, hstage, rfl, hmove⟩
  · rcases hevent with rfl | rfl <;> simp [finished?]
  · by_cases hplace : place = k
    · subst hplace
      rw [List.getElem?_set_self (List.getElem?_eq_some_iff.mp hstage).1, hstage]
      rcases hmove with ⟨rfl, rfl, rfl⟩ | ⟨rfl, rfl, rfl⟩ | ⟨rfl, rfl, rfl⟩ <;> simp [finished?]
    · rw [List.getElem?_set_ne hplace]
      rcases hmove with ⟨rfl, -⟩ | ⟨rfl, -⟩ | ⟨rfl, -⟩ <;> simp [finished?, hplace]

/-! ## Rows of events -/

/-- A tuple that leaves the first stage is checked on the way. -/
theorem check_mem_of_runEvents? {events : List BatchEvent} {stages stages' : List Stage} {k : Nat}
    (h : runEvents? stages events = some stages') (hk : stages[k]? = some .waiting)
    (hk' : stages'[k]? ≠ some .waiting) :
    FlagEvent.check k ∈ events.filterMap BatchEvent.flagEvent? := by
  induction events generalizing stages with
  | nil =>
    cases h
    exact absurd hk hk'
  | cons event rest ih =>
    obtain ⟨next, hstep, hrest⟩ := runEvents?_cons_eq_some_iff.mp h
    rcases BatchEvent.check_of_step? hstep hk with hwaits | hcheck
    · have hmem := ih hrest hwaits
      rw [List.mem_filterMap] at hmem ⊢
      obtain ⟨later, hlater, heq⟩ := hmem
      exact ⟨later, List.mem_cons_of_mem event hlater, heq⟩
    · exact List.mem_filterMap.mpr ⟨event, List.mem_cons_self, hcheck⟩

/-- A tuple is finished once if it reaches the last stage, and else not at all. -/
theorem count_finished_runEvents? {events : List BatchEvent} {stages stages' : List Stage}
    (h : runEvents? stages events = some stages') (k : Nat) :
    (events.filterMap BatchEvent.finished?).count k +
      (if stages[k]? = some .finished then 1 else 0) =
        if stages'[k]? = some .finished then 1 else 0 := by
  induction events generalizing stages with
  | nil =>
    cases h
    simp
  | cons event rest ih =>
    obtain ⟨next, hstep, hrest⟩ := runEvents?_cons_eq_some_iff.mp h
    -- each event counts for itself, and the rest by induction
    have hcons : ((event :: rest).filterMap BatchEvent.finished?).count k =
        (if event.finished? = some k then 1 else 0) +
          (rest.filterMap BatchEvent.finished?).count k := by
      rw [List.filterMap_cons]
      cases event.finished? with
      | none => simp
      | some place => simp [List.count_cons, Nat.add_comm]
    rw [hcons, ← ih hrest, ← BatchEvent.count_finished_step? hstep k]
    omega

/-! ## The flag -/

section Flag

variable {k : Nat} {before rest events : List FlagEvent}

/-- Events that leave the flag as it is leave it so one after the other. -/
theorem foldl_apply_eq {flag : Bool} (h : ∀ event ∈ events, event.apply flag = flag) :
    events.foldl FlagEvent.apply flag = flag := by
  induction events with
  | nil => rfl
  | cons event rest ih =>
    rw [List.forall_mem_cons] at h
    rw [List.foldl_cons, h.1, ih h.2]

/-- Only a reset clears the flag. -/
theorem foldl_apply_of_not_reset (h : FlagEvent.reset ∉ events) :
    events.foldl FlagEvent.apply true = true := by
  refine foldl_apply_eq fun event hevent => ?_
  cases event with
  | cancel | check => rfl
  | reset => exact absurd hevent h

/-- Only a cancel sets the flag. -/
theorem foldl_apply_of_not_cancel (h : FlagEvent.cancel ∉ events) :
    events.foldl FlagEvent.apply false = false := by
  refine foldl_apply_eq fun event hevent => ?_
  cases event with
  | cancel => exact absurd hevent h
  | reset | check => rfl

/-- What happens in front of the look at the flag changes what is seen as it changes the flag. -/
theorem flagSeen_append (h : FlagEvent.check k ∉ before) (flag : Bool) :
    flagSeen flag k (before ++ rest) = flagSeen (before.foldl FlagEvent.apply flag) k rest := by
  induction before generalizing flag with
  | nil => rfl
  | cons event before ih =>
    rw [List.mem_cons, not_or] at h
    rw [List.cons_append, flagSeen, if_neg (Ne.symm h.1), ih h.2, List.foldl_cons]

/-- A tuple sees the flag as the events in front of the look at it leave it. -/
theorem flagSeen_append_check (h : FlagEvent.check k ∉ before) (flag : Bool) :
    flagSeen flag k (before ++ .check k :: rest) = some (before.foldl FlagEvent.apply flag) := by
  rw [flagSeen_append h, flagSeen, if_pos rfl]

/-- **A cancel is seen** by every tuple that is checked later, unless a reset comes in between. -/
theorem flagSeen_of_cancel (before between : List FlagEvent) (hbefore : FlagEvent.check k ∉ before)
    (hbetween : FlagEvent.check k ∉ between) (hreset : FlagEvent.reset ∉ between) (flag : Bool) :
    flagSeen flag k (before ++ .cancel :: (between ++ .check k :: rest)) = some true := by
  rw [flagSeen_append hbefore, flagSeen, if_neg nofun, FlagEvent.apply,
    flagSeen_append_check hbetween, foldl_apply_of_not_reset hreset]

/-- **A reset is seen** by every tuple that is checked later, unless a cancel comes in between. -/
theorem flagSeen_of_reset (before between : List FlagEvent) (hbefore : FlagEvent.check k ∉ before)
    (hbetween : FlagEvent.check k ∉ between) (hcancel : FlagEvent.cancel ∉ between) (flag : Bool) :
    flagSeen flag k (before ++ .reset :: (between ++ .check k :: rest)) = some false := by
  rw [flagSeen_append hbefore, flagSeen, if_neg nofun, FlagEvent.apply,
    flagSeen_append_check hbetween, foldl_apply_of_not_cancel hcancel]

/-- A tuple that is checked sees the flag. -/
theorem exists_flagSeen (h : FlagEvent.check k ∈ events) (flag : Bool) :
    ∃ seen, flagSeen flag k events = some seen := by
  obtain ⟨before, rest, rfl, hbefore⟩ := List.eq_append_cons_of_mem h
  exact ⟨_, flagSeen_append_check hbefore flag⟩

/-- A flag that is never cleared stays set. -/
theorem flagSeen_of_not_reset (h : FlagEvent.check k ∈ events) (hreset : FlagEvent.reset ∉ events) :
    flagSeen true k events = some true := by
  obtain ⟨before, rest, rfl, hbefore⟩ := List.eq_append_cons_of_mem h
  rw [List.mem_append, not_or] at hreset
  rw [flagSeen_append_check hbefore, foldl_apply_of_not_reset hreset.1]

end Flag

/-! ## Schedules -/

/-- The items of a list taken by their places. -/
theorem filterMap_range_getElem? {α β : Type} (items : List α) (f : α → β) :
    (List.range items.length).filterMap (fun place => items[place]?.map f) = items.map f := by
  induction items using List.reverseRecOn with
  | nil => rfl
  | append_singleton items item ih =>
    have hfront : ∀ place ∈ List.range items.length,
        (items ++ [item])[place]?.map f = items[place]?.map f := by
      intro place hplace
      rw [List.getElem?_append_left (List.mem_range.mp hplace)]
    rw [List.length_append, List.length_singleton, List.range_succ, List.filterMap_append,
      List.filterMap_congr hfront, ih]
    simp

namespace Schedule

variable {size : Nat} (s : Schedule size)

theorem check_mem_flagEvents {k : Nat} (hk : k < size) : FlagEvent.check k ∈ s.flagEvents :=
  check_mem_of_runEvents? s.complete (by simp [hk]) (by simp [hk])

/-- Every tuple sees the flag. -/
theorem seen_eq_some {k : Nat} (hk : k < size) (flag : Bool) :
    s.seen flag k = some (s.cancelled flag k) := by
  obtain ⟨seen, hseen⟩ := exists_flagSeen (s.check_mem_flagEvents hk) flag
  have hsome : s.seen flag k = some seen := hseen
  rw [cancelled, hsome]
  cases seen <;> rfl

/-- Every tuple is finished once. -/
theorem perm_order : s.order.Perm (List.range size) := by
  refine List.perm_iff_count.mpr fun k => ?_
  have hcount := count_finished_runEvents? s.complete k
  rw [List.count_range]
  simpa [List.getElem?_replicate, order] using hcount

/-- The executor of a schedule runs every item once. -/
theorem runsOnce_executor {α β : Type} {items : List α} (hsize : items.length = size) :
    Executor.RunsOnce (s.executor : Executor α β) items := by
  subst hsize
  intro f
  have hrange := s.perm_order.filterMap fun place => items[place]?.map f
  rwa [filterMap_range_getElem?] at hrange

end Schedule

end ContentQuery.Filter
