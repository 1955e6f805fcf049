import ContentQuery.Evaluation.Verdict
import ContentQuery.Proofs.Evaluation.Operand
import ContentQuery.Proofs.Tree.Rearranged

/-! # Comparisons with any of several values

A value decides a comparison by holding or by failing. The search ends at the first one that does, so
the comparison has the outcome of that value. A value that holds is therefore found unless one before
it fails, and the order of the values does not matter exactly if those that decide have one outcome.
-/

namespace ContentQuery

open Naming

/-! ## The value that decides -/

namespace Value

variable {names : Registry} {operator : Operator} {fixed : Value} {vs vs' : List Value}

/-- The operator holds between a value and the fixed one, or cannot be applied to them. -/
def Decides (names : Registry) (operator : Operator) (fixed v : Value) : Prop :=
  v.satisfies names operator fixed ≠ .ok false

instance (v : Value) : Decidable (Decides names operator fixed v) :=
  inferInstanceAs (Decidable (¬ _))

/-- The values that decide do so in one way. -/
def OneOutcome (names : Registry) (operator : Operator) (fixed : Value) (vs : List Value) : Prop :=
  ∀ v ∈ vs, ∀ w ∈ vs, Decides names operator fixed v → Decides names operator fixed w →
    v.satisfies names operator fixed = w.satisfies names operator fixed

/-- The operator holds for a value, but the first value that decides does so by failing. -/
def FailsFirst (names : Registry) (operator : Operator) (fixed : Value) (vs : List Value) : Prop :=
  ∃ before v after, vs = before ++ v :: after ∧ (∀ u ∈ before, ¬ Decides names operator fixed u) ∧
    (∃ e, v.satisfies names operator fixed = .error e) ∧
      ∃ w ∈ after, w.satisfies names operator fixed = .ok true

/-- The outcome of the first value that decides; if none does, the operator holds for none. -/
def firstOutcome (names : Registry) (operator : Operator) (fixed : Value) (vs : List Value) :
    Except ResolveError Bool :=
  match vs.find? (Decides names operator fixed ·) with
  | some v => v.satisfies names operator fixed
  | none => .ok false

/-- None of the values decides, or there is a first one that does. -/
theorem firstOutcome_cases (names : Registry) (operator : Operator) (fixed : Value)
    (vs : List Value) :
    (firstOutcome names operator fixed vs = .ok false ∧
        ∀ v ∈ vs, ¬ Decides names operator fixed v) ∨
      ∃ before v after, vs = before ++ v :: after ∧
        (∀ u ∈ before, ¬ Decides names operator fixed u) ∧ Decides names operator fixed v ∧
          firstOutcome names operator fixed vs = v.satisfies names operator fixed := by
  rw [firstOutcome]
  -- the loop stops at the first value that decides
  cases hfind : vs.find? (Decides names operator fixed ·) with
  | none =>
    rw [List.find?_eq_none] at hfind
    exact .inl ⟨rfl, fun v hv => by simpa using hfind v hv⟩
  | some v =>
    obtain ⟨hv, before, after, hvs, hbefore⟩ := List.find?_eq_some_iff_append.mp hfind
    exact .inr ⟨before, v, after, hvs, fun u hu => by simpa using hbefore u hu,
      of_decide_eq_true hv, rfl⟩

/-- Values in front that decide nothing are passed over. -/
theorem firstOutcome_of_first {before after : List Value} {v : Value}
    (hbefore : ∀ u ∈ before, ¬ Decides names operator fixed u)
    (hv : Decides names operator fixed v) :
    firstOutcome names operator fixed (before ++ v :: after) = v.satisfies names operator fixed := by
  have hfind : (before ++ v :: after).find? (Decides names operator fixed ·) = some v :=
    List.find?_eq_some_iff_append.mpr ⟨decide_eq_true hv, before, after, rfl,
      fun u hu => by simpa using hbefore u hu⟩
  rw [firstOutcome, hfind]

theorem decides_of_holds {v : Value} (hv : v.satisfies names operator fixed = .ok true) :
    Decides names operator fixed v := by
  simp [Decides, hv]

theorem decides_of_fails {v : Value} {e : ResolveError}
    (hv : v.satisfies names operator fixed = .error e) : Decides names operator fixed v := by
  simp [Decides, hv]

/-- The first value decides if it decides at all. -/
theorem firstOutcome_cons {v : Value} (hv : Decides names operator fixed v) (vs : List Value) :
    firstOutcome names operator fixed (v :: vs) = v.satisfies names operator fixed := by
  rw [firstOutcome, List.find?_cons, decide_eq_true hv]

/-- A value for which the operator holds makes the outcome positive unless another one fails
first. -/
theorem firstOutcome_holds_iff :
    ((∃ v ∈ vs, v.satisfies names operator fixed = .ok true) →
      firstOutcome names operator fixed vs = .ok true) ↔ ¬ FailsFirst names operator fixed vs := by
  constructor
  · rintro h ⟨before, v, after, rfl, hbefore, ⟨e, he⟩, w, hw, hholds⟩
    have htrue := h ⟨w, by simp [hw], hholds⟩
    rw [firstOutcome_of_first hbefore (decides_of_fails he), he] at htrue
    cases htrue
  · rintro h ⟨w, hw, hholds⟩
    have hdecides := decides_of_holds hholds
    obtain ⟨-, hnone⟩ | ⟨before, v, after, rfl, hbefore, hv, hfirst⟩ :=
      firstOutcome_cases names operator fixed vs
    · exact absurd hdecides (hnone w hw)
    · rw [hfirst]
      rcases hsat : v.satisfies names operator fixed with e | _ | _
      · -- the value that holds is neither the one that fails nor before it
        refine absurd ⟨before, v, after, rfl, hbefore, ⟨e, hsat⟩, w, ?_, hholds⟩ h
        rcases List.mem_append.mp hw with hw | hw
        · exact absurd hdecides (hbefore w hw)
        · rcases List.mem_cons.mp hw with rfl | hw
          · rw [hsat] at hholds
            cases hholds
          · exact hw
      · exact absurd hsat hv
      · rfl

/-- The outcome is that of every value that decides, if they have one. -/
theorem firstOutcome_of_oneOutcome (h : OneOutcome names operator fixed vs) {v : Value}
    (hmem : v ∈ vs) (hv : Decides names operator fixed v) :
    firstOutcome names operator fixed vs = v.satisfies names operator fixed := by
  obtain ⟨-, hnone⟩ | ⟨before, w, after, rfl, -, hw, hfirst⟩ :=
    firstOutcome_cases names operator fixed vs
  · exact absurd hv (hnone v hmem)
  · rw [hfirst, h w (by simp) v hmem hw hv]

/-- Where all values that decide agree, their order does not matter. -/
theorem firstOutcome_perm (h : OneOutcome names operator fixed vs) (hperm : vs.Perm vs') :
    firstOutcome names operator fixed vs' = firstOutcome names operator fixed vs := by
  obtain ⟨hfirst, hnone⟩ | ⟨before, w, after, hvs', -, hw, hfirst⟩ :=
    firstOutcome_cases names operator fixed vs'
  · rw [hfirst]
    obtain ⟨hfirst', -⟩ | ⟨before, w, after, rfl, -, hw, -⟩ :=
      firstOutcome_cases names operator fixed vs
    · exact hfirst'.symm
    · exact absurd hw (hnone w (hperm.mem_iff.mp (by simp)))
  · have hmem : w ∈ vs := hperm.mem_iff.mpr (by simp [hvs'])
    rw [hfirst, firstOutcome_of_oneOutcome h hmem hw]

/-- The order does not matter exactly if there is one outcome. -/
theorem firstOutcome_perm_iff :
    (∀ vs', vs.Perm vs' →
      firstOutcome names operator fixed vs' = firstOutcome names operator fixed vs) ↔
      OneOutcome names operator fixed vs := by
  refine ⟨fun h v hv w hw hdv hdw => ?_, fun h vs' hperm => firstOutcome_perm h hperm⟩
  -- each of the two can be put in front
  obtain ⟨rest, hrest⟩ : ∃ rest, vs.Perm (v :: rest) := ⟨_, List.perm_cons_erase hv⟩
  obtain ⟨rest', hrest'⟩ : ∃ rest, vs.Perm (w :: rest) := ⟨_, List.perm_cons_erase hw⟩
  rw [← firstOutcome_cons hdv rest, ← firstOutcome_cons hdw rest', h _ hrest, h _ hrest']

end Value

namespace Context

variable {ctx : Context} {tuple : NodeTuple} {operator : Operator} {fixed : Value}

/-- The verdict on an outcome. -/
def verdictOf (outcome : Except ResolveError Bool) : Eval Verdict :=
  (Eval.ofResolve outcome).map .ofBool

theorem verdictOf_injective : Function.Injective verdictOf := by
  rintro (e | b) (e' | b') h
  · cases h
    rfl
  · cases h
  · cases h
  · cases b <;> cases b' <;> first | rfl | cases h

/-- The search gives the outcome of the first value that decides. -/
theorem anyValue_eq_verdictOf (vs : List Value) : ctx.anyValue operator fixed vs =
    verdictOf (Value.firstOutcome ctx.names operator fixed vs) := by
  induction vs with
  | nil => rfl
  | cons v vs ih =>
    rw [anyValue]
    rcases hsat : v.satisfies ctx.names operator fixed with e | _ | _
    · rw [Value.firstOutcome_cons (Value.decides_of_fails hsat), hsat]
      rfl
    · have hv : ¬ Value.Decides ctx.names operator fixed v := by simp [Value.Decides, hsat]
      rw [Value.firstOutcome, List.find?_cons, decide_eq_false hv]
      exact ih
    · rw [Value.firstOutcome_cons (Value.decides_of_holds hsat), hsat]
      rfl

/-- No outcome of the loop is an unbound selector, so no policy touches it. -/
theorem settle_verdictOf (policy : Policy) (outcome : Except ResolveError Bool) :
    policy.settle (verdictOf outcome) = verdictOf outcome := by
  cases outcome <;> rfl

/-- A comparison has the outcome of the first value of the operand that decides. -/
theorem verdict_comparison (operator : Operator) {left : DynamicOperand} {right : StaticOperand}
    {vs : List Value} (hvs : ctx.values tuple left = .ok vs)
    (hfixed : ctx.singleValue right = .ok (some fixed)) :
    ctx.verdict tuple (.comparison left operator right) =
      verdictOf (Value.firstOutcome ctx.names operator fixed vs) := by
  rw [verdict, comparison, hfixed]
  show ctx.policy.settle (ctx.values tuple left >>= _) = _
  rw [hvs]
  show ctx.policy.settle (ctx.anyValue operator fixed vs) = _
  rw [anyValue_eq_verdictOf, settle_verdictOf]

theorem verdictOf_eq_satisfied_iff {outcome : Except ResolveError Bool} :
    verdictOf outcome = .ok .satisfied ↔ outcome = .ok true := by
  rw [← verdictOf_injective.eq_iff (b := .ok true)]
  rfl

/-! ## Operands in rearranged trees -/

/-- The same context with another tree. -/
def inTree (ctx : Context) (t : Tree) : Context := { ctx with tree := t }

variable {t' : Tree}

/-- Other orders of the stored values are other orders of those that are found. -/
theorem propertyValues_rearranged (ht : ctx.tree.Rearranged t') {operand : PropertyOperand}
    {vs : List Value} (hvs : ctx.propertyValues tuple operand = .ok vs) :
    ∃ vs', (ctx.inTree t').propertyValues tuple operand = .ok vs' ∧ vs.Perm vs' := by
  -- one property is a permutation, and all of them are so one after the other
  have hread : ∀ n name ws, Eval.ofNavigation (ctx.tree.propertyValues n name) = .ok ws →
      ∃ ws', Eval.ofNavigation (t'.propertyValues n name) = .ok ws' ∧ ws.Perm ws' := by
    intro n name ws hws
    obtain ⟨ws', hws', hperm⟩ := ht.propertyValues (mapError_eq_ok_iff.mp hws)
    exact ⟨ws', mapError_eq_ok_iff.mpr hws', hperm⟩
  obtain ⟨selector, property⟩ := operand
  obtain ⟨n, hn, hvs⟩ := bind_eq_ok_iff.mp hvs
  rw [propertyValues, hn]
  cases property with
  | some name => exact hread n name vs hvs
  | none =>
    simp only [bind_eq_ok_iff, pure_eq_ok_iff, mapM_eq_ok_iff] at hvs
    obtain ⟨names, hnames, lists, hlists, rfl⟩ := hvs
    obtain ⟨lists', hlists', hperm⟩ := exists_forall₂ hlists fun name ws => hread n name ws
    refine ⟨lists'.flatten, bind_eq_ok_iff.mpr ⟨n, rfl, ?_⟩, .flatten_congr hperm⟩
    have hnames' : Eval.ofNavigation (t'.propertyNames n) = .ok names := by
      rw [ht.propertyNames, hnames]
    exact bind_eq_ok_iff.mpr ⟨names, hnames', bind_eq_ok_iff.mpr
      ⟨lists', mapM_eq_ok_iff.mpr hlists', rfl⟩⟩

/-- The operand takes no score. -/
def TakesNoScore : DynamicOperand → Prop
  | .score _ => False
  | .upper operand | .lower operand => TakesNoScore operand
  | .property _ | .length _ | .nodeName _ | .localName _ => True

/-- The operand takes no score and is not over all properties. -/
def TakesOneProperty : DynamicOperand → Prop
  | .score _ => False
  | .upper operand | .lower operand => TakesOneProperty operand
  | .property operand | .length operand => ∃ name, operand.property = some name
  | .nodeName _ | .localName _ => True

theorem TakesOneProperty.takesNoScore {left : DynamicOperand} (h : TakesOneProperty left) :
    TakesNoScore left := by
  induction left with
  | score s => exact h
  | upper operand ih | lower operand ih => exact ih h
  | property operand | length operand | nodeName s | localName s => trivial

theorem nodeName_inTree (ht : ctx.tree.Rearranged t') (n : NodeId) :
    (ctx.inTree t').tree.nodeName n = ctx.tree.nodeName n := ht.nodeName n

/-- In a rearranged tree an operand has its values in some order. -/
theorem values_rearranged (ht : ctx.tree.Rearranged t') {left : DynamicOperand}
    (hscore : TakesNoScore left) {vs : List Value} (hvs : ctx.values tuple left = .ok vs) :
    ∃ vs', (ctx.inTree t').values tuple left = .ok vs' ∧ vs.Perm vs' := by
  -- what is made of each value keeps the permutation
  induction left generalizing vs with
  | property operand => exact propertyValues_rearranged ht hvs
  | length operand =>
    obtain ⟨stored, hstored, hlengths⟩ := bind_eq_ok_iff.mp hvs
    obtain ⟨stored', hstored', hperm⟩ := propertyValues_rearranged ht hstored
    obtain ⟨vs', hvs', hperm'⟩ := mapM_perm hperm hlengths
    exact ⟨vs', bind_eq_ok_iff.mpr ⟨stored', hstored', hvs'⟩, hperm'⟩
  | nodeName s | localName s =>
    simp only [values, nodeName_inTree ht] at hvs ⊢
    exact ⟨vs, hvs, .rfl⟩
  | score s => exact hscore.elim
  | upper operand ih | lower operand ih =>
    obtain ⟨stored, hstored, hmapped⟩ := bind_eq_ok_iff.mp hvs
    obtain ⟨stored', hstored', hperm⟩ := ih hscore hstored
    cases hmapped
    exact ⟨_, bind_eq_ok_iff.mpr ⟨stored', hstored', rfl⟩, hperm.map _⟩

/-- Every order of the values found for one property is that of some rearranged tree. -/
theorem exists_propertyValues_rearranged {operand : PropertyOperand} {name : Name}
    (hname : operand.property = some name) {vs vs' : List Value}
    (hvs : ctx.propertyValues tuple operand = .ok vs) (hperm : vs.Perm vs') :
    ∃ t', ctx.tree.Rearranged t' ∧ (ctx.inTree t').propertyValues tuple operand = .ok vs' := by
  obtain ⟨selector, property⟩ := operand
  cases hname
  obtain ⟨n, hn, hvs⟩ := bind_eq_ok_iff.mp hvs
  obtain ⟨t', ht, hvs'⟩ := Tree.exists_rearranged (mapError_eq_ok_iff.mp hvs) hperm
  exact ⟨t', ht, bind_eq_ok_iff.mpr ⟨n, hn, mapError_eq_ok_iff.mpr hvs'⟩⟩

/-- Every order of the values of an operand is the one in some rearranged tree. -/
theorem exists_values_rearranged {left : DynamicOperand} (hone : TakesOneProperty left)
    {vs vs' : List Value} (hvs : ctx.values tuple left = .ok vs) (hperm : vs.Perm vs') :
    ∃ t', ctx.tree.Rearranged t' ∧ (ctx.inTree t').values tuple left = .ok vs' := by
  induction left generalizing vs vs' with
  | property operand =>
    obtain ⟨name, hname⟩ := hone
    exact exists_propertyValues_rearranged hname hvs hperm
  | length operand =>
    obtain ⟨name, hname⟩ := hone
    obtain ⟨stored, hstored, hlengths⟩ := bind_eq_ok_iff.mp hvs
    obtain ⟨stored', hperm', hlengths'⟩ := exists_perm_mapM hlengths hperm
    obtain ⟨t', ht, hstored'⟩ := exists_propertyValues_rearranged hname hstored hperm'
    exact ⟨t', ht, bind_eq_ok_iff.mpr ⟨stored', hstored', hlengths'⟩⟩
  | nodeName s | localName s =>
    -- a name is one value, which has one order
    have hsingle : ∃ v, vs = [v] := by
      obtain ⟨n, -, hname⟩ := bind_eq_ok_iff.mp hvs
      obtain ⟨name, -, hvalue⟩ := bind_eq_ok_iff.mp hname
      exact ⟨_, (pure_eq_ok_iff.mp hvalue).symm⟩
    obtain ⟨v, rfl⟩ := hsingle
    rw [List.perm_singleton.mp hperm.symm]
    exact ⟨ctx.tree, .refl _, hvs⟩
  | score s => exact hone.elim
  | upper operand ih | lower operand ih =>
    obtain ⟨stored, hstored, hmapped⟩ := bind_eq_ok_iff.mp hvs
    cases hmapped
    obtain ⟨stored', hperm', hmapped'⟩ := exists_perm_map hperm
    obtain ⟨t', ht, hstored'⟩ := ih hone hstored hperm'
    exact ⟨t', ht, bind_eq_ok_iff.mpr ⟨stored', hstored', congrArg Except.ok hmapped'⟩⟩

/-! ## Comparisons -/

/-- **A comparison is satisfied by any value that no failure precedes.** Let an operand have values and
be compared with one fixed value. That a value for which the operator holds makes the comparison
satisfied is true exactly if the first value that decides does not fail. If those that decide have one
outcome and the operand takes no score, the verdict is the same in all orders of the values of all
properties; and for an operand over one property it is the same only then. -/
theorem comparison_any_value_iff (ctx : Context) (tuple : NodeTuple) (left : DynamicOperand)
    (operator : Operator) (right : StaticOperand) {vs : List Value} {fixed : Value}
    (hvs : ctx.values tuple left = .ok vs) (hfixed : ctx.singleValue right = .ok (some fixed)) :
    (((∃ v ∈ vs, v.satisfies ctx.names operator fixed = .ok true) →
        ctx.verdict tuple (.comparison left operator right) = .ok .satisfied) ↔
      ¬ Value.FailsFirst ctx.names operator fixed vs) ∧
    (TakesNoScore left → Value.OneOutcome ctx.names operator fixed vs →
      ∀ t', ctx.tree.Rearranged t' →
        (ctx.inTree t').verdict tuple (.comparison left operator right) =
          ctx.verdict tuple (.comparison left operator right)) ∧
    (TakesOneProperty left →
      ((∀ t', ctx.tree.Rearranged t' →
        (ctx.inTree t').verdict tuple (.comparison left operator right) =
          ctx.verdict tuple (.comparison left operator right)) ↔
        Value.OneOutcome ctx.names operator fixed vs)) := by
  have hverdict := verdict_comparison operator hvs hfixed
  have hverdict' : ∀ {t' : Tree} {vs' : List Value},
      (ctx.inTree t').values tuple left = .ok vs' →
        (ctx.inTree t').verdict tuple (.comparison left operator right) =
          verdictOf (Value.firstOutcome ctx.names operator fixed vs') :=
    fun hvs' => verdict_comparison operator hvs' hfixed
  -- one outcome for all that decide is one for every order
  have hsame : TakesNoScore left → Value.OneOutcome ctx.names operator fixed vs →
      ∀ t', ctx.tree.Rearranged t' →
        (ctx.inTree t').verdict tuple (.comparison left operator right) =
          ctx.verdict tuple (.comparison left operator right) := by
    intro hscore hone t' ht
    obtain ⟨vs', hvs', hperm⟩ := values_rearranged ht hscore hvs
    rw [hverdict, hverdict' hvs', Value.firstOutcome_perm hone hperm]
  refine ⟨?_, hsame, fun hone => ⟨fun h => ?_, hsame (TakesOneProperty.takesNoScore hone)⟩⟩
  · rw [hverdict, verdictOf_eq_satisfied_iff]
    exact Value.firstOutcome_holds_iff
  -- conversely, every order of the values is that of some rearranged tree
  · refine Value.firstOutcome_perm_iff.mp fun vs' hperm => verdictOf_injective ?_
    obtain ⟨t', ht, hvs'⟩ := exists_values_rearranged hone hvs hperm
    rw [← hverdict' hvs', ← hverdict, h t' ht]

/-- The node `/a` with values of a property. -/
def valuesTree (vs : List Value) : Tree where
  nodes := #[
    ⟨.empty, none, [1], ⟨[]⟩, false⟩, ⟨⟨"", "a"⟩, some 0, [], ⟨[(⟨"", "p"⟩, vs)]⟩, false⟩]

theorem reachable_valuesTree (vs : List Value) : Tree.Reachable (valuesTree vs) := by
  have ha := Tree.Reachable.empty.addPath
    (show Tree.empty.addPath ⟨true, [.named ⟨"", "a"⟩ 1]⟩ = .ok (_, 1) from rfl)
  exact ha.setProperty (show Tree.setProperty _ 1 ⟨"", "p"⟩ vs = .ok (valuesTree vs) from rfl)

/-- Two trees that hold the same values in different orders differ in nothing else. -/
theorem rearranged_valuesTree {vs vs' : List Value} (hperm : vs.Perm vs') :
    (valuesTree vs).Rearranged (valuesTree vs') := by
  intro id
  match id with
  | 0 => exact .some (.refl _)
  | 1 =>
    refine .some ⟨rfl, rfl, rfl, rfl, rfl, fun name => ?_⟩
    show (((⟨[(⟨"", "p"⟩, vs)]⟩ : Properties).values name).Perm
      ((⟨[(⟨"", "p"⟩, vs')]⟩ : Properties).values name))
    simp only [Properties.values, List.lookup_cons]
    split
    · exact hperm
    · exact .rfl
  | _ + 2 => exact .none

/-- A name and a text that is no name: a text is equal to the second one, but cannot be compared with
the first one. -/
def nameAndText : List Value := [.name ⟨"", "a"⟩, .string "acme:x"]

/-- The comparison of a property with a text that is no name. -/
def equalsText : Constraint :=
  .comparison (.property ⟨⟨"s"⟩, some ⟨"", "p"⟩⟩) .equalTo (.literal (.string "acme:x"))

/-- With the name in front the search fails before it gets to the text; the other way round it is
satisfied. -/
theorem comparison_any_value_fails :
    ¬ (∀ (ctx : Context) (tuple : NodeTuple) (left : DynamicOperand) (operator : Operator)
        (right : StaticOperand) (vs : List Value) (fixed : Value), Tree.Reachable ctx.tree →
        ctx.values tuple left = .ok vs → ctx.singleValue right = .ok (some fixed) →
        (∃ v ∈ vs, v.satisfies ctx.names operator fixed = .ok true) →
        ctx.verdict tuple (.comparison left operator right) = .ok .satisfied) ∧
    ¬ ∀ (ctx : Context) (tuple : NodeTuple) (left : DynamicOperand) (operator : Operator)
        (right : StaticOperand) (t' : Tree), Tree.Reachable ctx.tree → Tree.Reachable t' →
        ctx.tree.Rearranged t' →
        (ctx.inTree t').verdict tuple (.comparison left operator right) =
          ctx.verdict tuple (.comparison left operator right) := by
  have hfails : (ofTree (valuesTree nameAndText)).verdict ⟨[(⟨"s"⟩, some 1)]⟩ equalsText =
      .error (.unresolvableName (.unknownPrefix "acme" "acme:x")) := by decide +kernel
  have hholds : (ofTree (valuesTree nameAndText.reverse)).verdict ⟨[(⟨"s"⟩, some 1)]⟩ equalsText =
      .ok .satisfied := by decide +kernel
  constructor
  -- the name in front of the matching text is refused first
  · intro h
    have hverdict := h (ofTree (valuesTree nameAndText)) ⟨[(⟨"s"⟩, some 1)]⟩
      (.property ⟨⟨"s"⟩, some ⟨"", "p"⟩⟩) .equalTo (.literal (.string "acme:x")) nameAndText
      (.string "acme:x") (reachable_valuesTree _) rfl rfl (by decide +kernel)
    rw [← equalsText, hfails] at hverdict
    cases hverdict
  · intro h
    have hverdict := h (ofTree (valuesTree nameAndText)) ⟨[(⟨"s"⟩, some 1)]⟩
      (.property ⟨⟨"s"⟩, some ⟨"", "p"⟩⟩) .equalTo (.literal (.string "acme:x"))
      (valuesTree nameAndText.reverse) (reachable_valuesTree _) (reachable_valuesTree _)
      (rearranged_valuesTree (List.reverse_perm _).symm)
    rw [← equalsText, hfails] at hverdict
    exact absurd (hholds.symm.trans hverdict) (by decide)

/-- Two texts, one of which the fixed text is equal to, have one outcome that decides; a name and a
text have two. -/
theorem comparison_any_value_texts :
    let ctx := ofTree (valuesTree [.string "b", .string "acme:x"])
    let mixed := ofTree (valuesTree nameAndText)
    let tuple : NodeTuple := ⟨[(⟨"s"⟩, some 1)]⟩
    let left : DynamicOperand := .property ⟨⟨"s"⟩, some ⟨"", "p"⟩⟩
    ctx.values tuple left = .ok [.string "b", .string "acme:x"] ∧
      ctx.singleValue (.literal (.string "acme:x")) = .ok (some (.string "acme:x")) ∧
      ctx.verdict tuple equalsText = .ok .satisfied ∧
      (∀ t', ctx.tree.Rearranged t' →
        (ctx.inTree t').verdict tuple equalsText = ctx.verdict tuple equalsText) ∧
      ¬ ∀ t', mixed.tree.Rearranged t' →
        (mixed.inTree t').verdict tuple equalsText = mixed.verdict tuple equalsText := by
  intro ctx mixed tuple left
  have hvs : ctx.values tuple left = .ok [.string "b", .string "acme:x"] := rfl
  have hvs' : mixed.values tuple left = .ok nameAndText := rfl
  have h := comparison_any_value_iff ctx tuple left .equalTo (.literal (.string "acme:x")) hvs rfl
  have hmixed :=
    comparison_any_value_iff mixed tuple left .equalTo (.literal (.string "acme:x")) hvs' rfl
  -- no string is ever refused, so both of them have one outcome at most
  have hone : Value.OneOutcome ctx.names .equalTo (.string "acme:x")
      [.string "b", .string "acme:x"] := by
    unfold Value.OneOutcome
    decide +kernel
  have hbefore : ¬ Value.FailsFirst ctx.names .equalTo (.string "acme:x")
      [.string "b", .string "acme:x"] :=
    Value.firstOutcome_holds_iff.mp fun _ => by decide +kernel
  have htwo : ¬ Value.OneOutcome mixed.names .equalTo (.string "acme:x") nameAndText := by
    unfold Value.OneOutcome
    decide +kernel
  exact ⟨hvs, rfl, h.1.mpr hbefore (by decide +kernel), h.2.1 trivial hone,
    fun hsame => htwo ((hmixed.2.2 ⟨_, rfl⟩).mp hsame)⟩

end Context

end ContentQuery
