import ContentQuery.Proofs.Naming.PathRoundTrip
import ContentQuery.Query.Builder

/-! # Queries that can be built

`IsBuilt` says which queries the builder gives, from whatever registries its parts were read with:
one predicate for every kind of part, one case for every way to build it. `IsLegal` says what the
builder's checks leave of such a query: names and paths are legal, variables are identifiers, and
literals are of the types whose text is exact.
-/

namespace ContentQuery

open Naming

/-! ## What is built -/

/-- A static operand that is built, its literal a string, a number, a truth value, a reference, or a
name or path from text. -/
inductive StaticOperand.IsBuilt : StaticOperand → Prop
  | string (text : String) : IsBuilt (.literal (.string text))
  | long (n : Int64) : IsBuilt (.literal (.long n))
  | boolean (b : Bool) : IsBuilt (.literal (.boolean b))
  | reference (identifier : String) : IsBuilt (.literal (.reference identifier))
  | name {names : Registry} {text : String} {o : StaticOperand}
      (h : Builder.nameLiteral names text = .ok o) : IsBuilt o
  | path {names : Registry} {text : String} {o : StaticOperand}
      (h : Builder.pathLiteral names text = .ok o) : IsBuilt o
  | variable {text : String} {o : StaticOperand} (h : Builder.boundVariable text = .ok o) :
      IsBuilt o

/-- A dynamic operand that is built. -/
inductive DynamicOperand.IsBuilt : DynamicOperand → Prop
  | property {names : Registry} {selector property : String} {o : DynamicOperand}
      (h : Builder.property names selector property = .ok o) : IsBuilt o
  | anyProperty {selector : String} {o : DynamicOperand}
      (h : Builder.anyProperty selector = .ok o) : IsBuilt o
  | length {inner o : DynamicOperand} (hinner : IsBuilt inner)
      (h : Builder.length inner = .ok o) : IsBuilt o
  | nodeName {selector : String} {o : DynamicOperand} (h : Builder.nodeName selector = .ok o) :
      IsBuilt o
  | localName {selector : String} {o : DynamicOperand} (h : Builder.localName selector = .ok o) :
      IsBuilt o
  | score {selector : String} {o : DynamicOperand} (h : Builder.score selector = .ok o) : IsBuilt o
  | upper {o : DynamicOperand} (h : IsBuilt o) : IsBuilt (.upper o)
  | lower {o : DynamicOperand} (h : IsBuilt o) : IsBuilt (.lower o)

/-- A constraint that is built. -/
inductive Constraint.IsBuilt : Constraint → Prop
  | and {left right : Constraint} (hl : IsBuilt left) (hr : IsBuilt right) :
      IsBuilt (.and left right)
  | or {left right : Constraint} (hl : IsBuilt left) (hr : IsBuilt right) : IsBuilt (.or left right)
  | not {c : Constraint} (h : IsBuilt c) : IsBuilt (.not c)
  | comparison {left : DynamicOperand} {operator : String} {right : StaticOperand} {c : Constraint}
      (hl : left.IsBuilt) (hr : right.IsBuilt)
      (h : Builder.comparison left operator right = .ok c) : IsBuilt c
  | propertyExists {names : Registry} {selector property : String} {c : Constraint}
      (h : Builder.propertyExists names selector property = .ok c) : IsBuilt c
  | fullText {names : Registry} {selector : String} {property : Option String}
      {expression : StaticOperand} {c : Constraint} (he : expression.IsBuilt)
      (h : Builder.fullText names selector property expression = .ok c) : IsBuilt c
  | structural {names : Registry} {relation : NodeRelation} {selector path : String}
      {c : Constraint} (h : Builder.structural names relation selector path = .ok c) : IsBuilt c

/-- A join condition that is built. -/
inductive JoinCondition.IsBuilt : JoinCondition → Prop
  | equal {names : Registry} {selector₁ property₁ selector₂ property₂ : String} {j : JoinCondition}
      (h : Builder.equalJoin names selector₁ property₁ selector₂ property₂ = .ok j) : IsBuilt j
  | sameNode {names : Registry} {selector₁ selector₂ : String} {path : Option String}
      {j : JoinCondition} (h : Builder.sameNodeJoin names selector₁ selector₂ path = .ok j) :
      IsBuilt j
  | childNode {child parent : String} {j : JoinCondition}
      (h : Builder.childNodeJoin child parent = .ok j) : IsBuilt j
  | descendantNode {descendant ancestor : String} {j : JoinCondition}
      (h : Builder.descendantNodeJoin descendant ancestor = .ok j) : IsBuilt j

/-- A source that is built. -/
inductive Source.IsBuilt : Source → Prop
  | selector {names : Registry} {nodeType selector : String} {s : Source}
      (h : Builder.selector names nodeType selector = .ok s) : IsBuilt s
  | join {left right s : Source} {type : String} {condition : JoinCondition} (hl : IsBuilt left)
      (hr : IsBuilt right) (hc : condition.IsBuilt)
      (h : Builder.join left right type condition = .ok s) : IsBuilt s

/-- A sort criterion that is built, its direction given by itself or as text. -/
inductive SortCriterion.IsBuilt : SortCriterion → Prop
  | directed {o : DynamicOperand} (ho : o.IsBuilt) (direction : Direction) : IsBuilt ⟨o, direction⟩
  | ordering {o : DynamicOperand} {direction : String} {s : SortCriterion} (ho : o.IsBuilt)
      (h : Builder.ordering o direction = .ok s) : IsBuilt s

/-- A column that is built. -/
def Column.IsBuilt (c : Column) : Prop :=
  ∃ (names : Registry) (selector : String) (property label : Option String),
    Builder.column names selector property label = .ok c

/-- A query that is built from built parts. -/
structure Query.IsBuilt (q : Query) : Prop where
  source : q.source.IsBuilt
  constraint : ∀ c ∈ q.constraint, c.IsBuilt
  orderings : ∀ o ∈ q.orderings, o.IsBuilt
  columns : ∀ c ∈ q.columns, c.IsBuilt

/-! ## What its parts are like -/

/-- A literal whose text is exact and whose names and paths are legal. -/
def Value.IsLegal : Value → Prop
  | .string _ | .long _ | .boolean _ | .reference _ => True
  | .name n => n.IsLegal
  | .path p => p.IsLegal
  | .double _ | .date _ | .binary _ => False

/-- The literal is legal, or the variable an identifier. -/
def StaticOperand.IsLegal : StaticOperand → Prop
  | .literal v => v.IsLegal
  | .variable v => Builder.isIdentifier v.text = true

/-- The name of the property, if there is one, is legal. -/
def PropertyOperand.IsLegal (o : PropertyOperand) : Prop := ∀ n ∈ o.property, n.IsLegal

/-- The property that is read, if one is, is legal. -/
def DynamicOperand.IsLegal : DynamicOperand → Prop
  | .property o | .length o => o.IsLegal
  | .nodeName _ | .localName _ | .score _ => True
  | .upper o | .lower o => o.IsLegal

/-- All parts are legal. -/
def Constraint.IsLegal : Constraint → Prop
  | .and left right | .or left right => left.IsLegal ∧ right.IsLegal
  | .not c => c.IsLegal
  | .comparison left _ right => left.IsLegal ∧ right.IsLegal
  | .exists _ property => property.IsLegal
  | .fullText predicate =>
    PropertyOperand.IsLegal ⟨predicate.selector, predicate.property⟩ ∧ predicate.expression.IsLegal
  | .structural _ _ path => path.IsLegal

/-- The properties and the path are legal. -/
def JoinCondition.IsLegal : JoinCondition → Prop
  | .equal _ property₁ _ property₂ => property₁.IsLegal ∧ property₂.IsLegal
  | .sameNode _ _ path => ∀ p ∈ path, p.IsLegal
  | .childNode _ _ | .descendantNode _ _ => True

/-- All node types and conditions are legal. -/
def Source.IsLegal : Source → Prop
  | .selector nodeType _ => nodeType.IsLegal
  | .join left right _ condition => left.IsLegal ∧ right.IsLegal ∧ condition.IsLegal

/-- All parts are legal. -/
structure Query.IsLegal (q : Query) : Prop where
  source : q.source.IsLegal
  constraint : ∀ c ∈ q.constraint, c.IsLegal
  orderings : ∀ o ∈ q.orderings, o.operand.IsLegal
  columns : ∀ c ∈ q.columns, c.operand.IsLegal

/-! ## The builder's checks -/

namespace Builder

@[simp] theorem resolved_eq_ok_iff {α : Type} {result : Except ResolveError α} {a : α} :
    resolved result = .ok a ↔ result = .ok a := by
  cases result <;> simp [resolved, Except.mapError]

theorem isLegal_of_name {names : Registry} {part : QueryPart} {text : String} {n : Name}
    (h : name names part text = .ok n) : n.IsLegal := by
  simp only [name, bind_eq_ok_iff, resolved_eq_ok_iff] at h
  obtain ⟨_, _, h⟩ := h
  exact Registry.isLegal_of_readName h

theorem isLegal_of_path {names : Registry} {text : String} {p : Path}
    (h : path names text = .ok p) : p.IsLegal := by
  simp only [path, bind_eq_ok_iff, resolved_eq_ok_iff] at h
  obtain ⟨_, _, h⟩ := h
  exact Registry.isLegal_of_readPath h

/-- An optional part is read if it is there. -/
theorem mapM_option_eq_ok {α β : Type} {f : α → Built β} {P : β → Prop} {x : Option α}
    {y : Option β} (h : x.mapM f = .ok y) (hf : ∀ a b, f a = .ok b → P b) : ∀ b ∈ y, P b := by
  cases x with
  | none =>
    simp only [Option.mapM_none, pure_eq_ok_iff] at h
    simp [← h]
  | some a =>
    simp only [Option.mapM_some, map_eq_pure_bind, bind_eq_ok_iff, pure_eq_ok_iff] at h
    obtain ⟨b, hb, rfl⟩ := h
    simpa using hf a b hb

end Builder

/-- What is built is legal, part by part, from the fixed sides on. -/
theorem StaticOperand.IsBuilt.isLegal {o : StaticOperand} (h : o.IsBuilt) : o.IsLegal := by
  cases h with
  | string | long | boolean | reference => trivial
  | name h =>
    simp only [Builder.nameLiteral, bind_eq_ok_iff, pure_eq_ok_iff] at h
    obtain ⟨n, hn, rfl⟩ := h
    exact Builder.isLegal_of_name hn
  | path h =>
    simp only [Builder.pathLiteral, bind_eq_ok_iff, pure_eq_ok_iff] at h
    obtain ⟨p, hp, rfl⟩ := h
    exact Builder.isLegal_of_path hp
  | «variable» h =>
    simp only [Builder.boundVariable, bind_eq_ok_iff] at h
    obtain ⟨name, -, h⟩ := h
    split at h
    · next hid =>
      rw [pure_eq_ok_iff] at h
      rw [← h]
      exact hid
    · exact absurd h throw_ne_ok

/-- Operands have identifiers and names that the builder has read. -/
theorem DynamicOperand.IsBuilt.isLegal {o : DynamicOperand} (h : o.IsBuilt) : o.IsLegal := by
  induction h with
  | property h =>
    simp only [Builder.property, bind_eq_ok_iff, pure_eq_ok_iff] at h
    obtain ⟨_, _, n, hn, rfl⟩ := h
    simpa [IsLegal, PropertyOperand.IsLegal] using Builder.isLegal_of_name hn
  | anyProperty h =>
    simp only [Builder.anyProperty, bind_eq_ok_iff, pure_eq_ok_iff] at h
    obtain ⟨_, _, rfl⟩ := h
    simp [IsLegal, PropertyOperand.IsLegal]
  | length _ h ih =>
    unfold Builder.length at h
    split at h
    · cases h
      exact ih
    · simp at h
  | nodeName h | localName h | score h =>
    simp only [Builder.nodeName, Builder.localName, Builder.score, bind_eq_ok_iff,
      pure_eq_ok_iff] at h
    obtain ⟨_, _, rfl⟩ := h
    trivial
  | upper _ ih | lower _ ih => exact ih

/-- Constraints are legal, as their operands and paths are. -/
theorem Constraint.IsBuilt.isLegal {c : Constraint} (h : c.IsBuilt) : c.IsLegal := by
  induction h with
  | and _ _ ihl ihr | or _ _ ihl ihr => exact ⟨ihl, ihr⟩
  | not _ ih => exact ih
  | comparison hl hr h =>
    simp only [Builder.comparison, bind_eq_ok_iff, pure_eq_ok_iff] at h
    obtain ⟨_, _, rfl⟩ := h
    exact ⟨hl.isLegal, hr.isLegal⟩
  | propertyExists h =>
    simp only [Builder.propertyExists, bind_eq_ok_iff, pure_eq_ok_iff] at h
    obtain ⟨_, _, n, hn, rfl⟩ := h
    exact Builder.isLegal_of_name hn
  | fullText he h =>
    simp only [Builder.fullText, bind_eq_ok_iff, pure_eq_ok_iff] at h
    obtain ⟨property, hp, _, _, rfl⟩ := h
    exact ⟨Builder.mapM_option_eq_ok hp fun _ _ => Builder.isLegal_of_name, he.isLegal⟩
  | structural h =>
    simp only [Builder.structural, bind_eq_ok_iff, pure_eq_ok_iff] at h
    obtain ⟨_, _, p, hp, rfl⟩ := h
    exact Builder.isLegal_of_path hp

theorem JoinCondition.IsBuilt.isLegal {j : JoinCondition} (h : j.IsBuilt) : j.IsLegal := by
  cases h with
  | equal h =>
    simp only [Builder.equalJoin, bind_eq_ok_iff, pure_eq_ok_iff] at h
    obtain ⟨_, _, p₁, hp₁, _, _, p₂, hp₂, rfl⟩ := h
    exact ⟨Builder.isLegal_of_name hp₁, Builder.isLegal_of_name hp₂⟩
  | sameNode h =>
    simp only [Builder.sameNodeJoin, bind_eq_ok_iff] at h
    obtain ⟨path, hp, h⟩ := h
    split at h
    · exact absurd h throw_ne_ok
    · simp only [bind_eq_ok_iff, pure_eq_ok_iff] at h
      obtain ⟨_, _, _, _, rfl⟩ := h
      exact Builder.mapM_option_eq_ok hp fun _ _ => Builder.isLegal_of_path
  | childNode h | descendantNode h =>
    simp only [Builder.childNodeJoin, Builder.descendantNodeJoin, bind_eq_ok_iff,
      pure_eq_ok_iff] at h
    obtain ⟨_, _, _, _, rfl⟩ := h
    trivial

theorem Source.IsBuilt.isLegal {s : Source} (h : s.IsBuilt) : s.IsLegal := by
  induction h with
  | selector h =>
    simp only [Builder.selector, bind_eq_ok_iff, pure_eq_ok_iff] at h
    obtain ⟨n, hn, _, _, rfl⟩ := h
    exact Builder.isLegal_of_name hn
  | join _ _ hc h ihl ihr =>
    simp only [Builder.join, bind_eq_ok_iff, pure_eq_ok_iff] at h
    obtain ⟨_, _, rfl⟩ := h
    exact ⟨ihl, ihr, hc.isLegal⟩

/-- Every query that is built is legal. -/
theorem Query.IsBuilt.isLegal {q : Query} (h : q.IsBuilt) : q.IsLegal := by
  refine ⟨h.source.isLegal, fun c hc => (h.constraint c hc).isLegal, fun o hmem => ?_,
    fun c hc => ?_⟩
  · cases h.orderings o hmem with
    | directed hoperand => exact hoperand.isLegal
    | ordering hoperand h =>
      simp only [Builder.ordering, bind_eq_ok_iff, pure_eq_ok_iff] at h
      obtain ⟨_, _, rfl⟩ := h
      exact hoperand.isLegal
  · obtain ⟨names, selector, property, label, h⟩ := h.columns c hc
    simp only [Builder.column, bind_eq_ok_iff, pure_eq_ok_iff] at h
    obtain ⟨p, hp, _, _, _, _, rfl⟩ := h
    exact Builder.mapM_option_eq_ok hp fun _ _ => Builder.isLegal_of_name

end ContentQuery
