import ContentQuery.Evaluation.Verdict
import ContentQuery.Proofs.Evaluation.Operand

/-! # Laws of conjunction, disjunction and negation

An evaluation has one of three kinds of outcome, two verdicts and failure, and a connective reads its
right side only if the left one leaves it open. So conjunction and disjunction do not commute, but they
are associative, each distributes over the other from the left, and negation turns one into the other.
The laws are proved of outcomes, where each is a matter of the left sides, and carried over to
constraints, one rewrite at any depth first and any number of rewrites from it.
-/

namespace ContentQuery

/-! ## Outcomes -/

namespace Eval

/-- The outcome of a conjunction: the right one if the left one is satisfied. -/
def conj : Eval Verdict → Eval Verdict → Eval Verdict
  | .ok .satisfied, y => y
  | x, _ => x

/-- The outcome of a disjunction: the right one if the left one is unsatisfied. -/
def disj : Eval Verdict → Eval Verdict → Eval Verdict
  | .ok .unsatisfied, y => y
  | x, _ => x

/-- The outcome of a negation: a failure stays. -/
def neg : Eval Verdict → Eval Verdict
  | .ok v => .ok v.negate
  | .error e => .error e

variable (x y z : Eval Verdict)

/-- A failure stays under one negation and under two. -/
theorem neg_neg : neg (neg x) = x := by
  rcases x with e | _ | _ <;> rfl

/-- What leaves a conjunction open is what leaves the disjunction of the negated sides open. -/
theorem neg_conj : neg (conj x y) = disj (neg x) (neg y) := by
  rcases x with e | _ | _ <;> rfl

theorem neg_disj : neg (disj x y) = conj (neg x) (neg y) := by
  rcases x with e | _ | _ <;> rfl

/-- Both ways of nesting read the three sides from the left, up to the first that decides. -/
theorem conj_assoc : conj (conj x y) z = conj x (conj y z) := by
  rcases x with e | _ | _ <;> rfl

theorem disj_assoc : disj (disj x y) z = disj x (disj y z) := by
  rcases x with e | _ | _ <;> rfl

/-- If the left side is unsatisfied, so are both conjunctions, and the second one is read in vain. -/
theorem conj_disj : conj x (disj y z) = disj (conj x y) (conj x z) := by
  rcases x with e | _ | _ <;> rfl

/-- If the left side is satisfied, so are both disjunctions. -/
theorem disj_conj : disj x (conj y z) = conj (disj x y) (disj x z) := by
  rcases x with e | _ | _ <;> rfl

/-- A conjunction commutes if one of its sides is satisfied or both have the same outcome, and only
then: else the left side decides. -/
theorem conj_comm_iff :
    conj x y = conj y x ↔ x = .ok .satisfied ∨ y = .ok .satisfied ∨ x = y := by
  rcases x with e | _ | _ <;> rcases y with e' | _ | _ <;> simp [conj, eq_comm]

end Eval

/-! ## Rewrites -/

namespace Constraint

/-- The laws by which a constraint may be rewritten. -/
inductive Law : Constraint → Constraint → Prop
  | notNot (a) : Law (.not (.not a)) a
  | notAnd (a b) : Law (.not (.and a b)) (.or (.not a) (.not b))
  | notOr (a b) : Law (.not (.or a b)) (.and (.not a) (.not b))
  | andAssoc (a b c) : Law (.and (.and a b) c) (.and a (.and b c))
  | orAssoc (a b c) : Law (.or (.or a b) c) (.or a (.or b c))
  | andOr (a b c) : Law (.and a (.or b c)) (.or (.and a b) (.and a c))
  | orAnd (a b c) : Law (.or a (.and b c)) (.and (.or a b) (.or a c))

/-- One rewrite by a law, at any depth. -/
inductive Rewrite : Constraint → Constraint → Prop
  | law {a a'} : Law a a' → Rewrite a a'
  | andLeft {a a'} (b) : Rewrite a a' → Rewrite (.and a b) (.and a' b)
  | andRight (a) {b b'} : Rewrite b b' → Rewrite (.and a b) (.and a b')
  | orLeft {a a'} (b) : Rewrite a a' → Rewrite (.or a b) (.or a' b)
  | orRight (a) {b b'} : Rewrite b b' → Rewrite (.or a b) (.or a b')
  | not {a a'} : Rewrite a a' → Rewrite (.not a) (.not a')

/-- Any number of rewrites, in either direction. -/
def Rewritten : Constraint → Constraint → Prop := Relation.EqvGen Rewrite

/-- Constraints nested to the right under a connective. -/
def nestRight (connective : Constraint → Constraint → Constraint) :
    Constraint → List Constraint → Constraint
  | a, [] => a
  | a, b :: rest => connective a (nestRight connective b rest)

/-- Nesting to the left is rewritten to nesting to the right, where a law says so for two. -/
theorem rewritten_nestRight {connective : Constraint → Constraint → Constraint}
    (hassoc : ∀ a b c, Law (connective (connective a b) c) (connective a (connective b c)))
    (a : Constraint) (rest : List Constraint) :
    Rewritten (rest.foldl connective a) (nestRight connective a rest) := by
  induction rest generalizing a with
  | nil => exact .refl a
  | cons b rest ih =>
    refine .trans _ _ _ (ih (connective a b)) ?_
    cases rest with
    | nil => exact .refl _
    | cons c rest => exact .rel _ _ (.law (hassoc a b (nestRight connective c rest)))

end Constraint

/-! ## Verdicts -/

namespace Context

open Constraint Eval

variable {ctx : Context} {tuple : NodeTuple}

/-- A conjunction of constraints is that of their outcomes. -/
theorem verdict_and (a b : Constraint) :
    ctx.verdict tuple (.and a b) = conj (ctx.verdict tuple a) (ctx.verdict tuple b) := by
  rw [verdict]
  rcases ctx.verdict tuple a with e | _ | _ <;> rfl

theorem verdict_or (a b : Constraint) :
    ctx.verdict tuple (.or a b) = disj (ctx.verdict tuple a) (ctx.verdict tuple b) := by
  rw [verdict]
  rcases ctx.verdict tuple a with e | _ | _ <;> rfl

theorem verdict_not (a : Constraint) : ctx.verdict tuple (.not a) = neg (ctx.verdict tuple a) := by
  rw [verdict]
  rcases ctx.verdict tuple a with e | _ | _ <;> rfl

/-- Every law keeps the outcome, by the same law of outcomes. -/
theorem verdict_eq_of_law {c c' : Constraint} (h : Law c c') :
    ctx.verdict tuple c = ctx.verdict tuple c' := by
  cases h with
  | notNot a => rw [verdict_not, verdict_not, neg_neg]
  | notAnd a b => rw [verdict_not, verdict_and, neg_conj, verdict_or, verdict_not, verdict_not]
  | notOr a b => rw [verdict_not, verdict_or, neg_disj, verdict_and, verdict_not, verdict_not]
  | andAssoc a b c => simp only [verdict_and, conj_assoc]
  | orAssoc a b c => simp only [verdict_or, disj_assoc]
  | andOr a b c => simp only [verdict_and, verdict_or, conj_disj]
  | orAnd a b c => simp only [verdict_and, verdict_or, disj_conj]

/-- One rewrite keeps the outcome, wherever it is made. -/
theorem verdict_eq_of_rewrite {c c' : Constraint} (h : Rewrite c c') :
    ctx.verdict tuple c = ctx.verdict tuple c' := by
  induction h with
  | law h => exact verdict_eq_of_law h
  | andLeft b _ ih => rw [verdict_and, ih, verdict_and]
  | andRight a _ ih => rw [verdict_and, ih, verdict_and]
  | orLeft b _ ih => rw [verdict_or, ih, verdict_or]
  | orRight a _ ih => rw [verdict_or, ih, verdict_or]
  | not _ ih => rw [verdict_not, ih, verdict_not]

/-- **Swapping the sides of a conjunction is no law.** It keeps the outcome if one of the sides is
satisfied or both have the same outcome, and only then. -/
theorem verdict_and_comm_iff (a b : Constraint) :
    ctx.verdict tuple (.and a b) = ctx.verdict tuple (.and b a) ↔
      ctx.verdict tuple a = .ok .satisfied ∨ ctx.verdict tuple b = .ok .satisfied ∨
        ctx.verdict tuple a = ctx.verdict tuple b := by
  rw [verdict_and, verdict_and, conj_comm_iff]

/-- **Rewriting by the laws keeps the outcome of a constraint.** Constraints that are related by any
number of rewrites, each by one of the laws and at any depth, have the same verdict or fail with the
same error; so it does not matter whether conjunctions and disjunctions nest to the left or to the
right. -/
theorem verdict_eq_of_rewritten (ctx : Context) (tuple : NodeTuple) :
    (∀ c c' : Constraint, Rewritten c c' → ctx.verdict tuple c = ctx.verdict tuple c') ∧
      ∀ (a : Constraint) (rest : List Constraint),
        ctx.verdict tuple (rest.foldl .and a) = ctx.verdict tuple (nestRight .and a rest) ∧
          ctx.verdict tuple (rest.foldl .or a) = ctx.verdict tuple (nestRight .or a rest) := by
  have hrewritten {c c' : Constraint} (h : Rewritten c c') :
      ctx.verdict tuple c = ctx.verdict tuple c' := by
    induction h with
    | rel c c' h => exact verdict_eq_of_rewrite h
    | refl c => rfl
    | symm c c' _ ih => exact ih.symm
    | trans c c' c'' _ _ ih ih' => exact ih.trans ih'
  exact ⟨fun c c' h => hrewritten h, fun a rest =>
    ⟨hrewritten (rewritten_nestRight Law.andAssoc a rest),
      hrewritten (rewritten_nestRight Law.orAssoc a rest)⟩⟩

/-- A conjunction under a negation on the right of a disjunction is taken apart, the negation of a
negation in it is dropped, and the disjunctions are nested to the left: the failure on the right comes
through each time. -/
theorem verdict_eq_of_rewritten_failure :
    let ctx := ofTree .empty
    let tuple : NodeTuple := ⟨[(⟨"s"⟩, some 0), (⟨"t"⟩, none)]⟩
    let a : Constraint := .structural .same ⟨"t"⟩ .root
    let b : Constraint := .structural .same ⟨"s"⟩ .root
    let c : Constraint := .structural .same ⟨"s"⟩ ⟨true, [.parent]⟩
    let original : Constraint := .or a (.not (.and b (.not c)))
    let rewritten : Constraint := .or (.or a (.not b)) c
    Rewritten original rewritten ∧
      ctx.verdict tuple original = ctx.verdict tuple rewritten ∧
      ctx.verdict tuple rewritten = .error (.malformedPath ⟨true, [.parent]⟩) ∧
      ctx.verdict tuple (.and (.and b a) c) = ctx.verdict tuple (.and b (.and a c)) ∧
      ctx.verdict tuple (.and a c) ≠ ctx.verdict tuple (.and c a) := by
  intro ctx tuple a b c original rewritten
  have htaken : Rewritten original (.or a (.or (.not b) (.not (.not c)))) :=
    .rel _ _ (.orRight a (.law (.notAnd b (.not c))))
  have hdropped : Rewritten (.or a (.or (.not b) (.not (.not c)))) (.or a (.or (.not b) c)) :=
    .rel _ _ (.orRight a (.orRight (.not b) (.law (.notNot c))))
  have hnested : Rewritten (.or a (.or (.not b) c)) rewritten :=
    .symm _ _ (.rel _ _ (.law (.orAssoc a (.not b) c)))
  have hswapped : ctx.verdict tuple (.and a c) ≠ ctx.verdict tuple (.and c a) := by
    rw [Ne, verdict_and_comm_iff]
    decide +kernel
  have hrewritten : Rewritten original rewritten := .trans _ _ _ htaken (.trans _ _ _ hdropped hnested)
  have h := verdict_eq_of_rewritten ctx tuple
  exact ⟨hrewritten, h.1 original rewritten hrewritten, by decide +kernel, (h.2 b [a, c]).1,
    hswapped⟩

end Context

end ContentQuery
