import StaticConfig.Project.Resolve
import StaticConfig.Evaluation.Evaluate
import StaticConfig.Proofs.Evaluation.Knowledge
import StaticConfig.Proofs.Snippet

/-!
# Raising the limit

The limit on nested steps is a bound on resources and nothing else: a run that ends in any way but
at the limit is the same run under every higher limit, tags and machine included.

- `evaluate_extends`: evaluation with more steps to spare does what evaluation with fewer does,
  unless that stops at its limit, by induction on the steps that may still be nested.
- `eval_eq_of_limit_le`: the statement for whole evaluations.
-/

namespace StaticConfig

open Knowledge (nothing uniform_nothing run_of_same)

/-! ### Evaluation -/

/-- The terms of a run and of the same one under a higher limit: stopping at the limit excuses all
that comes after. -/
abbrev Eval.extending (limit : Nat) : Terms Timeless :=
  nothing.terms (· = ·) (· = .recursionLimit limit)

/-- A limit of its own only shows in the fault that reports it. -/
theorem evaluate_extends (definitions : Definitions) (low high : Nat) {fewer more : Nat}
    (hle : fewer ≤ more) (trail : List Span) (scope : Scope Value) (node : Node) :
    Eval.Coupled (Eval.extending low) trail trail .always (Same nothing.outer)
      (evaluate definitions low fewer scope node) (evaluate definitions high more scope node) := by
  induction fewer generalizing more trail scope node with
  | zero => exact .excused rfl _
  | succ fewer ih =>
    obtain ⟨more, rfl⟩ := Nat.exists_eq_succ_of_ne_zero (Nat.ne_zero_of_lt hle)
    have hinside {scope : Scope Value} {node' : Node} :=
      ih (Nat.le_of_succ_le_succ hle) (node.span :: trail) scope node'
    exact .within (uniform_nothing.evalNode_same (fun _ => rfl) (fun _ => hinside)
      (fun _ _ => rfl) (fun _ _ _ _ => trivial) node)

/-- **The limit is only a bound.** Started on the empty trail, a run that does not stop at its limit
is the same run under every higher limit: the same value or the same fault, with what it quotes. -/
theorem eval_eq_of_limit_le (definitions : Definitions) (scope : Scope Value) (node : Node)
    (supply : Nat) {low high : Nat} (hle : low ≤ high)
    (hends : (((Evaluator.mk definitions low).eval scope node).run ⟨[], supply⟩).1 ≠
      .error (.recursionLimit low)) :
    ((Evaluator.mk definitions high).eval scope node).run ⟨[], supply⟩ =
      ((Evaluator.mk definitions low).eval scope node).run ⟨[], supply⟩ := by
  obtain ⟨result, after, hlow, hhigh⟩ :=
    run_of_same (evaluate_extends definitions low high hle [] scope node) supply
  rcases hhigh with ⟨fault, rfl, rfl⟩ | ⟨outcome, hhigh, houtcome⟩
  · exact absurd (congrArg Prod.fst hlow) hends
  · rw [Evaluator.eval, Evaluator.eval, hlow, hhigh]
    cases houtcome with
    | ok hvalue => rw [hvalue.1]
    | error hfault => rw [hfault]

section Sample

open Snippet (path place)

/-- A project of the one line `const list = [0, new X];`. -/
def constructorCall : Project :=
  let items : Expr := .array (place 13 23)
    [.item (.plain (.number (place 14 15) (.ofNat 0))),
      .item (.plain (.other (place 17 22) .newExpression))]
  let declaration : Stmt := .declares (place 0 24) [.mk (place 6 23) (some "list") (some items)]
  Project.empty.add ⟨path "main.ts", "const list = [0, new X];", ⟨[.statement declaration]⟩, []⟩ [] rfl

/-- An occurrence of `list` in that file. -/
def listOccurrence : Node := .expr (.identifier ⟨"list", place 0 0⟩)

/-- The occurrence, the declarator, the array and the constructor call are four nested steps. -/
theorem eval_constructorCall_limit :
    (((constructorCall.evaluator 4).eval .root listOccurrence).run ⟨[], 0⟩).1 =
        .error (.unsupportedConstruct .newExpression "new X" (some "[0, new X]")) ∧
      4 ≤ defaultLimit ∧
      ((constructorCall.evaluator defaultLimit).eval .root listOccurrence).run ⟨[], 0⟩ =
        ((constructorCall.evaluator 4).eval .root listOccurrence).run ⟨[], 0⟩ := by
  have hfault : (((constructorCall.evaluator 4).eval .root listOccurrence).run ⟨[], 0⟩).1 =
      .error (.unsupportedConstruct .newExpression "new X" (some "[0, new X]")) := rfl
  have hle : 4 ≤ defaultLimit := by decide
  refine ⟨hfault, hle, eval_eq_of_limit_le constructorCall.definitions _ _ 0 hle ?_⟩
  show (((constructorCall.evaluator 4).eval .root listOccurrence).run ⟨[], 0⟩).1 ≠ _
  rw [hfault]
  simp

end Sample

end StaticConfig
