import StaticConfig.Proofs.Evaluation.Agreement
import StaticConfig.Proofs.Evaluation.Frames

/-!
# Termination

What ends an evaluation is the check of the trail against the limit, and nothing else. Calls of
methods do not grow the trail, so the check does not see a method that calls a method back; such
calls end because the callee and its first argument take each other apart.

The evaluator is given again with the check as its only guard, and with budgets on what may be
nested: `Value.callWithin` counts the calls that are nested between two steps, `evaluateWithin` the
steps. Past a budget they do something arbitrary, `exceeded`. That makes no difference:

- `Value.callWithin_eq_call`: a call nests at most as many calls as its callee and first argument
  are made of values (`Value.frameBound`);
- `evaluateWithin_agree`: an evaluation nests at most one more step than the limit leaves room for
  on the trail;
- `evaluation_within_budgets`: both together, for evaluations and for calls from outside.
-/

namespace StaticConfig

open List (Forall₂)
open Eval (Agree)

/-! ### Nested steps -/

section

variable (definitions : Definitions) (limit : Nat) (exceeded : Eval Value)

/-- The rule of a node, where a call may nest as many calls as it is made of values. -/
def evalNodeWithin (visit : Scope Value → Node → Eval Value) (scope : Scope Value) :
    Node → Eval Value
  | .expr (.call _ (.value callee) args) => do
    let callee ← visitExpr visit scope callee
    let args ← args.mapM (evalArgument visit scope)
    callee.callWithin visit exceeded (callee.frameBound args.flatten) args.flatten
  | node => evalNode definitions visit scope node

/-- Evaluation where at most `steps` steps are nested; one more is `exceeded`. A step fails if the
trail has reached the limit, and that is all there is to check. -/
def evaluateWithin : (steps : Nat) → Scope Value → Node → Eval Value
  | 0, _, _ => exceeded
  | steps + 1, scope, node => do
    let m ← get
    if limit ≤ m.trail.length then
      Eval.fail (.recursionLimit limit)
    else
      Eval.within node.span
        (evalNodeWithin definitions exceeded (evaluateWithin steps) scope node)

variable {definitions limit exceeded}

theorem evalNodeWithin_eq_evalNode (visit : Scope Value → Node → Eval Value) (scope : Scope Value)
    (node : Node) :
    evalNodeWithin definitions exceeded visit scope node =
      evalNode definitions visit scope node := by
  unfold evalNodeWithin
  split
  · rename_i callee args
    simp only [Value.callWithin_eq_call visit exceeded (Nat.le_refl _)]
    rfl
  · rfl

theorem evaluateWithin_full {steps : Nat} {scope : Scope Value} {node : Node} {m : Machine}
    (h : limit ≤ m.trail.length) :
    (evaluateWithin definitions limit exceeded (steps + 1) scope node).run m =
      (Eval.fail (.recursionLimit limit) : Eval Value).run m := by
  show (if limit ≤ m.trail.length then _ else _ : Eval Value).run m = _
  rw [if_pos h]

theorem evaluateWithin_free {steps : Nat} {scope : Scope Value} {node : Node} {m : Machine}
    (h : m.trail.length < limit) :
    (evaluateWithin definitions limit exceeded (steps + 1) scope node).run m =
      (Eval.within node.span (evalNode definitions
        (evaluateWithin definitions limit exceeded steps) scope node)).run m := by
  show (if limit ≤ m.trail.length then _ else _ : Eval Value).run m = _
  rw [if_neg (Nat.not_le.2 h), evalNodeWithin_eq_evalNode]

/-- Values that are alike with equal scopes throughout are equal, and so are runs with related
outcomes. -/
theorem Eval.Agree.run_eq {trail : List Span} {step other : Eval Value}
    (h : Agree trail (Value.Alike True fun _ => True) step other) (supply : Nat) :
    step.run ⟨trail, supply⟩ = other.run ⟨trail, supply⟩ := by
  obtain ⟨result, outcome, after, hstep, hother, hrelated⟩ := h supply
  rw [hstep, hother]
  cases hrelated with
  | ok hvalue => rw [hvalue.eq_of_exact trivial]
  | error fault => rfl

/-- With one step more than there is room for on the trail, the guarded evaluation agrees with
`evaluate`: each step leaves one place less on the trail and takes one step from the budget. -/
theorem evaluateWithin_agree {steps : Nat} {trail : List Span}
    (hsteps : limit - trail.length < steps) {s t : Scope Value} {node : Node}
    (h : Scope.Alike True (fun _ => True) node.marks s t) :
    Agree trail (Value.Alike True fun _ => True)
      (evaluateWithin definitions limit exceeded steps s node)
      (evaluate definitions limit (limit - trail.length) t node) := by
  induction steps generalizing trail s t node with
  | zero => omega
  | succ steps ih =>
    intro supply
    rcases Nat.lt_or_ge trail.length limit with hroom | hfull
    · obtain ⟨remaining, hremaining⟩ : ∃ remaining, limit - trail.length = remaining + 1 :=
        ⟨limit - trail.length - 1, by omega⟩
      have hinner : limit - (node.span :: trail).length = remaining := by
        rw [List.length_cons]
        omega
      have hrule : Agree (node.span :: trail) (Value.Alike True fun _ => True)
          (evalNode definitions (evaluateWithin definitions limit exceeded steps) s node)
          (evalNode definitions (evaluate definitions limit remaining) t node) := by
        refine evalNode_agree (fun hscopes => ?_) definitions.agreeOn_self (fun _ _ => trivial) h
        rw [← hinner]
        exact ih (by omega) hscopes
      rw [hremaining, evaluateWithin_free hroom]
      exact Eval.agree_iff_coupled.2 (.within (Eval.agree_iff_coupled.1 hrule)) supply
    · rw [evaluateWithin_full hfull, Nat.sub_eq_zero_of_le hfull]
      exact ⟨_, _, supply, rfl, rfl, .error _⟩

/-- Evaluation on any machine nests at most one step more than the limit leaves room for on the
trail, and a call, inside an evaluation or from outside, nests at most as many calls before the
next step as its callee and first argument are made of values. With budgets of that size, or with
more, what would happen past a budget has no influence. -/
theorem evaluation_within_budgets (definitions : Definitions) (limit : Nat)
    (exceeded : Eval Value) (m : Machine) (more : Nat) :
    let steps := limit - m.trail.length + 1 + more
    let remaining := limit - m.trail.length
    (∀ scope node, (evaluateWithin definitions limit exceeded steps scope node).run m =
      (evaluate definitions limit remaining scope node).run m) ∧
    ∀ (callee : Value) (args : List Value),
      (callee.callWithin (evaluateWithin definitions limit exceeded steps) exceeded
        (callee.frameBound args + more) args).run m =
      (callee.call (evaluate definitions limit remaining) args).run m := by
  intro steps remaining
  have hvisit {s t : Scope Value} {node : Node}
      (h : Scope.Alike True (fun _ => True) node.marks s t) :
      Agree m.trail (Value.Alike True fun _ => True)
        (evaluateWithin definitions limit exceeded steps s node)
        (evaluate definitions limit remaining t node) :=
    evaluateWithin_agree (by omega) h
  constructor
  · intro scope node
    have hscope : Scope.Alike True (fun _ => True) node.marks scope scope :=
      Scope.alike_refl (fun _ => trivial) _ scope
    exact (hvisit hscope).run_eq m.supply
  · intro callee args
    rw [Value.callWithin_eq_call _ exceeded (Nat.le_add_right _ _)]
    have hargs : Forall₂ (Value.Alike True fun _ => True) args args :=
      List.forall₂_same.2 fun arg _ => .refl (fun _ => trivial) arg
    exact (Value.call_agree hvisit (.refl (fun _ => trivial) callee) hargs).run_eq m.supply

end

end StaticConfig
