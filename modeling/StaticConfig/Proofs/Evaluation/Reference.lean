import StaticConfig.Evaluation.Evaluate
import StaticConfig.Proofs.Evaluation.Knowledge

/-!
# Names and what they refer to

A name that nothing binds has the value of its first declaration, which is evaluated one step
further in. The step takes room, but otherwise it can hardly be noticed: no rule looks at the trail,
and what quotes it looks for a span from the inner end. So the two evaluations draw the same tags
and end alike. Faults may differ in two ways: in the limit that they report, and where no parent is
found to quote, in that the name is one.

- `Fault.FurtherIn`, `Outcome.FurtherIn`: how faults and outcomes may differ one step further in;
- `evaluate_furtherIn`: evaluations end like this on a trail and on the trail with one more span at
  its outer end;
- `eval_of_candidates`: the statement for a name and its first declaration.
-/

namespace StaticConfig

open Knowledge (nothing uniform_nothing run_of_same)

section

variable (definitions : Definitions) (around : Span) (limit : Nat)

/-- How a fault may be reported from inside the step of a span, under a limit that leaves room for
the step. -/
inductive Fault.FurtherIn : Fault → Fault → Prop
  | same {fault : Fault} : fault.isLocal = true → FurtherIn fault fault
  | exceeded : FurtherIn (.recursionLimit limit) (.recursionLimit (limit + 1))
  | quoted (kind : Kind) (text : String) (parent : Option String) :
    FurtherIn (.unsupportedConstruct kind text parent) (.unsupportedConstruct kind text parent)
  /-- Where no parent is found, the step around is one. -/
  | outermost (kind : Kind) (text : String) :
    FurtherIn (.unsupportedConstruct kind text none)
      (.unsupportedConstruct kind text (definitions.quote? around))

/-- Outcomes that are the same value, or the same fault as it may be reported one step further
in. -/
inductive Outcome.FurtherIn {α : Type} : Except Fault α → Except Fault α → Prop
  | ok (a : α) : FurtherIn (.ok a) (.ok a)
  | error {fault fault' : Fault} : fault.FurtherIn definitions around limit fault' →
    FurtherIn (.error fault) (.error fault')

/-- The terms of a run and of the same one further in. -/
abbrev Eval.furtherIn : Terms Timeless :=
  nothing.terms (Fault.FurtherIn definitions around limit) fun _ => False

/-- A parent that is found from the inner end is found before the outermost span. -/
theorem constructFault_furtherIn (kind : Kind) (span : Span) (trail : List Span) :
    (definitions.constructFault kind span trail).FurtherIn definitions around limit
      (definitions.constructFault kind span (trail ++ [around])) := by
  rw [Definitions.constructFault, Definitions.constructFault, List.find?_append]
  cases trail.find? (· ≠ span) with
  | some parent => exact .quoted kind _ _
  | none =>
    by_cases hspan : around = span
    · simp only [hspan, List.find?_singleton, ne_eq, not_true_eq_false, decide_false]
      exact .quoted kind _ _
    · simp only [List.find?_singleton, ne_eq, hspan, not_false_eq_true, decide_true]
      exact .outermost kind _

/-- By induction on the steps that may still be nested, which are as many on both sides. -/
theorem evaluate_furtherIn (remaining : Nat) (trail : List Span) (scope : Scope Value)
    (node : Node) :
    Eval.Coupled (Eval.furtherIn definitions around limit) trail (trail ++ [around]) .always
      (Same nothing.outer) (evaluate definitions limit remaining scope node)
      (evaluate definitions (limit + 1) remaining scope node) := by
  induction remaining generalizing trail scope node with
  | zero => exact .fail .exceeded
  | succ remaining ih =>
    have hinside {scope : Scope Value} {node' : Node} := ih (node.span :: trail) scope node'
    exact .within (uniform_nothing.evalNode_same .same (fun _ => hinside)
      (fun kind span => constructFault_furtherIn definitions around limit kind span _)
      (fun _ _ _ _ => trivial) node)

variable {definitions}

/-- In the root scope a name is evaluated like its first declaration, one step further in. -/
theorem eval_of_candidates {ident : Ident} {first : Node} {rest : List Node}
    (hname : ident.name ≠ "undefined") (hcandidates : definitions.candidates ident = first :: rest)
    (limit supply : Nat) :
    ∃ result outcome after,
      ((Evaluator.mk definitions limit).eval .root first).run ⟨[], supply⟩ =
        (result, ⟨[], after⟩) ∧
      ((Evaluator.mk definitions (limit + 1)).eval .root (.expr (.identifier ident))).run
        ⟨[], supply⟩ = (outcome, ⟨[], after⟩) ∧
      Outcome.FurtherIn definitions ident.span limit result outcome := by
  obtain ⟨result, after, hfirst, hother⟩ :=
    run_of_same (evaluate_furtherIn definitions ident.span limit limit [] .root first) supply
  obtain ⟨outcome, hinside, houtcome⟩ := hother.resolve_left nofun
  refine ⟨result, outcome, after, hfirst, Eval.run_within_of ?_, ?_⟩
  · show (evalName definitions _ .root ident).run _ = _
    simp only [evalName, if_neg hname, Scope.lookup?_root, hcandidates]
    exact hinside
  · cases houtcome with
    | ok hvalue => exact hvalue.1 ▸ .ok _
    | error hfault => exact .error hfault

end

end StaticConfig
