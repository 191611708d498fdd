import StaticConfig.Evaluation.Evaluate
import StaticConfig.Proofs.Evaluation.Knowledge

/-!
# Invariants of runs

What holds of all the values that a run comes across, those it builds included, and of the faults
that it ends in. A run is coupled with itself exactly if it keeps what is known of its values.

- `Eval.Ensures`: a computation leads to a later world, where its value satisfies a predicate, or
  to a fault that satisfies another one;
- `Knowledge.Uniform.evaluate_ensures`, `Knowledge.Uniform.call_ensures`: uniform knowledge holds
  of whole evaluations and calls.
-/

namespace StaticConfig

open List (Forall₂)

/-- Whether an outcome is a value that satisfies `Q`, or a fault that satisfies `blame`. -/
inductive Outcome.Ends {α : Type} (blame : Fault → Prop) (Q : α → Prop) : Except Fault α → Prop
  | ok {a : α} : Q a → Ends blame Q (.ok a)
  | error {fault : Fault} : blame fault → Ends blame Q (.error fault)

/-- The faults of a run beside itself. -/
def Fault.Blamed (blame : Fault → Prop) (fault fault' : Fault) : Prop :=
  fault = fault' ∧ blame fault

namespace Eval

variable {W α β : Type} [Preorder W] {K : Knowledge W} {blame : Fault → Prop}
variable {trail trail' : List Span}
variable {w : W} {Q : W → α → Prop}

/-- From a supply that fits the world, the computation comes back to its trail with a supply that
fits a later world, and with a value that satisfies `Q` there or a fault that satisfies `blame`. -/
def Ensures (fits : W → Nat → Prop) (blame : Fault → Prop) (trail : List Span) (w : W)
    (Q : W → α → Prop) (step : Eval α) : Prop :=
  ∀ supply, fits w supply → ∃ result after w',
    step.run ⟨trail, supply⟩ = (result, ⟨trail, after⟩) ∧ w ≤ w' ∧ fits w' after ∧
      Outcome.Ends blame (Q w') result

theorem Ensures.imp {fits : W → Nat → Prop} {blame' : Fault → Prop} {Q' : W → α → Prop}
    {step : Eval α} (h : Ensures fits blame trail w Q step)
    (hblame : ∀ fault, blame fault → blame' fault) (hQ : ∀ w a, Q w a → Q' w a) :
    Ensures fits blame' trail w Q' step := by
  intro supply hfits
  obtain ⟨result, after, w', hrun, hle, hfits', hresult⟩ := h supply hfits
  refine ⟨result, after, w', hrun, hle, hfits', ?_⟩
  cases hresult with
  | ok ha => exact .ok (hQ w' _ ha)
  | error hfault => exact .error (hblame _ hfault)

/-- What is known of both of two runs is known of the first one. -/
theorem ensures_of_coupled {R : W → α → α → Prop} {step other : Eval α}
    (h : Coupled (K.terms (Fault.Blamed blame) fun _ => False) trail trail' w R step other)
    (hQ : ∀ w a b, R w a b → Q w a) : Ensures K.fits blame trail w Q step := by
  intro supply hfits
  obtain ⟨result, after, hrun, hother⟩ := h supply supply ⟨rfl, hfits⟩
  obtain ⟨outcome, _, w', -, hle, ⟨rfl, hfits'⟩, houtcome⟩ :=
    hother.resolve_left fun ⟨_, hexcuse, _⟩ => hexcuse
  refine ⟨result, after, w', hrun, hle, hfits', ?_⟩
  cases houtcome with
  | ok ha => exact .ok (hQ w' _ _ ha)
  | error hfault => exact .error (hfault.1 ▸ hfault.2)

theorem ensures_iff_coupled {step : Eval α} :
    Ensures K.fits blame trail w Q step ↔
      Coupled (K.terms (Fault.Blamed blame) fun _ => False) trail trail w (Same Q) step step := by
  refine ⟨?_, fun h => ensures_of_coupled h fun _ _ _ ha => ha.2⟩
  rintro h supply _ ⟨rfl, hfits⟩
  obtain ⟨result, after, w', hrun, hle, hfits', hresult⟩ := h supply hfits
  refine ⟨result, after, hrun, .inr ⟨result, after, w', hrun, hle, ⟨rfl, hfits'⟩, ?_⟩⟩
  cases hresult with
  | ok ha => exact .ok ⟨rfl, ha⟩
  | error hfault => exact .error ⟨rfl, hfault⟩

end Eval

open Eval (Ensures ensures_iff_coupled ensures_of_coupled)

namespace Knowledge.Uniform

variable {W : Type} [Preorder W] {K : Knowledge W} (hK : K.Uniform)
variable (definitions : Definitions) (limit remaining : Nat)

include hK

/-- By induction on the steps that may still be nested. -/
theorem evaluate_ensures {trail : List Span} {w : W} {scope : Scope Value}
    (hscope : K.OfScope w scope) (node : Node) :
    Ensures K.fits (fun _ => True) trail w K.outer
      (evaluate definitions limit remaining scope node) := by
  induction remaining generalizing trail w scope node with
  | zero => exact ensures_iff_coupled.2 (.fail ⟨rfl, trivial⟩)
  | succ remaining ih =>
    refine ensures_iff_coupled.2 (.within (hK.evalNode_same (fun _ => ⟨rfl, trivial⟩) ?_
      (fun _ _ => ⟨rfl, trivial⟩) hscope node))
    exact fun hscope => ensures_iff_coupled.1 (ih hscope _)

theorem call_ensures {trail : List Span} {w : W} {callee : Value} {args : List Value}
    (hcallee : K.inner w callee) (hargs : K.OfValues w args) :
    Ensures K.fits (fun _ => True) trail w K.outer
      (callee.call (evaluate definitions limit remaining) args) :=
  ensures_iff_coupled.2 (hK.call_same (fun _ => ⟨rfl, trivial⟩)
    (fun hscope => ensures_iff_coupled.1
      (hK.evaluate_ensures definitions limit remaining hscope _)) hcallee hargs)

theorem arguments_ensures {trail : List Span} {w : W} {scope : Scope Value}
    (hscope : K.OfScope w scope) (args : List Argument) :
    Ensures K.fits (fun _ => True) trail w (fun w groups => K.OfValues w groups.flatten)
      (args.mapM (evalArgument (evaluate definitions limit remaining) scope)) :=
  ensures_of_coupled (hK.arguments_same (fun _ => ⟨rfl, trivial⟩)
    (fun hscope => ensures_iff_coupled.1
      (hK.evaluate_ensures definitions limit remaining hscope _)) hscope args)
    fun _ _ _ h => h.2

end Knowledge.Uniform

end StaticConfig
