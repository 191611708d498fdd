import StaticConfig.Proofs.Evaluation.Agreement
import StaticConfig.Proofs.Snippet

/-!
# Lexical scoping

A node means the same in all scopes that agree on the names that occur in it, so nothing else that
a caller has bound reaches a definition that is followed or an arrow function that is called.

- `Value.Interchangeable`: values up to what the scopes of arrow functions bind to names that do
  not occur in them;
- `Value.Interchangeable.call`: calls of interchangeable values with interchangeable arguments;
- `evaluate_of_lookup_eq`: evaluation in two scopes that agree on the names of a node.
-/

namespace StaticConfig

open List (Forall₂)
open Eval (Agree)

/-- Values that are equal but for what the scopes of arrow functions in them bind to names that do
not occur in the bodies of these functions. -/
def Value.Interchangeable : Value → Value → Prop := Value.Alike False fun _ => True

theorem Value.Interchangeable.refl (v : Value) : v.Interchangeable v :=
  Value.Alike.refl (fun _ => trivial) v

section

variable (definitions : Definitions) (limit remaining : Nat)

/-- Evaluation cannot tell scopes apart that are alike for the node. -/
theorem evaluate_interchangeable {s t : Scope Value} {node : Node}
    (h : Scope.Alike False (fun _ => True) node.marks s t) (trail : List Span) :
    Agree trail Value.Interchangeable (evaluate definitions limit remaining s node)
      (evaluate definitions limit remaining t node) :=
  evaluate_agree definitions.agreeOn_self limit remaining (fun _ _ => trivial) h

/-- Interchangeable values called with interchangeable arguments give interchangeable values. -/
theorem Value.Interchangeable.call {callee called : Value} (hcallee : callee.Interchangeable called)
    {args others : List Value} (hargs : Forall₂ Value.Interchangeable args others)
    (trail : List Span) :
    Agree trail Value.Interchangeable (callee.call (evaluate definitions limit remaining) args)
      (called.call (evaluate definitions limit remaining) others) :=
  Value.call_agree (fun h => evaluate_interchangeable definitions limit remaining h trail)
    hcallee hargs

/-- Scopes that bind the names in a node to the same values, or not at all, give it the same
meaning: from the same machine the same fault, or interchangeable values. These have the same text
and the same JSON, and when they are called with the same arguments, under any limit and from any
trail, the outcomes are related in the same way again. -/
theorem evaluate_of_lookup_eq (m : Machine) {s t : Scope Value} {node : Node}
    (h : ∀ name ∈ node.names, s.lookup? name = t.lookup? name) :
    (∃ result outcome after,
      (evaluate definitions limit remaining s node).run m = (result, after) ∧
        (evaluate definitions limit remaining t node).run m = (outcome, after) ∧
          after.trail = m.trail ∧ Outcome.Related Value.Interchangeable result outcome) ∧
      ∀ v w : Value, v.Interchangeable w → v.display = w.display ∧ v.toJson = w.toJson ∧
        ∀ (args : List Value) (limit remaining : Nat) (trail : List Span),
          Agree trail Value.Interchangeable (v.call (evaluate definitions limit remaining) args)
            (w.call (evaluate definitions limit remaining) args) := by
  constructor
  · have hscopes : Scope.Alike False (fun _ => True) node.marks s t :=
      Scope.alike_of_lookup_eq (fun _ => trivial) False.elim fun mark hmark name hoccurs =>
        h name (mem_names.2 ⟨mark, hmark, hoccurs⟩)
    obtain ⟨result, outcome, after, hstep, hother, hrelated⟩ :=
      evaluate_interchangeable definitions limit remaining hscopes m.trail m.supply
    exact ⟨result, outcome, ⟨m.trail, after⟩, hstep, hother, rfl, hrelated⟩
  · intro v w hvalue
    refine ⟨Value.Alike.resemblance.display_eq hvalue, Value.Alike.resemblance.toJson_eq hvalue,
      fun args limit remaining trail => ?_⟩
    have hargs : Forall₂ Value.Interchangeable args args :=
      List.forall₂_same.2 fun arg _ => .refl arg
    exact hvalue.call definitions limit remaining hargs trail

end

/-! ### Two scopes around one arrow function -/

namespace Shadowed

/-- Where the text `() => x` stands. -/
def span : Span := Snippet.place 0 7

/-- The body of the function: a name, at the end of the text. -/
def body : ArrowBody := .value (.identifier ⟨"x", Snippet.place 6 7⟩)

/-- The function as an expression. -/
def function : Node := .expr (.arrow span false [] body)

/-- A scope that binds `x` and nothing else. -/
def narrow : Scope Value := Scope.root.bind "x" (.bool true)

/-- A scope that also binds `secret`. -/
def wide : Scope Value := (Scope.root.bind "secret" .null).bind "x" (.bool true)

/-- The two functions keep different scopes, and yet cannot be told apart. -/
theorem function_interchangeable :
    (∀ name ∈ function.names, narrow.lookup? name = wide.lookup? name) ∧
      (Value.closure 0 ⟨span, [], body⟩ narrow).Interchangeable
        (.closure 0 ⟨span, [], body⟩ wide) := by
  have hlookup : ∀ name ∈ function.names, narrow.lookup? name = wide.lookup? name := by
    intro name hname
    obtain rfl := List.mem_singleton.1 (show name ∈ ["x"] from hname)
    rfl
  obtain ⟨⟨result, outcome, after, hstep, hother, _, hrelated⟩, _⟩ :=
    evaluate_of_lookup_eq .none 8 8 .start hlookup
  have hnarrow : (evaluate .none 8 8 narrow function).run .start =
      (.ok (.closure 0 ⟨span, [], body⟩ narrow), ⟨[], 1⟩) := rfl
  have hwide : (evaluate .none 8 8 wide function).run .start =
      (.ok (.closure 0 ⟨span, [], body⟩ wide), ⟨[], 1⟩) := rfl
  rw [hnarrow] at hstep
  rw [hwide] at hother
  cases hstep
  cases hother
  cases hrelated with
  | ok h => exact ⟨hlookup, h⟩

end Shadowed

end StaticConfig
