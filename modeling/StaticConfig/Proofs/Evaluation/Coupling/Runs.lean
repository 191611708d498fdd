import Mathlib.Order.Defs.PartialOrder
import StaticConfig.Proofs.Evaluation.Resemblance

/-!
# Coupled runs

Two runs beside each other. A proof that compares them says which supplies they may have at the same
time, which fault of the second run may stand for one of the first, and after which faults of the
first run nothing is asked of the second one: the terms of the comparison. What is known of the
values that come up may grow as tags are drawn, so it is told in worlds that come one after the
other.

`Eval.Coupled` says that two computations stay beside each other on such terms. It is kept by
`bind`, by `mapM` and `foldlM`, and by `within`.
-/

namespace StaticConfig

open List (Forall₂)

/-- On what terms two runs are beside each other. -/
structure Terms (W : Type) where
  /-- The supplies that the two runs may have at the same time. -/
  supplies : W → Nat → Nat → Prop
  /-- The faults that the second run may end in for one of the first run. -/
  faults : Fault → Fault → Prop
  /-- The faults of the first run after which nothing is asked of the second one. -/
  excuses : Fault → Prop

/-- The one world of what does not depend on what has been built. -/
structure Timeless where
  always ::

instance : Preorder Timeless where
  le _ _ := True
  le_refl _ := trivial
  le_trans _ _ _ _ _ := trivial

/-- The terms of runs that draw the same tags. -/
def Terms.inStep (faults : Fault → Fault → Prop) (excuses : Fault → Prop) : Terms Timeless where
  supplies _ := (· = ·)
  faults := faults
  excuses := excuses

/-- Outcomes that are related values, or faults of which the second one may stand for the first. -/
inductive Outcome.Coupled {α β : Type} (faults : Fault → Fault → Prop) (R : α → β → Prop) :
    Except Fault α → Except Fault β → Prop
  | ok {a : α} {b : β} : R a b → Coupled faults R (.ok a) (.ok b)
  | error {fault fault' : Fault} : faults fault fault' →
    Coupled faults R (.error fault) (.error fault')

/-- The fault for a form that cannot be evaluated, inside the steps of a trail. -/
def Definitions.constructFault (d : Definitions) (kind : Kind) (span : Span) (trail : List Span) :
    Fault :=
  .unsupportedConstruct kind ((d.quote? span).getD "") ((trail.find? (· ≠ span)).bind d.quote?)

section

variable {W α β γ δ : Type} [Preorder W] {terms : Terms W} {trail trail' : List Span} {w : W}
variable {Q : W → α → β → Prop} {R : W → γ → δ → Prop}

/-- Whether what the two sides make of the tags that they draw next is related by `Q`, in a later
world. -/
def Terms.Makes (terms : Terms W) (w : W) (Q : W → α → β → Prop) (make : Nat → α)
    (make' : Nat → β) : Prop :=
  ∀ supply supply', terms.supplies w supply supply' →
    ∃ w', w ≤ w' ∧ terms.supplies w' (supply + 1) (supply' + 1) ∧ Q w' (make supply) (make' supply')

namespace Eval

/-- With supplies that fit the world, `step` comes back to its trail. Unless it ends in a fault that
is an excuse, so does `other`, in a later world that the supplies then fit, with a related
outcome. -/
def Coupled (terms : Terms W) (trail trail' : List Span) (w : W) (Q : W → α → β → Prop)
    (step : Eval α) (other : Eval β) : Prop :=
  ∀ supply supply', terms.supplies w supply supply' → ∃ result after,
    step.run ⟨trail, supply⟩ = (result, ⟨trail, after⟩) ∧
      ((∃ fault, terms.excuses fault ∧ result = .error fault) ∨
        ∃ outcome after' w', other.run ⟨trail', supply'⟩ = (outcome, ⟨trail', after'⟩) ∧ w ≤ w' ∧
          terms.supplies w' after after' ∧ Outcome.Coupled terms.faults (Q w') result outcome)

namespace Coupled

theorem pure {a : α} {b : β} (h : Q w a b) :
    Coupled terms trail trail' w Q (pure a) (pure b) :=
  fun _ _ hsupply => ⟨_, _, rfl, .inr ⟨_, _, w, rfl, le_rfl, hsupply, .ok h⟩⟩

theorem fail {fault fault' : Fault} (h : terms.faults fault fault') :
    Coupled terms trail trail' w Q (fail fault) (fail fault') :=
  fun _ _ hsupply => ⟨_, _, rfl, .inr ⟨_, _, w, rfl, le_rfl, hsupply, .error h⟩⟩

theorem excused {fault : Fault} (h : terms.excuses fault) (other : Eval β) :
    Coupled terms trail trail' w Q (Eval.fail fault : Eval α) other :=
  fun _ _ _ => ⟨_, _, rfl, .inl ⟨fault, h, rfl⟩⟩

theorem unsupported {left right : Definitions} {kind : Kind} {span : Span}
    (h : terms.faults (left.constructFault kind span trail)
      (right.constructFault kind span trail')) :
    Coupled terms trail trail' w Q (left.unsupported kind span) (right.unsupported kind span) :=
  fun _ _ hsupply => ⟨_, _, rfl, .inr ⟨_, _, w, rfl, le_rfl, hsupply, .error h⟩⟩

theorem make {make : Nat → α} {make' : Nat → β} (h : terms.Makes w Q make make') :
    Coupled terms trail trail' w Q (fresh >>= fun tag => Pure.pure (make tag))
      (fresh >>= fun tag => Pure.pure (make' tag)) := by
  intro supply supply' hsupply
  obtain ⟨w', hle, hafter, hmade⟩ := h supply supply' hsupply
  exact ⟨_, _, rfl, .inr ⟨_, _, w', rfl, hle, hafter, .ok hmade⟩⟩

theorem imp {Q' : W → α → β → Prop} {step : Eval α} {other : Eval β}
    (h : Coupled terms trail trail' w Q step other)
    (hQ : ∀ w' a b, w ≤ w' → Q w' a b → Q' w' a b) :
    Coupled terms trail trail' w Q' step other := by
  intro supply supply' hsupply
  obtain ⟨result, after, hstep, hother⟩ := h supply supply' hsupply
  refine ⟨result, after, hstep, hother.imp id ?_⟩
  rintro ⟨outcome, after', w', hother, hle, hafter, houtcome⟩
  refine ⟨outcome, after', w', hother, hle, hafter, ?_⟩
  cases houtcome with
  | ok hab => exact .ok (hQ w' _ _ hle hab)
  | error hfault => exact .error hfault

/-- If the first part of `step` ends in an excuse then so does `step`, and otherwise the second
parts start in the world that the first parts came to. -/
theorem bind {step : Eval α} {other : Eval β} {next : α → Eval γ} {following : β → Eval δ}
    (h : Coupled terms trail trail' w Q step other)
    (hnext : ∀ w' a b, w ≤ w' → Q w' a b →
      Coupled terms trail trail' w' R (next a) (following b)) :
    Coupled terms trail trail' w R (step >>= next) (other >>= following) := by
  intro supply supply' hsupply
  obtain ⟨result, after, hstep, hother⟩ := h supply supply' hsupply
  rw [run_bind, run_bind, hstep]
  rcases hother with ⟨fault, hexcuse, rfl⟩ | ⟨outcome, after', w', hother, hle, hafter, houtcome⟩
  · exact ⟨_, _, rfl, .inl ⟨fault, hexcuse, rfl⟩⟩
  · rw [hother]
    cases houtcome with
    | error hfault => exact ⟨_, _, rfl, .inr ⟨_, _, w', rfl, hle, hafter, .error hfault⟩⟩
    | ok hab =>
      obtain ⟨result, last, hstep, hother⟩ := hnext w' _ _ hle hab _ _ hafter
      refine ⟨result, last, hstep, hother.imp id ?_⟩
      rintro ⟨outcome, last', w'', hother, hle', hlast, houtcome⟩
      exact ⟨outcome, last', w'', hother, le_trans hle hle', hlast, houtcome⟩

/-- Results that were come to early are still related when the last ones are there. -/
theorem mapM {f : α → Eval γ} {g : β → Eval δ} {as : List α} {bs : List β}
    (hkept : ∀ {w w' c d}, w ≤ w' → R w c d → R w' c d)
    (h : Forall₂ (fun a b => ∀ w', w ≤ w' → Coupled terms trail trail' w' R (f a) (g b)) as bs)
    {w' : W} (hle : w ≤ w') :
    Coupled terms trail trail' w' (fun w' => Forall₂ (R w')) (as.mapM f) (bs.mapM g) := by
  induction h generalizing w' with
  | nil => exact .pure .nil
  | cons hhead _ ih =>
    rw [List.mapM_cons, List.mapM_cons]
    refine (hhead w' hle).bind fun v c d hle' hfirst => ?_
    exact (ih (le_trans hle hle')).bind fun v' cs ds hle'' hrest =>
      .pure (.cons (hkept hle'' hfirst) hrest)

theorem foldlM {ε : Type} {f : α → γ → Eval α} {g : β → ε → Eval β} {change : γ → ε}
    {things : List γ}
    (h : ∀ thing ∈ things, ∀ w' a b, w ≤ w' → Q w' a b →
      Coupled terms trail trail' w' Q (f a thing) (g b (change thing)))
    {a : α} {b : β} (hstart : Q w a b) :
    Coupled terms trail trail' w Q (things.foldlM f a) ((things.map change).foldlM g b) := by
  induction things generalizing w a b with
  | nil => exact .pure hstart
  | cons thing rest ih =>
    rw [List.map_cons, List.foldlM_cons, List.foldlM_cons]
    refine (h thing List.mem_cons_self w a b le_rfl hstart).bind fun w' a b hle hab => ?_
    exact ih (fun thing hthing w'' a b hle' =>
      h thing (List.mem_cons_of_mem _ hthing) w'' a b (le_trans hle hle')) hab

theorem within {step : Eval α} {other : Eval β} {span span' : Span}
    (h : Coupled terms (span :: trail) (span' :: trail') w Q step other) :
    Coupled terms trail trail' w Q (within span step) (within span' other) := by
  intro supply supply' hsupply
  obtain ⟨result, after, hstep, hother⟩ := h supply supply' hsupply
  refine ⟨result, after, run_within_of hstep, hother.imp id ?_⟩
  rintro ⟨outcome, after', w', hother, hrest⟩
  exact ⟨outcome, after', w', run_within_of hother, hrest⟩

/-- A step around the first computation alone. -/
theorem within_left {step : Eval α} {other : Eval β} {span : Span}
    (h : Coupled terms (span :: trail) trail' w Q step other) :
    Coupled terms trail trail' w Q (Eval.within span step) other := by
  intro supply supply' hsupply
  obtain ⟨result, after, hstep, hother⟩ := h supply supply' hsupply
  exact ⟨result, after, run_within_of hstep, hother⟩

/-- What the second computation does from a machine, given by another one that does the same. -/
theorem congr_right {step : Eval α} {other another : Eval β}
    (h : Coupled terms trail trail' w Q step other)
    (hrun : ∀ supply, another.run ⟨trail', supply⟩ = other.run ⟨trail', supply⟩) :
    Coupled terms trail trail' w Q step another := by
  intro supply supply' hsupply
  rw [hrun]
  exact h supply supply' hsupply

end Coupled

/-! ### The same tags -/

variable {faults : Fault → Fault → Prop} {excuses : Fault → Prop} {R : α → β → Prop}

theorem coupled_inStep_iff {step : Eval α} {other : Eval β} :
    Coupled (.inStep faults excuses) trail trail' .always (fun _ => R) step other ↔
      ∀ supply, ∃ result after, step.run ⟨trail, supply⟩ = (result, ⟨trail, after⟩) ∧
        ((∃ fault, excuses fault ∧ result = .error fault) ∨
          ∃ outcome, other.run ⟨trail', supply⟩ = (outcome, ⟨trail', after⟩) ∧
            Outcome.Coupled faults R result outcome) := by
  constructor
  · intro h supply
    obtain ⟨result, after, hstep, hother⟩ := h supply supply rfl
    refine ⟨result, after, hstep, hother.imp id ?_⟩
    rintro ⟨outcome, _, _, hother, -, rfl, houtcome⟩
    exact ⟨outcome, hother, houtcome⟩
  · rintro h supply _ rfl
    obtain ⟨result, after, hstep, hother⟩ := h supply
    refine ⟨result, after, hstep, hother.imp id ?_⟩
    rintro ⟨outcome, hother, houtcome⟩
    exact ⟨outcome, after, .always, hother, trivial, rfl, houtcome⟩

end Eval

end

end StaticConfig
