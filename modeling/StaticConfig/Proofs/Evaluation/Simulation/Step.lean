import StaticConfig.Proofs.Evaluation.Coupling.Rules
import StaticConfig.Proofs.Evaluation.Pairing

/-!
# Simulation

A run of `evaluate` beside a run under an observer. The second run may draw other tags, go through
code that has lost wrappers and word some faults differently, as a `Simulation` says; it then
follows the first one, unless that one stops at the limit for the wrappers that only it has.

- `Eval.Follows`: both computations come back to their trails, with supplies that stay in step and
  related outcomes. It is kept by `bind` and by `within`.
- `Simulation.Ignores`: what an observer must leave alone so as not to be noticed.
-/

namespace StaticConfig

open List (Forall₂)

/-! ### Simulations -/

/-- Surroundings of two runs, and in what the runs may differ. -/
structure Simulation extends Pairing where
  left : Definitions
  right : Definitions
  /-- The faults that the second run may end in for one of the first run. -/
  faults : Fault → Fault → Prop
  /-- The supplies that the two runs may have at the same time. -/
  supplies : Nat → Nat → Prop
  supplies_succ : ∀ {supply supply' : Nat}, supplies supply supply' →
    supplies (supply + 1) (supply' + 1)
  tags_of_supplies : ∀ {supply supply' : Nat}, supplies supply supply' → tags supply supply'
  candidates : ∀ ident, right.candidates ident = (left.candidates ident).map (Node.unwrap drop)
  /-- Trails only differ by the wrappers that are gone. -/
  constructs : ∀ (kind : Kind) (span : Span) {trail trail' : List Span},
    ((∀ wrapper, drop wrapper = false) → trail = trail') →
      faults (left.constructFault kind span trail) (right.constructFault kind span trail')
  faults_self : ∀ {fault : Fault}, fault.rejectsMethod = false → faults fault fault

namespace Simulation

variable (S : Simulation)

/-- The values that the two runs may have at the same place. -/
abbrev Values : Value → Value → Prop := Value.Paired S.toPairing

/-- The scopes that the two runs may have at the same place. -/
abbrev Scopes : Scope Value → Scope Value → Prop := Scope.Paired S.toPairing

/-- Both runs go through the same code. -/
def Exact : Prop := ∀ wrapper, S.drop wrapper = false

/-- The trails that the two runs may have at the same time. -/
def Trails (trail trail' : List Span) : Prop :=
  trail'.length ≤ trail.length ∧ (S.Exact → trail = trail')

/-- The terms of the two runs: nothing is asked of the second one when the first one stops at the
limit and has wrappers that the second one goes without. -/
def terms : Terms Timeless where
  supplies _ := S.supplies
  faults := S.faults
  excuses fault := ¬ S.Exact ∧ ∃ limit, fault = .recursionLimit limit

variable {S} {trail trail' : List Span}

theorem Trails.cons (h : S.Trails trail trail') (span : Span) :
    S.Trails (span :: trail) (span :: trail') :=
  ⟨Nat.succ_le_succ h.1, fun hexact => congrArg _ (h.2 hexact)⟩

/-- A step of a wrapper that is gone is on the first trail only. -/
theorem Trails.cons_left (h : S.Trails trail trail') (span : Span) {wrapper : Wrapper}
    (hdrop : S.drop wrapper = true) : S.Trails (span :: trail) trail' :=
  ⟨Nat.le_succ_of_le h.1, fun hexact => absurd (hexact wrapper) (by simp [hdrop])⟩

theorem trails_refl (trail : List Span) : S.Trails trail trail := ⟨Nat.le_refl _, fun _ => rfl⟩

end Simulation

namespace Eval

variable {α β : Type} {S : Simulation} {trail trail' : List Span} {R : α → β → Prop}

/-- Started with supplies in step, `step` comes back to its trail, and unless it stops at the limit
because of wrappers that `other` goes without, so does `other`, with supplies that are still in step
and a related outcome. -/
abbrev Follows (S : Simulation) (trail trail' : List Span) (R : α → β → Prop) (step : Eval α)
    (other : Eval β) : Prop :=
  Coupled S.terms trail trail' .always (fun _ => R) step other

/-- If both runs go through the same code, the second one cannot come further than the first one. -/
theorem Follows.run_of_exact {step : Eval α} {other : Eval β}
    (h : Follows S trail trail' R step other) (hexact : S.Exact) {supply supply' : Nat}
    (hsupply : S.supplies supply supply') :
    ∃ result after outcome after', step.run ⟨trail, supply⟩ = (result, ⟨trail, after⟩) ∧
      other.run ⟨trail', supply'⟩ = (outcome, ⟨trail', after'⟩) ∧ S.supplies after after' ∧
        Outcome.Coupled S.faults R result outcome := by
  obtain ⟨result, after, hstep, hother⟩ := h supply supply' hsupply
  obtain ⟨outcome, after', _, hother, -, hafter, houtcome⟩ :=
    hother.resolve_left fun ⟨_, hexcuse, _⟩ => hexcuse.1 hexact
  exact ⟨result, after, outcome, after', hstep, hother, hafter, houtcome⟩

/-- Watching the second computation makes no difference if what it does always fits. -/
theorem Follows.watched {step : Eval α} {other breach : Eval β}
    {fits : Machine → Except Fault β × Machine → Prop} (h : Follows S trail trail' R step other)
    (hfits : ∀ {supply after result outcome}, Outcome.Coupled S.faults R result outcome →
      fits ⟨trail', supply⟩ (outcome, ⟨trail', after⟩)) :
    Follows S trail trail' R step (Eval.watched breach fits other) := by
  intro supply supply' hsupply
  obtain ⟨result, after, hstep, hother⟩ := h _ _ hsupply
  refine ⟨result, after, hstep, hother.imp id ?_⟩
  rintro ⟨outcome, after', w, hother, hle, hafter, houtcome⟩
  refine ⟨outcome, after', w, ?_, hle, hafter, houtcome⟩
  rw [run_watched (by rw [hother]; exact hfits houtcome), hother]

end Eval

open Eval (Follows)

/-- What an observer of the second run must leave alone so that it still follows the first one. -/
structure Simulation.Ignores (S : Simulation) (limit : Nat) (observer : Observer) : Prop where
  onStep : ∀ {trail trail' : List Span} {s t : Scope Value} {node : Node} {step other : Eval Value},
    S.Scopes s t → Follows S trail trail' S.Values step other →
      Follows S trail trail' S.Values step (observer.onStep t node other)
  onRule : ∀ {trail trail' : List Span} {rule other : Eval Value}, trail'.length ≤ limit →
    Follows S trail trail' S.Values rule other →
      Follows S trail trail' S.Values rule (observer.onRule other)
  onCall : ∀ {trail trail' : List Span} {callee called : Value} {args others : List Value}
    {call other : Eval Value}, S.Values callee called →
      Forall₂ S.Values args others →
        Follows S trail trail' S.Values call other →
          Follows S trail trail' S.Values call (observer.onCall called others other)
  onStray : ∀ {trail trail' : List Span} {receiver other : Value} {m : Method},
    S.admits receiver m → receiver.allowedMethod? m.name ≠ some m →
      S.Values receiver other →
        Follows S trail trail' S.Values
          (Eval.fail (.unsupportedMethod m.name receiver.typeName)) (observer.onStray other m)
  onRejected : ∀ name target,
    S.faults (.unsupportedMethod name target) (observer.onRejected name target)

/-- Nobody notices the observer that leaves everything as it is. -/
theorem Simulation.ignores_silent {S : Simulation} {limit : Nat}
    (h : ∀ name target,
      S.faults (.unsupportedMethod name target) (.unsupportedMethod name target)) :
    S.Ignores limit .silent where
  onStep _ h := h
  onRule _ h := h
  onCall _ _ h := h
  onStray _ _ hreceiver := by
    rw [Value.Paired.resemblance.typeName_eq hreceiver]
    exact .fail (h _ _)
  onRejected := h

end StaticConfig
