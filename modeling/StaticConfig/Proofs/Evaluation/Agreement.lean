import StaticConfig.Proofs.Evaluation.Coupling.Rules
import StaticConfig.Proofs.Evaluation.Likeness

/-!
# Runs that agree

Two evaluations of the same node may run in different scopes, over different surroundings and by
different `visit`s. As long as these answer alike where the code looks at them, the runs agree: they
draw the same tags, leave the trail as they found it, and end in the same fault or in alike values.

- `Eval.Agree`: agreement of two computations on a trail;
- `Coupling.agreement`: runs that agree are coupled, and so are rules and calls;
- `evaluate_agree`: evaluation over surroundings that agree, by induction on the steps that may
  still be nested.
-/

namespace StaticConfig

open List (Forall₂)

namespace Eval

variable {α β : Type} {trail : List Span} {R : α → β → Prop}

/-- Started on the trail with the same supply, both computations come back to the trail with the
same supply, and with related outcomes. -/
def Agree (trail : List Span) (R : α → β → Prop) (step : Eval α) (other : Eval β) : Prop :=
  ∀ supply, ∃ result outcome after,
    step.run ⟨trail, supply⟩ = (result, ⟨trail, after⟩) ∧
      other.run ⟨trail, supply⟩ = (outcome, ⟨trail, after⟩) ∧ Outcome.Related R result outcome

/-- The terms of runs that agree: the same tags and the same faults, without any excuse. -/
abbrev agreeing : Terms Timeless := .inStep (· = ·) fun _ => False

theorem agreeing_self (fault : Fault) : agreeing.faults fault fault := rfl

theorem agree_iff_coupled {step : Eval α} {other : Eval β} :
    Agree trail R step other ↔ Coupled agreeing trail trail .always (fun _ => R) step other := by
  rw [coupled_inStep_iff]
  refine forall_congr' fun supply => ⟨?_, ?_⟩
  · rintro ⟨result, outcome, after, hstep, hother, hrelated⟩
    refine ⟨result, after, hstep, .inr ⟨outcome, hother, ?_⟩⟩
    cases hrelated with
    | ok hab => exact .ok hab
    | error fault => exact .error rfl
  · rintro ⟨result, after, hstep, ⟨_, hexcuse, _⟩ | ⟨outcome, hother, hcoupled⟩⟩
    · cases hexcuse
    · refine ⟨result, outcome, after, hstep, hother, ?_⟩
      cases hcoupled with
      | ok hab => exact .ok hab
      | error hfault =>
        subst hfault
        exact .error _

end Eval

open Eval (Agree agree_iff_coupled)

/-- Surroundings that answer alike about shared places: they quote them alike and find the same
declarations for the names there, and these stand in shared places throughout. -/
structure Definitions.AgreeOn (shared : Span → Prop) (left right : Definitions) : Prop where
  quote : ∀ span, shared span → left.quote? span = right.quote? span
  candidates : ∀ ident, shared ident.span → left.candidates ident = right.candidates ident
  closed : ∀ ident, shared ident.span → ∀ node ∈ left.candidates ident, ∀ mark ∈ node.marks,
    shared mark.span

/-- All surroundings agree with themselves about all places. -/
theorem Definitions.agreeOn_self (definitions : Definitions) :
    definitions.AgreeOn (fun _ => True) definitions :=
  ⟨fun _ _ => rfl, fun _ _ => rfl, fun _ _ _ _ _ _ => trivial⟩

/-- On shared trails the surroundings word the fault for a form alike. -/
theorem Definitions.AgreeOn.constructFault_eq {shared : Span → Prop} {left right : Definitions}
    (h : left.AgreeOn shared right) {trail : List Span} (htrail : ∀ span ∈ trail, shared span)
    {span : Span} (hspan : shared span) (kind : Kind) :
    left.constructFault kind span trail = right.constructFault kind span trail := by
  have hparent : (trail.find? (· ≠ span)).bind left.quote? =
      (trail.find? (· ≠ span)).bind right.quote? := by
    cases hfound : trail.find? (· ≠ span) with
    | none => rfl
    | some parent => exact h.quote parent (htrail parent (List.mem_of_find?_eq_some hfound))
  rw [constructFault, constructFault, h.quote span hspan, hparent]

/-! ### Rules and calls -/

/-- Runs over two surroundings that come to alike values. -/
def Coupling.agreement (exact : Prop) (shared : Span → Prop) (left right : Definitions)
    (visit visit' : Scope Value → Node → Eval Value) (trail : List Span) : Coupling Timeless where
  toTerms := Eval.agreeing
  left := left
  right := right
  drop _ := false
  observer := .silent
  visit := visit
  visit' := visit'
  trail := trail
  trail' := trail
  tags := (· = ·)
  inner _ := Value.Alike exact shared
  outer _ := Value.Alike exact shared
  resemblance _ := Value.Alike.resemblance
  inner_mono _ h := h
  outer_of_inner h := h
  faults_self _ _ := Eval.agreeing_self _
  faults_rejected _ _ := Eval.agreeing_self _
  new_list h := by
    rintro supply _ rfl
    exact ⟨.always, trivial, rfl, .of_items h⟩
  new_record _ h := by
    rintro supply _ rfl
    exact ⟨.always, trivial, rfl, .of_fields h⟩
  new_method h _ := by
    rintro supply _ rfl
    exact ⟨.always, trivial, rfl, .method _ h⟩

section Rules

variable {exact : Prop} {shared : Span → Prop} {left right : Definitions} {trail : List Span}
variable {visit visit' : Scope Value → Node → Eval Value}
variable (hvisit : ∀ {s t : Scope Value} {node : Node}, Scope.Alike exact shared node.marks s t →
  Agree trail (Value.Alike exact shared) (visit s node) (visit' t node))

theorem Coupling.plain_agreement :
    (agreement exact shared left right visit visit' trail).Plain := ⟨rfl, rfl⟩

include hvisit

theorem Coupling.calls_agreement (left right : Definitions) :
    (agreement exact shared left right visit visit' trail).Calls := by
  refine .of_silent rfl id (fun {_ _ _ code code' _ _ _ _} hcallee hargs => ?_) fun hcallee => ?_
  · have hscopes := hcallee.scopes
    obtain rfl : code = code' := by cases hcallee; rfl
    exact agree_iff_coupled.1
      (hvisit (hscopes.extend (bindParams_related .undefined hargs code.params)))
  · cases hcallee with
    | method _ hreceiver => exact hreceiver

theorem Value.call_agree {callee called : Value} {args others : List Value}
    (hcallee : callee.Alike exact shared called)
    (hargs : Forall₂ (Value.Alike exact shared) args others) :
    Agree trail (Value.Alike exact shared) (callee.call visit args) (called.call visit' others) :=
  agree_iff_coupled.2 (Coupling.plain_agreement.call_coupled
    (Coupling.calls_agreement hvisit .none .none) hcallee hargs)

variable (hdefs : left.AgreeOn shared right) (htrail : ∀ span ∈ trail, shared span)

include hdefs htrail

theorem evalNode_agree {node : Node} {s t : Scope Value}
    (h : Scope.Alike exact shared node.marks s t) :
    Agree trail (Value.Alike exact shared) (evalNode left visit s node)
      (evalNode right visit' t node) := by
  let C := Coupling.agreement exact shared left right visit visit' trail
  have hplain : C.Plain := Coupling.plain_agreement
  refine agree_iff_coupled.2 (hplain.evalNode_coupled ?_ ?_)
  · intro kind span hrejects _ _
    obtain ⟨name?, hmark⟩ := Node.exists_mark_of_rejects hrejects
    exact hdefs.constructFault_eq htrail (h.at_shared _ hmark) kind
  · intro piece hpiece hstop w _
    have hscopes := h.mono (Node.marks_of_piece hpiece)
    cases piece with
    | part inner => exact hplain.part (agree_iff_coupled.1 (hvisit hscopes))
    | name ident =>
      have hspan : shared ident.span := hscopes.at_shared _ (List.mem_singleton_self _)
      have hlookup := hscopes.lookup _ (List.mem_singleton_self _) ident.name rfl
      refine hplain.name (hdefs.candidates ident hspan).symm hlookup fun node hnode => ?_
      -- What a name refers to is evaluated without any bindings.
      have hclosed := hdefs.closed ident hspan node (List.mem_of_mem_head? hnode)
      exact agree_iff_coupled.1 (hvisit (Scope.alike_root hclosed))
    | function body =>
      refine hplain.function fun span inner params hbody => ?_
      subst hbody
      rintro supply _ rfl
      exact ⟨.always, trivial, rfl, .of_scopes hscopes⟩
    | call => exact Coupling.settles_call (Coupling.calls_agreement hvisit left right)
    | stop kind span => exact absurd rfl (hstop kind span)

end Rules

/-! ### Evaluation -/

/-- Evaluations that may nest the same number of steps agree on every trail of shared places. -/
theorem evaluate_agree {exact : Prop} {shared : Span → Prop} {left right : Definitions}
    (hdefs : left.AgreeOn shared right) (limit remaining : Nat) {trail : List Span}
    (htrail : ∀ span ∈ trail, shared span) {s t : Scope Value} {node : Node}
    (h : Scope.Alike exact shared node.marks s t) :
    Agree trail (Value.Alike exact shared) (evaluate left limit remaining s node)
      (evaluate right limit remaining t node) := by
  induction remaining generalizing trail s t node with
  | zero => exact agree_iff_coupled.2 (.fail rfl)
  | succ remaining ih =>
    -- The step goes on the trail, which stays one of shared places.
    obtain ⟨name?, hmark⟩ := exists_mark_of_span node
    have hinside : ∀ span ∈ node.span :: trail, shared span :=
      List.forall_mem_cons.2 ⟨h.at_shared _ hmark, htrail⟩
    have hvisit {s t : Scope Value} {inner : Node} (h : Scope.Alike exact shared inner.marks s t) :=
      ih hinside h
    have hrule := evalNode_agree hvisit hdefs hinside h
    exact agree_iff_coupled.2 (.within (agree_iff_coupled.1 hrule))

end StaticConfig
