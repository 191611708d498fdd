import StaticConfig.Evaluation.Evaluate
import StaticConfig.Proofs.Evaluation.Simulation.Step

/-!
# Runs in a simulation

Under an observer that is not noticed, the steps of the second run are coupled with those of the
first one, whatever wrappers it goes without.

- `Value.call_follows`: calling a value, if the bodies of arrow functions follow each other;
- `evaluate_follows`: evaluation under the observer follows evaluation without one, by induction on
  the steps that may still be nested.
-/

namespace StaticConfig

open List (Forall₂)
open Eval (Follows)

section

variable {S : Simulation} {limit : Nat} {observer : Observer} (hignores : S.Ignores limit observer)
variable {visit visit' : Scope Value → Node → Eval Value} {trail trail' : List Span}

/-- Two steps of a simulation. -/
def Simulation.coupling (visit visit' : Scope Value → Node → Eval Value)
    (trail trail' : List Span) : Coupling Timeless where
  toTerms := S.terms
  left := S.left
  right := S.right
  drop := S.drop
  observer := observer
  visit := visit
  visit' := visit'
  trail := trail
  trail' := trail'
  tags := S.tags
  inner _ := S.Values
  outer _ := S.Values
  resemblance _ := Value.Paired.resemblance
  inner_mono _ h := h
  outer_of_inner h := h
  faults_self _ h := S.faults_self h
  faults_rejected := hignores.onRejected
  new_list h _ _ hsupply :=
    ⟨.always, trivial, S.supplies_succ hsupply, .list (S.tags_of_supplies hsupply) h⟩
  new_record _ h _ _ hsupply :=
    ⟨.always, trivial, S.supplies_succ hsupply, .of_fields (S.tags_of_supplies hsupply) h⟩
  new_method h hallowed _ _ hsupply :=
    ⟨.always, trivial, S.supplies_succ hsupply,
      .method (S.tags_of_supplies hsupply) (S.admits_allowed hallowed) h⟩

include hignores

section Visits

variable (hvisit : ∀ {s t : Scope Value} {node : Node}, S.Scopes s t →
  Follows S trail trail' S.Values (visit s node) (visit' t (node.unwrap S.drop)))

include hvisit

theorem Simulation.calls_coupling : (coupling hignores visit visit' trail trail').Calls where
  inner_of_outer := id
  body {_ _ _ code _ s t _ _} hcallee hargs := by
    cases hcallee with
    | closure _ hnames hframes =>
      have hscopes : S.Scopes s t := framesRelated_iff.2 ⟨hnames, hframes⟩
      exact hvisit (hscopes.extend (bindParams_related .undefined hargs code.params))
  receiver hcallee := by
    cases hcallee with
    | method _ _ hreceiver => exact hreceiver
  stray hcallee hstray := by
    cases hcallee with
    | method _ hm hreceiver => exact hignores.onStray hm hstray hreceiver
  observed := hignores.onCall

/-- Paired values called with paired arguments. -/
theorem Value.call_follows {callee called : Value} {args others : List Value}
    (hcallee : S.Values callee called) (hargs : Forall₂ S.Values args others) :
    Follows S trail trail' S.Values (callee.call visit args)
      (observer.call visit' called others) :=
  Coupling.call_coupled (Simulation.calls_coupling hignores hvisit) hcallee hargs

theorem evalNode_follows {s t : Scope Value} (hscopes : S.Scopes s t)
    (htrails : S.Trails trail trail') {node : Node}
    (hkept : ∀ {span wrapper inner}, node = .expr (.wrapped span wrapper inner) →
      S.drop wrapper = false) :
    Follows S trail trail' S.Values (evalNode S.left visit s node)
      (evalNodeVia S.right visit' observer.readMember (observer.call visit') t
        (node.unwrap S.drop)) := by
  let C := Simulation.coupling hignores visit visit' trail trail'
  refine C.evalNode_coupled hkept (fun kind span _ _ _ => S.constructs kind span htrails.2) ?_
  intro piece _ hother w _
  cases piece with
  | part inner => exact hvisit hscopes
  | name ident =>
    exact ⟨S.candidates ident, hscopes.lookup? ident.name, fun _ _ => hvisit Scope.paired_root⟩
  | function body =>
    cases body with
    | body span inner =>
      intro params supply supply' hsupply
      exact ⟨.always, trivial, S.supplies_succ hsupply,
        .of_scopes (S.tags_of_supplies hsupply) hscopes⟩
    | expr | stmt | declares | declarator | unevaluable => trivial
  | call => exact Coupling.settles_call (Simulation.calls_coupling hignores hvisit)
  | stop kind span => exact absurd rfl (hother kind span)

end Visits

/-- Each step leaves one place less on the trails and takes one step from the budget; a step of a
wrapper that is gone leaves less room to the first run alone. -/
theorem evaluate_follows {remaining steps : Nat} {trail trail' : List Span}
    (htrails : S.Trails trail trail') (hremaining : remaining = limit - trail.length)
    (hsteps : limit - trail'.length < steps) {s t : Scope Value} (hscopes : S.Scopes s t)
    (node : Node) :
    Follows S trail trail' S.Values (evaluate S.left limit remaining s node)
      (evaluateObserved S.right limit observer steps t (node.unwrap S.drop)) := by
  induction remaining generalizing steps trail trail' s t node with
  | zero =>
    -- The first trail is full. So is the second one if they are equal; otherwise it does not matter
    -- what the second run does.
    by_cases hexact : S.Exact
    · obtain rfl := htrails.2 hexact
      obtain ⟨steps, rfl⟩ : ∃ fewer, steps = fewer + 1 := ⟨steps - 1, by omega⟩
      have hfull : limit ≤ trail.length := by omega
      have hlimit : Follows S trail trail S.Values (Eval.fail (.recursionLimit limit))
          (Eval.fail (.recursionLimit limit)) := .fail (S.faults_self rfl)
      exact hignores.onStep hscopes
        (hlimit.congr_right fun _ => Eval.run_guarded_full hfull _ _)
    · have hexcuse : S.terms.excuses (.recursionLimit limit) := ⟨hexact, limit, rfl⟩
      exact .excused hexcuse _
  | succ remaining ih =>
    have hinner (span : Span) : remaining = limit - (span :: trail).length := by
      rw [List.length_cons]
      omega
    by_cases hgone : ∃ span wrapper inner,
        node = .expr (.wrapped span wrapper inner) ∧ S.drop wrapper = true
    · -- The step of a wrapper that is gone: the second run is already inside.
      obtain ⟨span, wrapper, inner, rfl, hdrop⟩ := hgone
      rw [Node.unwrap, Expr.unwrap_wrapped hdrop]
      have hinside := htrails.cons_left span hdrop
      exact .within_left (ih hinside (hinner span) hsteps hscopes (.expr inner))
    · -- Both runs take a step at the same place.
      have hkept : ∀ {span wrapper inner}, node = .expr (.wrapped span wrapper inner) →
          S.drop wrapper = false := fun {span wrapper inner} heq =>
        Bool.eq_false_iff.2 fun hdrop => hgone ⟨span, wrapper, inner, heq, hdrop⟩
      obtain ⟨steps, rfl⟩ : ∃ fewer, steps = fewer + 1 := ⟨steps - 1, by omega⟩
      have hroom : trail'.length < limit := by
        have hshorter := htrails.1
        omega
      have hvisit {s t : Scope Value} {node' : Node} (h : S.Scopes s t) :
          Follows S (node.span :: trail) (node.span :: trail') S.Values
            (evaluate S.left limit remaining s node')
            (evaluateObserved S.right limit observer steps t (node'.unwrap S.drop)) :=
        ih (htrails.cons node.span) (hinner node.span) (by rw [List.length_cons]; omega) h node'
      have hrule := evalNode_follows hignores hvisit hscopes (htrails.cons node.span) hkept
      have hinside : (node.span :: trail').length ≤ limit := hroom
      have hwithin := (hignores.onRule hinside hrule).within
      refine hignores.onStep hscopes (hwithin.congr_right fun supply => ?_)
      rw [Eval.run_guarded_free hroom, Node.span_unwrap hkept]

end

end StaticConfig
