import StaticConfig.Proofs.Evaluation.Simulation.Run

/-!
# Runs beside themselves

The simulation of a run by the same run under an observer: the same surroundings, tags and scopes.
All that the second run may do otherwise is to word the faults of member reads in its own way.

- `evaluateObserved_beside`, `Observer.call_beside`: an observer that is not noticed makes no
  difference but in these words, and all values that come up are admitted;
- `evaluateObserved_silent`: observed by no one, evaluation is `evaluate`.
-/

namespace StaticConfig

open List (Forall₂)
open Eval (Follows)

/-- The fault in the words of an observer of member reads. -/
def Fault.reworded (rejected : String → String → Fault) : Fault → Fault
  | .unsupportedMethod name target => rejected name target
  | fault => fault

theorem Fault.reworded_of_rejectsMethod {fault : Fault} (rejected : String → String → Fault)
    (h : fault.rejectsMethod = false) : fault.reworded rejected = fault := by
  cases fault with
  | unsupportedMethod name target => cases h
  | _ => rfl

theorem Fault.reworded_self (fault : Fault) : fault.reworded .unsupportedMethod = fault := by
  cases fault <;> rfl

/-- What a run leaves behind, in the words of an observer of member reads. -/
def rewordedRun (rejected : String → String → Fault) (outcome : Except Fault Value × Machine) :
    Except Fault Value × Machine :=
  (outcome.1.mapError (Fault.reworded rejected), outcome.2)

theorem rewordedRun_self (outcome : Except Fault Value × Machine) :
    rewordedRun .unsupportedMethod outcome = outcome := by
  obtain ⟨result, m⟩ := outcome
  cases result with
  | ok v => rfl
  | error fault => exact congrArg (fun f => (Except.error f, m)) fault.reworded_self

/-- How the tags of two runs correspond. -/
structure Numbering where
  tags : Nat → Nat → Prop
  supplies : Nat → Nat → Prop
  tags_unique : ∀ {s t s' t' : Nat}, tags s s' → tags t t' → (s = t ↔ s' = t')
  supplies_succ : ∀ {supply supply' : Nat}, supplies supply supply' →
    supplies (supply + 1) (supply' + 1)
  tags_of_supplies : ∀ {supply supply' : Nat}, supplies supply supply' → tags supply supply'

/-- Both runs draw the same tags. -/
def Numbering.same : Numbering where
  tags := (· = ·)
  supplies := (· = ·)
  tags_unique := by
    rintro _ _ _ _ rfl rfl
    exact Iff.rfl
  supplies_succ := congrArg (· + 1)
  tags_of_supplies := id

/-- The bound methods that a run may come across, those that reading a member binds among them. -/
structure Admission where
  admits : Value → Method → Prop
  admits_allowed : ∀ {receiver : Value} {name : String} {m : Method},
    receiver.allowedMethod? name = some m → admits receiver m

/-- Any bound method at all. -/
def Admission.all : Admission where
  admits _ _ := True
  admits_allowed _ := trivial

/-- Values that differ in nothing but their tags. -/
def Numbering.pairing (numbering : Numbering) (admission : Admission) : Pairing where
  tags := numbering.tags
  drop _ := false
  admits := admission.admits
  tags_unique := numbering.tags_unique
  admits_allowed := admission.admits_allowed

/-- A run beside itself, with other tags and with faults of member reads in other words. -/
def Simulation.beside (definitions : Definitions) (numbering : Numbering) (admission : Admission)
    (rejected : String → String → Fault) : Simulation where
  toPairing := numbering.pairing admission
  left := definitions
  right := definitions
  faults fault fault' := fault' = fault.reworded rejected
  supplies := numbering.supplies
  supplies_succ := numbering.supplies_succ
  tags_of_supplies := numbering.tags_of_supplies
  candidates ident := (Node.map_unwrap_none _).symm
  constructs kind span trail trail' h := by
    rw [h fun _ => rfl]
    rfl
  faults_self h := (Fault.reworded_of_rejectsMethod rejected h).symm

/-! ### The same tags -/

/-- Whether all bound methods in a value are admitted, at any depth and in the scopes that arrow
functions keep. -/
def Value.Admitted (admission : Admission) : Value → Prop :=
  Value.Everywhere (fun _ => True) admission.admits

/-- Whether all values that a scope binds are admitted. -/
def Scope.Admitted (admission : Admission) : Scope Value → Prop :=
  Scope.Everywhere (fun _ => True) admission.admits

/-- What a computation does from a machine, and another one in its own words: it takes its spans off
the trail again, and a value that it ends in is admitted. -/
structure Eval.Beside (admission : Admission) (rejected : String → String → Fault) (m : Machine)
    (step other : Eval Value) : Prop where
  run_eq : other.run m = rewordedRun rejected (step.run m)
  trail_eq : (step.run m).2.trail = m.trail
  admitted : ∀ v, (step.run m).1 = .ok v → v.Admitted admission

section

variable {definitions : Definitions} {admission : Admission} {rejected : String → String → Fault}

theorem values_beside_iff {v w : Value} :
    (Simulation.beside definitions .same admission rejected).Values v w ↔
      v = w ∧ v.Admitted admission := by
  constructor
  · exact fun h => ⟨h.eq id rfl, h.everywhere.mono fun _ _ => trivial⟩
  · rintro ⟨rfl, h⟩
    exact .refl rfl (h.mono fun _ _ => rfl)

theorem forall₂_values_beside_iff {vs ws : List Value} :
    Forall₂ (Simulation.beside definitions .same admission rejected).Values vs ws ↔
      vs = ws ∧ ∀ v ∈ vs, v.Admitted admission := by
  constructor
  · intro h
    have hsame : Forall₂ (· = ·) vs ws := h.imp fun _ _ h => (values_beside_iff.1 h).1
    rw [List.forall₂_eq_eq_eq] at hsame
    exact ⟨hsame, forall_of_forall₂ (h.imp fun _ _ h => (values_beside_iff.1 h).2)⟩
  · rintro ⟨rfl, h⟩
    exact List.forall₂_same.2 fun v hv => values_beside_iff.2 ⟨rfl, h v hv⟩

theorem scopes_beside_iff {s t : Scope Value} :
    (Simulation.beside definitions .same admission rejected).Scopes s t ↔
      s = t ∧ s.Admitted admission := by
  constructor
  · intro h
    exact ⟨h.eq id rfl, fun frame hframe binding hbinding =>
      (h.everywhere frame hframe binding hbinding).mono fun _ _ => trivial⟩
  · rintro ⟨rfl, h⟩
    exact Scope.paired_refl rfl fun frame hframe binding hbinding =>
      (h frame hframe binding hbinding).mono fun _ _ => rfl

theorem Eval.Follows.beside {trail : List Span} {step other : Eval Value}
    (h : Follows (Simulation.beside definitions .same admission rejected) trail trail
      (Simulation.beside definitions .same admission rejected).Values step other) (supply : Nat) :
    Beside admission rejected ⟨trail, supply⟩ step other := by
  obtain ⟨result, after, outcome, _, hstep, hother, rfl, houtcome⟩ :=
    h.run_of_exact (fun _ => rfl) (Eq.refl supply)
  cases houtcome with
  | ok hvalue =>
    obtain ⟨rfl, hadmitted⟩ := values_beside_iff.1 hvalue
    refine ⟨?_, ?_, ?_⟩
    · rw [hstep, hother]
      rfl
    · rw [hstep]
    · rw [hstep]
      rintro v ⟨⟩
      exact hadmitted
  | error hfault =>
    obtain rfl := hfault
    refine ⟨?_, ?_, ?_⟩
    · rw [hstep, hother]
      rfl
    · rw [hstep]
    · rw [hstep]
      rintro v ⟨⟩

variable {limit : Nat} {observer : Observer}
variable (hignores :
  (Simulation.beside definitions .same admission rejected).Ignores limit observer)

include hignores

/-- An evaluation under an observer that is not noticed, with a budget of more steps than there is
room for on the trail. -/
theorem evaluateObserved_beside (m : Machine) {steps : Nat}
    (hsteps : limit - m.trail.length < steps) {scope : Scope Value}
    (hscope : scope.Admitted admission) (node : Node) :
    Eval.Beside admission rejected m
      (evaluate definitions limit (limit - m.trail.length) scope node)
      (evaluateObserved definitions limit observer steps scope node) := by
  have hfollows := evaluate_follows hignores (Simulation.trails_refl m.trail) rfl hsteps
    (scopes_beside_iff.2 ⟨rfl, hscope⟩) node
  have hnode : node.unwrap (Simulation.beside definitions .same admission rejected).drop = node :=
    node.unwrap_none
  rw [hnode] at hfollows
  exact hfollows.beside m.supply

/-- A call under an observer that is not noticed, from outside or inside an evaluation. -/
theorem Observer.call_beside (m : Machine) {steps : Nat} (hsteps : limit - m.trail.length < steps)
    {callee : Value} {args : List Value} (hcallee : callee.Admitted admission)
    (hargs : ∀ arg ∈ args, arg.Admitted admission) :
    Eval.Beside admission rejected m
      (callee.call (evaluate definitions limit (limit - m.trail.length)) args)
      (observer.call (evaluateObserved definitions limit observer steps) callee args) := by
  have hvisit {s t : Scope Value} {node : Node}
      (h : (Simulation.beside definitions .same admission rejected).Scopes s t) :
      Follows (Simulation.beside definitions .same admission rejected) m.trail m.trail
        (Simulation.beside definitions .same admission rejected).Values
        (evaluate definitions limit (limit - m.trail.length) s node)
        (evaluateObserved definitions limit observer steps t (node.unwrap fun _ => false)) :=
    evaluate_follows hignores (Simulation.trails_refl m.trail) rfl hsteps h node
  have hfollows := Value.call_follows hignores hvisit (values_beside_iff.2 ⟨rfl, hcallee⟩)
    (forall₂_values_beside_iff.2 ⟨rfl, hargs⟩)
  exact hfollows.beside m.supply

end

/-! ### Unobserved -/

section

variable (definitions : Definitions) (limit : Nat) (m : Machine) {steps : Nat}

theorem Value.admitted_all (v : Value) : v.Admitted .all :=
  v.everywhere_of_forall (fun _ => trivial) fun _ _ => trivial

theorem Scope.admitted_all (scope : Scope Value) : scope.Admitted .all :=
  fun _ _ binding _ => binding.2.admitted_all

theorem ignores_silent :
    (Simulation.beside definitions .same .all .unsupportedMethod).Ignores limit .silent :=
  Simulation.ignores_silent fun _ _ => rfl

/-- With no one to observe it, the evaluation that has the trail as its only guard is `evaluate`. -/
theorem evaluateObserved_silent (hsteps : limit - m.trail.length < steps) (scope : Scope Value)
    (node : Node) :
    (evaluateObserved definitions limit .silent steps scope node).run m =
      (evaluate definitions limit (limit - m.trail.length) scope node).run m := by
  have hbeside := evaluateObserved_beside (ignores_silent definitions limit) m hsteps
    scope.admitted_all node
  rw [hbeside.run_eq, rewordedRun_self]

theorem Observer.call_silent (hsteps : limit - m.trail.length < steps) (callee : Value)
    (args : List Value) :
    (silent.call (evaluateObserved definitions limit .silent steps) callee args).run m =
      (callee.call (evaluate definitions limit (limit - m.trail.length)) args).run m := by
  have hargs : ∀ arg ∈ args, arg.Admitted .all := fun arg _ => arg.admitted_all
  have hbeside := Observer.call_beside (ignores_silent definitions limit) m hsteps
    callee.admitted_all hargs
  rw [hbeside.run_eq, rewordedRun_self]

end

end StaticConfig
