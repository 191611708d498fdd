import StaticConfig.Proofs.Evaluation.Simulation.Same
import StaticConfig.Proofs.Snippet

/-!
# Sessions

An evaluator may be asked any number of things, one after the other, on one machine. All that it
could carry over is the trail, which every step grows and must shrink again however it ends, and the
supply of tags.

- `trailWatch`: an observer that looks at the trail inside every step, and after every step and
  every call;
- `Value.Renumbered`: values that differ in the tags drawn since some point, and in nothing else;
- `Evaluator.session_undisturbed`: the watch makes no difference in any session, and each answer is
  that of a fresh evaluator, up to the tags that are drawn.
-/

namespace StaticConfig

open Eval (Follows)

/-! ### Operations -/

/-- What an evaluator can be asked for. -/
inductive Operation
  | evaluate (scope : Scope Value) (node : Node)
  /-- An evaluation with nothing in scope. -/
  | entry (node : Node)
  | expression (scope : Scope Value) (e : Expr)
  | statement (scope : Scope Value) (s : Stmt)
  | call (callee : Value) (args : List Value)

namespace Operation

/-- Carries out an operation by ways to evaluate and to call. -/
def perform (visit : Scope Value → Node → Eval Value) (call : Value → List Value → Eval Value) :
    Operation → Eval Value
  | evaluate scope node => visit scope node
  | entry node => visit .root node
  | expression scope e => visit scope (.expr e)
  | statement scope s => visit scope (.stmt s)
  | .call callee args => call callee args

/-- Whether `onTag` holds of all tags in the values that an operation is given. -/
def Tagged (onTag : Nat → Prop) : Operation → Prop
  | evaluate scope _ | expression scope _ | statement scope _ =>
    scope.Everywhere onTag fun _ _ => True
  | entry _ => True
  | call callee args =>
    callee.Everywhere onTag (fun _ _ => True) ∧
      ∀ arg ∈ args, arg.Everywhere onTag fun _ _ => True

end Operation

/-- Carries out operations one after the other: their outcomes, and the machine in the end. -/
def session (answer : Operation → Eval Value) :
    List Operation → Machine → List (Except Fault Value) × Machine
  | [], m => ([], m)
  | operation :: rest, m =>
    let answered := (answer operation).run m
    let remaining := session answer rest answered.2
    (answered.1 :: remaining.1, remaining.2)

theorem session_append (answer : Operation → Eval Value) (before after : List Operation)
    (m : Machine) :
    session answer (before ++ after) m =
      let first := session answer before m
      (first.1 ++ (session answer after first.2).1, (session answer after first.2).2) := by
  induction before generalizing m with
  | nil => rfl
  | cons operation rest ih => simp only [List.cons_append, session, ih]

theorem session_length (answer : Operation → Eval Value) (operations : List Operation)
    (m : Machine) : (session answer operations m).1.length = operations.length := by
  induction operations generalizing m with
  | nil => rfl
  | cons operation rest ih => simp only [session, List.length_cons, ih]

/-! ### Watching the trail -/

/-- Does `breach` in place of a step that holds more than `limit` spans on the trail, and of a step
or a call that leaves another trail than it found. -/
noncomputable def trailWatch (limit : Nat) (breach : Eval Value) : Observer where
  onStep _ _ := Eval.watched breach fun m outcome => outcome.2.trail = m.trail
  onRule := Eval.watched breach fun m outcome =>
    m.trail.length ≤ limit ∧ outcome.2.trail = m.trail
  onCall _ _ := Eval.watched breach fun m outcome => outcome.2.trail = m.trail
  onStray receiver m := Eval.fail (.unsupportedMethod m.name receiver.typeName)
  onRejected := .unsupportedMethod
  onExceeded := breach

theorem ignores_trailWatch (definitions : Definitions) (limit : Nat) (breach : Eval Value) :
    (Simulation.beside definitions .same .all .unsupportedMethod).Ignores limit
      (trailWatch limit breach) where
  onStep _ h := by
    dsimp only [trailWatch]
    exact h.watched fun _ => rfl
  onRule hroom h := by
    dsimp only [trailWatch]
    exact h.watched fun _ => ⟨hroom, rfl⟩
  onCall _ _ h := by
    dsimp only [trailWatch]
    exact h.watched fun _ => rfl
  onStray := (ignores_silent definitions limit).onStray
  onRejected _ _ := rfl

namespace Evaluator

variable (evaluator : Evaluator)

/-- What an evaluator does for an operation. -/
def answer : Operation → Eval Value := Operation.perform evaluator.eval evaluator.call

/-- What an evaluator does for an operation while its trail is watched. -/
noncomputable def watchedAnswer (breach : Eval Value) : Operation → Eval Value :=
  let watch := trailWatch evaluator.limit breach
  let visit := evaluateObserved evaluator.definitions evaluator.limit watch (evaluator.limit + 1)
  Operation.perform visit (watch.call visit)

/-- One operation on the empty trail: it comes back to that trail, and the watch saw nothing. -/
theorem watchedAnswer_beside (breach : Eval Value) (operation : Operation) (supply : Nat) :
    Eval.Beside .all .unsupportedMethod ⟨[], supply⟩ (evaluator.answer operation)
      (evaluator.watchedAnswer breach operation) := by
  have hignores := ignores_trailWatch evaluator.definitions evaluator.limit breach
  have hsteps : evaluator.limit - ([] : List Span).length < evaluator.limit + 1 :=
    Nat.lt_succ_self _
  cases operation with
  | evaluate scope node =>
    exact evaluateObserved_beside hignores ⟨[], supply⟩ hsteps scope.admitted_all node
  | entry node =>
    exact evaluateObserved_beside hignores ⟨[], supply⟩ hsteps Scope.root.admitted_all node
  | expression scope e =>
    exact evaluateObserved_beside hignores ⟨[], supply⟩ hsteps scope.admitted_all (.expr e)
  | statement scope s =>
    exact evaluateObserved_beside hignores ⟨[], supply⟩ hsteps scope.admitted_all (.stmt s)
  | call callee args =>
    exact Observer.call_beside hignores ⟨[], supply⟩ hsteps callee.admitted_all
      fun arg _ => arg.admitted_all

/-- A whole session on the empty trail, by induction on its operations. -/
theorem session_watchedAnswer (breach : Eval Value) (operations : List Operation) (supply : Nat) :
    session (evaluator.watchedAnswer breach) operations ⟨[], supply⟩ =
        session evaluator.answer operations ⟨[], supply⟩ ∧
      (session evaluator.answer operations ⟨[], supply⟩).2.trail = [] := by
  induction operations generalizing supply with
  | nil => exact ⟨rfl, rfl⟩
  | cons operation rest ih =>
    have hbeside := evaluator.watchedAnswer_beside breach operation supply
    have hrun := hbeside.run_eq
    have htrail := hbeside.trail_eq
    rw [rewordedRun_self] at hrun
    -- However the operation ended, the rest starts on the empty trail again.
    rcases hanswer : (evaluator.answer operation).run ⟨[], supply⟩ with ⟨outcome, trail, next⟩
    rw [hanswer] at hrun htrail
    obtain rfl : trail = [] := htrail
    obtain ⟨hrest, hlast⟩ := ih next
    simp only [session, hrun, hanswer, hrest, hlast, and_self]

end Evaluator

/-! ### Fresh tags -/

/-- Tags that were there before either run are the same ones, and those that a run draws are counted
from the supply that it starts with. -/
def Numbering.moved (supply supply' : Nat) : Numbering where
  tags tag tag' := (tag = tag' ∧ tag < supply ∧ tag' < supply') ∨
    ∃ drawn, tag = supply + drawn ∧ tag' = supply' + drawn
  supplies current current' := ∃ drawn, current = supply + drawn ∧ current' = supply' + drawn
  -- Old tags are below the supplies and drawn ones are not, so no old one meets a drawn one.
  tags_unique := by
    rintro s t s' t' (⟨rfl, hs, hs'⟩ | ⟨d, rfl, rfl⟩) (⟨rfl, ht, ht'⟩ | ⟨e, rfl, rfl⟩) <;> omega
  supplies_succ := by
    rintro _ _ ⟨drawn, rfl, rfl⟩
    exact ⟨drawn + 1, rfl, rfl⟩
  tags_of_supplies := .inr

/-- Values that differ in nothing but the tags drawn since the two supplies. -/
def Value.Renumbered (supply supply' : Nat) : Value → Value → Prop :=
  Value.Paired ((Numbering.moved supply supply').pairing .all)

section

variable (evaluator : Evaluator) {supply supply' : Nat}

/-- Runs with other supplies. -/
abbrev Simulation.moved (supply supply' : Nat) : Simulation :=
  .beside evaluator.definitions (.moved supply supply') .all .unsupportedMethod

/-- From a computation and the same one under no one's eyes with another supply. -/
theorem Eval.Follows.renumbered {step other : Eval Value}
    (h : Follows (Simulation.moved evaluator supply supply') [] []
      (Simulation.moved evaluator supply supply').Values step other) :
    Outcome.Related (Value.Renumbered supply supply') (step.run ⟨[], supply⟩).1
      (other.run ⟨[], supply'⟩).1 := by
  have hsupply : (Simulation.moved evaluator supply supply').supplies supply supply' :=
    ⟨0, rfl, rfl⟩
  obtain ⟨result, after, outcome, after', hstep, hother, -, houtcome⟩ :=
    h.run_of_exact (fun _ => rfl) hsupply
  rw [hstep, hother]
  cases houtcome with
  | ok hvalue => exact .ok hvalue
  | error hfault =>
    rw [hfault, Fault.reworded_self]
    exact .error _

theorem value_moved {v : Value}
    (h : v.Everywhere (fun tag => tag < supply ∧ tag < supply') fun _ _ => True) :
    (Simulation.moved evaluator supply supply').Values v v :=
  .refl rfl (h.mono fun _ hold => .inl ⟨rfl, hold⟩)

theorem scope_moved {scope : Scope Value}
    (h : scope.Everywhere (fun tag => tag < supply ∧ tag < supply') fun _ _ => True) :
    (Simulation.moved evaluator supply supply').Scopes scope scope :=
  Scope.paired_refl rfl fun frame hframe binding hbinding =>
    (h frame hframe binding hbinding).mono fun _ hold => .inl ⟨rfl, hold⟩

theorem evaluate_moved {scope : Scope Value}
    (hscope : (Simulation.moved evaluator supply supply').Scopes scope scope) (node : Node) :
    Outcome.Related (Value.Renumbered supply supply')
      ((evaluator.eval scope node).run ⟨[], supply⟩).1
      ((evaluator.eval scope node).run ⟨[], supply'⟩).1 := by
  have hsteps : evaluator.limit - ([] : List Span).length < evaluator.limit + 1 :=
    Nat.lt_succ_self _
  have hignores : (Simulation.moved evaluator supply supply').Ignores evaluator.limit .silent :=
    Simulation.ignores_silent fun _ _ => rfl
  have hfollows := evaluate_follows hignores (Simulation.trails_refl []) rfl hsteps hscope node
  have hnode : node.unwrap (Simulation.moved evaluator supply supply').drop = node :=
    node.unwrap_none
  rw [hnode] at hfollows
  have hrelated := hfollows.renumbered
  rw [evaluateObserved_silent _ _ ⟨[], supply'⟩ hsteps] at hrelated
  exact hrelated

theorem call_moved {callee : Value} {args : List Value}
    (hcallee : (Simulation.moved evaluator supply supply').Values callee callee)
    (hargs : List.Forall₂ (Simulation.moved evaluator supply supply').Values args args) :
    Outcome.Related (Value.Renumbered supply supply')
      ((evaluator.call callee args).run ⟨[], supply⟩).1
      ((evaluator.call callee args).run ⟨[], supply'⟩).1 := by
  have hsteps : evaluator.limit - ([] : List Span).length < evaluator.limit + 1 :=
    Nat.lt_succ_self _
  have hignores : (Simulation.moved evaluator supply supply').Ignores evaluator.limit .silent :=
    Simulation.ignores_silent fun _ _ => rfl
  have hvisit {s t : Scope Value} {node : Node}
      (hscopes : (Simulation.moved evaluator supply supply').Scopes s t) :=
    evaluate_follows hignores (Simulation.trails_refl []) rfl hsteps hscopes node
  have hrelated := (Value.call_follows hignores hvisit hcallee hargs).renumbered
  rw [Observer.call_silent _ _ ⟨[], supply'⟩ hsteps] at hrelated
  exact hrelated

/-- An operation does the same with any supply beyond the tags that it is given. -/
theorem Evaluator.answer_renumbered {operation : Operation}
    (h : operation.Tagged fun tag => tag < supply ∧ tag < supply') :
    Outcome.Related (Value.Renumbered supply supply')
      ((evaluator.answer operation).run ⟨[], supply⟩).1
      ((evaluator.answer operation).run ⟨[], supply'⟩).1 := by
  cases operation with
  | evaluate scope node => exact evaluate_moved evaluator (scope_moved evaluator h) node
  | entry node => exact evaluate_moved evaluator Scope.paired_root node
  | expression scope e => exact evaluate_moved evaluator (scope_moved evaluator h) (.expr e)
  | statement scope s => exact evaluate_moved evaluator (scope_moved evaluator h) (.stmt s)
  | call callee args =>
    exact call_moved evaluator (value_moved evaluator h.1)
      (List.forall₂_same.2 fun arg harg => value_moved evaluator (h.2 arg harg))

end

/-- **Sessions are undisturbed.** Whatever an evaluator is asked for in turn, and however each
operation ends: no step ever holds more than the limit on the trail, and every step and every call,
nested or not, leaves the trail as it found it. So each operation starts on the empty trail, and it
answers what a fresh evaluator answers to it: the same fault, or a value that only differs in the
tags drawn since. -/
theorem Evaluator.session_undisturbed (evaluator : Evaluator) (breach : Eval Value) (supply : Nat)
    (before after : List Operation) (operation : Operation) :
    let operations := before ++ operation :: after
    let m := (session evaluator.answer before ⟨[], supply⟩).2
    session (evaluator.watchedAnswer breach) operations ⟨[], supply⟩ =
        session evaluator.answer operations ⟨[], supply⟩ ∧
      m.trail = [] ∧
      (session evaluator.answer operations ⟨[], supply⟩).1[before.length]? =
        some ((evaluator.answer operation).run m).1 ∧
      ∀ fresh, operation.Tagged (fun tag => tag < m.supply ∧ tag < fresh) →
        Outcome.Related (Value.Renumbered m.supply fresh) ((evaluator.answer operation).run m).1
          ((evaluator.answer operation).run ⟨[], fresh⟩).1 := by
  intro operations m
  have htrail : m.trail = [] := (evaluator.session_watchedAnswer breach before supply).2
  refine ⟨(evaluator.session_watchedAnswer breach operations supply).1, htrail, ?_, ?_⟩
  · show (session _ (before ++ operation :: after) ⟨[], supply⟩).1[before.length]? = _
    rw [session_append, ← session_length evaluator.answer before ⟨[], supply⟩,
      List.getElem?_append_right (Nat.le_refl _), Nat.sub_self]
    rfl
  · intro fresh htagged
    have hmachine : m = ⟨[], m.supply⟩ := by rw [← htrail]
    rw [hmachine]
    exact evaluator.answer_renumbered htagged

/-! ### A call after the limit was hit -/

namespace AfterLimit

/-- A place in a file. -/
def span : Span := Snippet.place 0 1

/-- An evaluator that nests three steps. -/
def evaluator : Evaluator := ⟨.none, 3⟩

/-- `(((true)))`, which takes one step too many. -/
def deep : Operation :=
  let wrap (e : Expr) : Expr := .wrapped span .parentheses e
  .entry (.expr (wrap (wrap (wrap (.bool span true)))))

/-- A call of `x => [x]` with an empty list. -/
def pack : Operation :=
  .call (.closure 3 ⟨span, ["x"], .value (.array span [.item (.plain (.identifier ⟨"x", span⟩))])⟩
    .root) [.list 4 []]

/-- The step that hit the limit leaves nothing behind, so the list is packed as by a fresh
evaluator; only the list around it has another tag. -/
theorem pack_after_deep :
    let m := (session evaluator.answer [deep] ⟨[], 5⟩).2
    (session evaluator.answer [deep] ⟨[], 5⟩).1 = [.error (.recursionLimit 3)] ∧
      pack.Tagged (fun tag => tag < m.supply ∧ tag < 9) ∧
      Value.Renumbered 5 9 (.list 5 [.list 4 []]) (.list 9 [.list 4 []]) := by
  intro m
  have hdeep : session evaluator.answer [deep] ⟨[], 5⟩ = ([.error (.recursionLimit 3)], ⟨[], 5⟩) :=
    rfl
  have hm : m = ⟨[], 5⟩ := congrArg Prod.snd hdeep
  have htagged : pack.Tagged (fun tag => tag < m.supply ∧ tag < 9) := by
    rw [hm]
    refine ⟨.closure (by decide) nofun, fun arg harg => ?_⟩
    obtain rfl := List.mem_singleton.1 harg
    exact .list (by decide) nofun
  have hpack (supply : Nat) : (evaluator.answer pack).run ⟨[], supply⟩ =
      (.ok (.list supply [.list 4 []]), ⟨[], supply + 1⟩) := by
    show (Value.call _ (.closure ..) _).run _ = _
    rw [Value.call_closure]
    rfl
  have hrelated := (evaluator.session_undisturbed (Eval.fail (.arity 0)) 5 [deep] [] pack).2.2.2 9
    htagged
  refine ⟨congrArg Prod.fst hdeep, htagged, ?_⟩
  rw [show (session evaluator.answer [deep] ⟨[], 5⟩).2 = ⟨[], 5⟩ from hm, hpack, hpack] at hrelated
  cases hrelated with
  | ok hvalue => exact hvalue

end AfterLimit

end StaticConfig
