import StaticConfig.Proofs.Evaluation.Simulation.Same

/-!
# Confinement of methods

A bound method is a pair of a receiver and a method, and what calls it takes for granted that the
receiver has the method. Only reading a member binds methods, and it binds those on the allow-list
alone. So where evaluation starts from values whose methods are all allowed on their receivers, it
never comes across any other, and the arms for methods on a wrong receiver are dead.

- `Value.Confined`: all bound methods in a value are allowed on their receivers;
- `confinementWatch`: an observer that looks at every value that is bound, captured, passed or
  produced, does anything at all in the dead arms, and words the faults of member reads itself;
- `evaluation_confined`: the watch makes no difference but in those words.
-/

namespace StaticConfig

/-- What is found on the allow-list has the name that it is looked up by. -/
theorem Value.name_of_allowedMethod? {receiver : Value} {name : String} {m : Method}
    (h : receiver.allowedMethod? name = some m) : m.name = name := by
  obtain ⟨methods, _, hfound⟩ := Option.bind_eq_some_iff.1 h
  have hname := List.find?_some hfound
  exact beq_iff_eq.1 hname

/-- Methods that are allowed on their receiver under their name. -/
def Admission.allowed : Admission where
  admits receiver m := receiver.allowedMethod? m.name = some m
  admits_allowed h := by rwa [Value.name_of_allowedMethod? h]

/-- Whether every bound method in a value is allowed on its receiver, at any depth and in the scopes
that arrow functions keep. -/
def Value.Confined : Value → Prop := Value.Admitted .allowed

/-- Whether all values that a scope binds are confined. -/
def Scope.Confined : Scope Value → Prop := Scope.Admitted .allowed

/-- Does `breach` in place of a step or a call if a value that it is given or that it produces is
not confined, and `stray` in place of the faults for methods on a wrong receiver. Reading a method
that is not allowed is reported as `rejected`. -/
noncomputable def confinementWatch (breach : Eval Value) (stray : Value → Method → Eval Value)
    (rejected : String → String → Fault) : Observer where
  onStep scope _ := Eval.watched breach fun _ outcome =>
    scope.Confined ∧ ∀ v, outcome.1 = .ok v → v.Confined
  onRule rule := rule
  onCall callee args := Eval.watched breach fun _ outcome =>
    callee.Confined ∧ (∀ arg ∈ args, arg.Confined) ∧ ∀ v, outcome.1 = .ok v → v.Confined
  onStray := stray
  onRejected := rejected
  onExceeded := breach

section

variable (definitions : Definitions) (limit : Nat) (breach : Eval Value)
variable (stray : Value → Method → Eval Value) (rejected : String → String → Fault)

theorem confined_of_outcomes {result outcome : Except Fault Value}
    (h : Outcome.Coupled (Simulation.beside definitions .same .allowed rejected).faults
      (Simulation.beside definitions .same .allowed rejected).Values result outcome) :
    ∀ v, outcome = .ok v → v.Confined := by
  rintro v rfl
  cases h with
  | ok hvalue =>
    obtain ⟨rfl, hconfined⟩ := values_beside_iff.1 hvalue
    exact hconfined

theorem ignores_confinementWatch :
    (Simulation.beside definitions .same .allowed rejected).Ignores limit
      (confinementWatch breach stray rejected) where
  onStep hscopes h := by
    obtain ⟨rfl, hscope⟩ := scopes_beside_iff.1 hscopes
    dsimp only [confinementWatch]
    exact h.watched fun houtcome => ⟨hscope, confined_of_outcomes definitions rejected houtcome⟩
  onRule _ h := h
  onCall hcallee hargs h := by
    obtain ⟨rfl, hcalled⟩ := values_beside_iff.1 hcallee
    obtain ⟨rfl, hgiven⟩ := forall₂_values_beside_iff.1 hargs
    dsimp only [confinementWatch]
    exact h.watched fun houtcome =>
      ⟨hcalled, hgiven, confined_of_outcomes definitions rejected houtcome⟩
  -- A method is only admitted on a receiver that has it.
  onStray hallowed hstray := absurd hallowed hstray
  onRejected _ _ := rfl

/-- **Methods stay confined.** Evaluations in a confined scope and calls of confined values with
confined arguments come across confined values only: in every scope and every argument list that
they use on the way, and in every result. Whatever the arms for methods on a wrong receiver did
instead of failing, the run would be the same, and every fault that rejects a method comes from a
member read, which may report it as anything else. -/
theorem evaluation_confined (m : Machine) {steps : Nat}
    (hsteps : limit - m.trail.length < steps) :
    let watch := confinementWatch breach stray rejected
    let plain := evaluate definitions limit (limit - m.trail.length)
    let watched := evaluateObserved definitions limit watch steps
    (∀ scope node, scope.Confined →
      Eval.Beside .allowed rejected m (plain scope node) (watched scope node)) ∧
    ∀ callee args, callee.Confined → (∀ arg ∈ args, arg.Confined) →
      Eval.Beside .allowed rejected m (callee.call plain args)
        (watch.call watched callee args) := by
  intro watch plain watched
  have hignores := ignores_confinementWatch definitions limit breach stray rejected
  constructor
  · exact fun scope node hscope => evaluateObserved_beside hignores m hsteps hscope node
  · exact fun callee args hcallee hargs => Observer.call_beside hignores m hsteps hcallee hargs

end

/-! ### A method that calls a method back -/

namespace Callback

/-- `[true].find`. -/
def find : Value := .method 0 (.list 1 [.bool true]) .find

/-- `[true].includes`. -/
def includes : Value := .method 2 (.list 3 [.bool true]) .includes

/-- A stray method would give its receiver here. -/
def stray (receiver : Value) (_ : Method) : Eval Value := return receiver

/-- The call of `find` with `includes` comes to its value under the watch, whatever a stray method
would do, since there is none. -/
theorem find_includes_confined :
    let watch := confinementWatch (Eval.fail (.arity 0)) stray .typeMismatch
    find.Confined ∧ includes.Confined ∧
      (watch.call (evaluateObserved .none 8 watch 9) find [includes]).run .start =
        (.ok (.bool true), .start) := by
  intro watch
  have hlist (tag : Nat) : Value.Confined (.list tag [.bool true]) :=
    .list trivial fun item hitem => List.mem_singleton.1 hitem ▸ .bool true
  have hfind : find.Confined := .method trivial rfl (hlist 1)
  have hincludes : includes.Confined := .method trivial rfl (hlist 3)
  have hargs : ∀ arg ∈ [includes], arg.Confined := fun arg harg =>
    List.mem_singleton.1 harg ▸ hincludes
  have hcalls := (evaluation_confined .none 8 (Eval.fail (.arity 0)) stray .typeMismatch .start
    (show 8 - Machine.start.trail.length < 9 by decide)).2 find [includes] hfind hargs
  refine ⟨hfind, hincludes, hcalls.run_eq.trans ?_⟩
  rw [find, includes, Value.call_listMethod]
  simp only [Value.callbacks, callbackArgs, List.headD_cons, Value.call_listMethod, List.any_cons,
    List.zipIdx_singleton, List.map_cons, Value.strictEquals]
  rfl

end Callback

end StaticConfig
