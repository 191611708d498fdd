import StaticConfig.Proofs.Evaluation.Frames

/-!
# Observed evaluation

The evaluator with an observer at every place that a statement about whole runs may speak of: around
each step, inside it once its span is on the trail, around each call with the callbacks of methods,
and in place of the faults that reject a method. An observer may replace what it sees by anything at
all, so a run that does not depend on the observer shows that there was nothing to see.

- `evaluateObserved`: evaluation under an observer, with the trail itself as the guard against deep
  nesting;
- `Observer.call`: calls under an observer;
- `Eval.watched`: a step that is replaced by another one if what it does is not as it should be.
-/

namespace StaticConfig

/-! ### Observers -/

/-- What is done around, or in place of, parts of an evaluation. -/
structure Observer where
  /-- Around the whole step of a node, its entry of the trail included. -/
  onStep : Scope Value → Node → Eval Value → Eval Value
  /-- Around what the step of a node does while its span is on the trail. -/
  onRule : Eval Value → Eval Value
  /-- Around a call, from outside, from a call expression or by a method. -/
  onCall : Value → List Value → Eval Value → Eval Value
  /-- In place of the fault for a bound method that its receiver does not have. -/
  onStray : Value → Method → Eval Value
  /-- In place of the fault for reading a method that is not allowed. -/
  onRejected : String → String → Fault
  /-- In place of a step or a call that is nested deeper than the budgets allow. -/
  onExceeded : Eval Value

/-- The observer that leaves everything as it is. -/
def Observer.silent : Observer where
  onStep _ _ step := step
  onRule rule := rule
  onCall _ _ call := call
  onStray receiver m := Eval.fail (.unsupportedMethod m.name receiver.typeName)
  onRejected name target := .unsupportedMethod name target
  onExceeded := return .undefined

/-! ### Calls -/

section Calls

variable (observer : Observer)

/-- Applies a method to a string; the observer answers for the methods that strings do not have. -/
def Observer.applyToString (m : Method) (text : String) (args : List Value) : Eval Value :=
  match m with
  | .toUpperCase | .toLowerCase | .slice => liftExcept (m.applyToString text args)
  | _ => observer.onStray (.string text) m

/-- What a list method makes of its callbacks; the observer answers for the methods that lists do
not have. -/
def Observer.applyToCallbacks (m : Method) (list : Value) (calls : List Pending) : Eval Value :=
  match m with
  | .map | .flatMap | .some | .find | .filter => m.applyToCallbacks calls
  | _ => observer.onStray list m

/-- `callRule` with the observer in place of the faults for methods on a wrong receiver. -/
def Observer.callRule (visit : Scope Value → Node → Eval Value)
    (inner : Value → List Value → Eval Value) (callee : Value) (args : List Value) : Eval Value :=
  match callee with
  | .method _ (.string text) m => observer.applyToString m text args
  | .method _ (.list tag items) m =>
    let first := args.headD .undefined
    if m = .includes then return .bool (items.any (·.strictEquals first))
    else if first.isCallable then
      observer.applyToCallbacks m (.list tag items) <| items.zipIdx.map fun (item, index) =>
        (item, inner first (callbackArgs item index (.list tag items)))
    else Eval.fail (.typeMismatch "function" first.typeName)
  | .method _ receiver m => observer.onStray receiver m
  | _ => callee.callRule visit inner args

/-- A call under an observer, in which at most `frames` calls are nested. -/
def Observer.callWithin (visit : Scope Value → Node → Eval Value) :
    (frames : Nat) → (callee : Value) → (args : List Value) → Eval Value
  | 0, _, _ => observer.onExceeded
  | frames + 1, callee, args =>
    observer.onCall callee args (observer.callRule visit (callWithin visit frames) callee args)

/-- A call under an observer, which may nest as many calls as it is made of values. -/
def Observer.call (visit : Scope Value → Node → Eval Value) (callee : Value) (args : List Value) :
    Eval Value :=
  observer.callWithin visit (callee.frameBound args) callee args

/-- Reads a member; the observer words the fault if the member is a method that is not allowed. -/
def Observer.readMember (target : Value) (name : String) : Eval Value :=
  match target.member name with
  | .error (.unsupportedMethod member type) => Eval.fail (observer.onRejected member type)
  | _ => StaticConfig.readMember target name

end Calls

/-! ### Calls that no one observes -/

theorem Observer.silent_readMember (target : Value) (name : String) :
    silent.readMember target name = StaticConfig.readMember target name := by
  unfold readMember
  split
  · rename_i hmember
    rw [StaticConfig.readMember, hmember]
    rfl
  · rfl

theorem Observer.silent_callRule (visit : Scope Value → Node → Eval Value)
    (inner : Value → List Value → Eval Value) (callee : Value) (args : List Value) :
    silent.callRule visit inner callee args = callee.callRule visit inner args := by
  cases callee with
  | method tag receiver m =>
    cases receiver with
    | string text => cases m <;> rfl
    | list listTag items => cases m <;> rfl
    | undefined | null | bool | number | record | closure | method => rfl
  | undefined | null | bool | number | string | list | record | closure => rfl

theorem Observer.silent_call (visit : Scope Value → Node → Eval Value) (callee : Value)
    (args : List Value) : silent.call visit callee args = callee.call visit args := by
  have hwithin (frames : Nat) (callee : Value) (args : List Value) :
      silent.callWithin visit frames callee args =
        Value.callWithin visit silent.onExceeded frames callee args := by
    induction frames generalizing callee args with
    | zero => rfl
    | succ frames ih =>
      rw [callWithin, silent_callRule, Value.callWithin]
      exact congrArg (fun inner => Value.callRule visit inner callee args)
        (funext fun called => funext fun given => ih called given)
  rw [call, hwithin, Value.callWithin_eq_call visit _ (Nat.le_refl _)]

/-! ### Steps -/

/-- Runs a rule with `span` on the trail, unless the trail has reached the limit. -/
def Eval.guarded (limit : Nat) (span : Span) (rule : Eval Value) : Eval Value := do
  let m ← get
  if limit ≤ m.trail.length then Eval.fail (.recursionLimit limit) else Eval.within span rule

theorem Eval.run_guarded_full {limit : Nat} {m : Machine} (h : limit ≤ m.trail.length)
    (span : Span) (rule : Eval Value) :
    (guarded limit span rule).run m = (.error (.recursionLimit limit), m) := by
  show (if limit ≤ m.trail.length then _ else _ : Eval Value).run m = _
  rw [if_pos h]
  rfl

theorem Eval.run_guarded_free {limit : Nat} {m : Machine} (h : m.trail.length < limit)
    (span : Span) (rule : Eval Value) :
    (guarded limit span rule).run m = (within span rule).run m := by
  show (if limit ≤ m.trail.length then _ else _ : Eval Value).run m = _
  rw [if_neg (Nat.not_le.2 h)]

section Steps

variable (definitions : Definitions) (visit : Scope Value → Node → Eval Value)
variable (read : Value → String → Eval Value) (call : Value → List Value → Eval Value)

/-- `evalAccess` for any way to read a member. -/
def evalAccessVia (scope : Scope Value) (target : Expr) (key : AccessKey) : Eval Value := do
  let target ← visitExpr visit scope target
  match key with
  | .name name => read target name
  | .computed key => do read target (← visitExpr visit scope key).display
  | .hidden span => definitions.unsupported .privateIdentifier span

/-- `evalCall` for any way to call a value. -/
def evalCallVia (scope : Scope Value) (span : Span) (callee : Callee) (args : List Argument) :
    Eval Value :=
  match callee with
  | .value callee => do
    let callee ← visitExpr visit scope callee
    let args ← args.mapM (evalArgument visit scope)
    call callee args.flatten
  | .super => definitions.unsupported .superCall span
  | .module => definitions.unsupported .importCall span

/-- `evalNode` for any way to read a member and to call a value. -/
def evalNodeVia (scope : Scope Value) : Node → Eval Value
  | .expr (.access _ target key) => evalAccessVia definitions visit read scope target key
  | .expr (.call span callee args) => evalCallVia definitions visit call scope span callee args
  | node => evalNode definitions visit scope node

theorem evalNodeVia_silent (scope : Scope Value) (node : Node) :
    evalNodeVia definitions visit Observer.silent.readMember (Observer.silent.call visit) scope
        node =
      evalNode definitions visit scope node := by
  have hread : Observer.silent.readMember = readMember :=
    funext fun target => funext fun name => Observer.silent_readMember target name
  have hcall : Observer.silent.call visit = Value.call visit :=
    funext fun callee => funext fun args => Observer.silent_call visit callee args
  rw [hread, hcall]
  cases node with
  | expr e => cases e <;> rfl
  | stmt | declares | declarator | body | unevaluable => rfl

end Steps

section Evaluation

variable (definitions : Definitions) (limit : Nat) (observer : Observer)

/-- Evaluation under an observer, where at most `steps` steps are nested. A step fails if the trail
has reached the limit. -/
def evaluateObserved : (steps : Nat) → Scope Value → Node → Eval Value
  | 0, _, _ => observer.onExceeded
  | steps + 1, scope, node =>
    observer.onStep scope node <| Eval.guarded limit node.span <| observer.onRule <|
      evalNodeVia definitions (evaluateObserved steps) observer.readMember
        (observer.call (evaluateObserved steps)) scope node

end Evaluation

/-! ### Watching -/

namespace Eval

variable {α : Type} {breach step : Eval α} {fits : Machine → Except Fault α × Machine → Prop}

open scoped Classical in
/-- Runs a step if what it does from the machine fits, and `breach` in its place otherwise. -/
noncomputable def watched (breach : Eval α) (fits : Machine → Except Fault α × Machine → Prop)
    (step : Eval α) : Eval α :=
  ExceptT.mk fun m => if fits m (step.run m) then step.run m else breach.run m

theorem run_watched {m : Machine} (h : fits m (step.run m)) :
    (watched breach fits step).run m = step.run m := if_pos h

end Eval

end StaticConfig
