import StaticConfig.Evaluation.Operation

/-!
# Calls

Calling a value: an arrow function enters its body with the parameters bound, a method works on its
receiver and may call its first argument back on every item. A method that is called back by a
method adds no step to the trail, so such calls are bounded by the values themselves: each one
takes its callee and first argument apart further (`Value.weight`).
-/

namespace StaticConfig

/-! ### The weight of a value -/

namespace Value

mutual

/-- How many values a value is made of, counting items, fields and receivers. -/
def weight : Value → Nat
  | .list _ items => weightItems items + 1
  | .record _ fields => weightFields fields.entries + 1
  | .method _ receiver _ => receiver.weight + 1
  | _ => 1

def weightItems : List Value → Nat
  | [] => 0
  | item :: rest => item.weight + weightItems rest

def weightFields : List (String × Value) → Nat
  | [] => 0
  | (_, value) :: rest => value.weight + weightFields rest

end

theorem weight_le_weightItems {item : Value} {items : List Value} (h : item ∈ items) :
    item.weight ≤ weightItems items := by
  induction items with
  | nil => simp at h
  | cons first rest ih =>
    rw [weightItems]
    rcases List.mem_cons.1 h with rfl | h
    · exact Nat.le_add_right _ _
    · exact Nat.le_trans (ih h) (Nat.le_add_left _ _)

end Value

/-! ### Calling -/

/-- The bindings of a call: a parameter without an argument is undefined, and arguments beyond the
parameters are dropped. -/
def bindParams : List String → List Value → List (String × Value)
  | [], _ => []
  | param :: params, [] => (param, .undefined) :: bindParams params []
  | param :: params, arg :: args => (param, arg) :: bindParams params args

/-- The arguments of a callback: the item, its index and the list. -/
def callbackArgs (item : Value) (index : Nat) (list : Value) : List Value :=
  [item, .number (.ofNat index), list]

/-- Calls a value. `visit` evaluates the body of an arrow function, as one step. -/
def Value.call (visit : Scope Value → Node → Eval Value) (callee : Value) (args : List Value) :
    Eval Value :=
  match callee with
  | .closure _ code scope =>
    visit (scope.extend (bindParams code.params args)) (.body code.span code.body)
  | .method _ (.string text) m => liftExcept (m.applyToString text args)
  | .method _ (.list tag items) m =>
    let first := args.headD .undefined
    if m = .includes then return .bool (items.any (·.strictEquals first))
    else if first.isCallable then
      m.applyToCallbacks <| items.attach.zipIdx.map fun (⟨item, _⟩, index) =>
        (item, first.call visit (callbackArgs item index (.list tag items)))
    else Eval.fail (.typeMismatch "function" first.typeName)
  | .method _ receiver m => Eval.fail (.unsupportedMethod m.name receiver.typeName)
  | _ => Eval.fail (.typeMismatch "function" callee.typeName)
termination_by callee.weight + (args.headD .undefined).weight
decreasing_by
  all_goals
    have := Value.weight_le_weightItems (show item ∈ items by assumption)
    simp only [callbackArgs, List.headD_cons, Value.weight]
    omega

/-! ### What a call does -/

namespace Value

/-- The callbacks of a list method: `callee` on every item, with its index and the list. -/
def callbacks (visit : Scope Value → Node → Eval Value) (callee : Value) (tag : Nat)
    (items : List Value) : List Pending :=
  items.zipIdx.map fun (item, index) =>
    (item, callee.call visit (callbackArgs item index (.list tag items)))

theorem call_closure (visit : Scope Value → Node → Eval Value) (tag : Nat) (code : ArrowCode)
    (scope : Scope Value) (args : List Value) :
    (Value.closure tag code scope).call visit args =
      visit (scope.extend (bindParams code.params args)) (.body code.span code.body) := by
  rw [call]

theorem call_stringMethod (visit : Scope Value → Node → Eval Value) (tag : Nat) (text : String)
    (m : Method) (args : List Value) :
    (Value.method tag (.string text) m).call visit args =
      liftExcept (m.applyToString text args) := by
  rw [call]

/-- `call` takes the items out of an `attach` that its recursion needs; nothing else does. -/
theorem call_listMethod (visit : Scope Value → Node → Eval Value) (tag listTag : Nat)
    (items : List Value) (m : Method) (args : List Value) :
    (Value.method tag (.list listTag items) m).call visit args =
      let first := args.headD .undefined
      if m = .includes then return .bool (items.any (·.strictEquals first))
      else if first.isCallable then m.applyToCallbacks (first.callbacks visit listTag items)
      else Eval.fail (.typeMismatch "function" first.typeName) := by
  have hzip : items.zipIdx = items.attach.zipIdx.map fun (item, index) => (item.1, index) := by
    conv => lhs; rw [← List.attach_map_subtype_val items]
    rw [List.zipIdx_map]
    rfl
  have hcallbacks : (items.attach.zipIdx.map fun (⟨item, _⟩, index) =>
        (item, (args.headD .undefined).call visit
          (callbackArgs item index (.list listTag items)))) =
      (args.headD .undefined).callbacks visit listTag items := by
    rw [callbacks, hzip, List.map_map]
    rfl
  rw [call, hcallbacks]

end Value

end StaticConfig
