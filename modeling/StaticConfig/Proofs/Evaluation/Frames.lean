import StaticConfig.Evaluation.Evaluate

/-!
# Nested calls

A call of a method that calls its argument back adds no step to the trail, so the limit does not
bound how deep such calls nest. The values do: what is called back, and on what, is part of the
callee and its first argument.

- `Value.callRule`: what a call does, with the calls that it makes itself left open;
- `Value.callWithin`: a call with a budget of nested calls, past which it does something arbitrary;
- `Value.callWithin_eq_call`: a budget of as many calls as the callee and its first argument are
  made of values (`Value.frameBound`) is never used up.
-/

namespace StaticConfig

namespace Value

/-- What a call does, where `inner` are the calls that it makes itself. -/
def callRule (visit : Scope Value → Node → Eval Value) (inner : Value → List Value → Eval Value)
    (callee : Value) (args : List Value) : Eval Value :=
  match callee with
  | .closure _ code scope =>
    visit (scope.extend (bindParams code.params args)) (.body code.span code.body)
  | .method _ (.string text) m => liftExcept (m.applyToString text args)
  | .method _ (.list tag items) m =>
    let first := args.headD .undefined
    if m = .includes then return .bool (items.any (·.strictEquals first))
    else if first.isCallable then
      m.applyToCallbacks <| items.zipIdx.map fun (item, index) =>
        (item, inner first (callbackArgs item index (.list tag items)))
    else Eval.fail (.typeMismatch "function" first.typeName)
  | .method _ receiver m => Eval.fail (.unsupportedMethod m.name receiver.typeName)
  | _ => Eval.fail (.typeMismatch "function" callee.typeName)

/-- `call` is the function that makes its own calls by itself. -/
theorem call_eq_callRule (visit : Scope Value → Node → Eval Value) (callee : Value)
    (args : List Value) : callee.call visit args = callRule visit (call visit) callee args := by
  cases callee with
  | closure tag code scope => exact call_closure visit tag code scope args
  | method tag receiver m =>
    cases receiver with
    | string text => exact call_stringMethod visit tag text m args
    | list listTag items => exact call_listMethod visit tag listTag items m args
    | undefined | null | bool | number | record | closure | method => simp only [call, callRule]
  | undefined | null | bool | number | string | list | record => simp only [call, callRule]

/-- A call in which at most `frames` calls are nested, itself included; one more is `exceeded`. -/
def callWithin (visit : Scope Value → Node → Eval Value) (exceeded : Eval Value) :
    (frames : Nat) → (callee : Value) → (args : List Value) → Eval Value
  | 0, _, _ => exceeded
  | frames + 1, callee, args => callRule visit (callWithin visit exceeded frames) callee args

/-- How many values a callee and its first argument are made of. -/
def frameBound (callee : Value) (args : List Value) : Nat :=
  callee.weight + (args.head?.map weight).getD 0

theorem weight_pos (v : Value) : 0 < v.weight := by
  cases v <;> simp only [weight] <;> omega

theorem frameBound_pos (callee : Value) (args : List Value) : 0 < callee.frameBound args :=
  Nat.lt_of_lt_of_le callee.weight_pos (Nat.le_add_right _ _)

/-- A callback is made of fewer values than the call that it is part of, whose first argument is
now the callee: the callee has become one of the items in it. -/
theorem frameBound_callback_lt {tag listTag : Nat} {items args : List Value} {m : Method}
    {item : Value} (hitem : item ∈ items)
    (hcallable : (args.headD .undefined).isCallable = true) (index : Nat) (list : Value) :
    (args.headD .undefined).frameBound (callbackArgs item index list) <
      (Value.method tag (.list listTag items) m).frameBound args := by
  cases args with
  | nil => cases hcallable
  | cons first rest =>
    have hlight := weight_le_weightItems hitem
    simp only [frameBound, callbackArgs, List.headD_cons, List.head?_cons, Option.map_some,
      Option.getD_some, weight]
    omega

/-- A call makes no other calls than of callees and first arguments with fewer values. -/
theorem callRule_congr (visit : Scope Value → Node → Eval Value)
    {inner other : Value → List Value → Eval Value} {callee : Value} {args : List Value}
    (h : ∀ called given, called.frameBound given < callee.frameBound args →
      inner called given = other called given) :
    callRule visit inner callee args = callRule visit other callee args := by
  cases callee with
  | method tag receiver m =>
    cases receiver with
    | list listTag items =>
      have hcallbacks (hcallable : (args.headD .undefined).isCallable = true) :
          ∀ pair ∈ items.zipIdx,
            (pair.1, inner (args.headD .undefined)
                (callbackArgs pair.1 pair.2 (.list listTag items))) =
              (pair.1, other (args.headD .undefined)
                (callbackArgs pair.1 pair.2 (.list listTag items))) := by
        intro pair hpair
        have hitem := List.fst_mem_of_mem_zipIdx hpair
        rw [h _ _ (frameBound_callback_lt hitem hcallable pair.2 _)]
      simp only [callRule]
      split
      · rfl
      · split
        · rw [List.map_congr_left (hcallbacks ‹_›)]
        · rfl
    | undefined | null | bool | number | string | record | closure | method => rfl
  | undefined | null | bool | number | string | list | record | closure => rfl

/-- Calls that are made of at most `frames` values never nest more than `frames` calls. -/
theorem callWithin_eq_call (visit : Scope Value → Node → Eval Value) (exceeded : Eval Value)
    {frames : Nat} {callee : Value} {args : List Value} (h : callee.frameBound args ≤ frames) :
    callWithin visit exceeded frames callee args = callee.call visit args := by
  induction frames generalizing callee args with
  | zero =>
    have hpos := callee.frameBound_pos args
    omega
  | succ frames ih =>
    rw [call_eq_callRule, callWithin]
    refine callRule_congr visit fun called given hlight => ?_
    exact ih (Nat.le_of_lt_succ (Nat.lt_of_lt_of_le hlight h))

end Value

end StaticConfig
