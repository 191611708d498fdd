import StaticConfig.Proofs.Evaluation.Coupling.Runs
import StaticConfig.Proofs.Evaluation.Observed
import StaticConfig.Proofs.Source.Unwrap
import StaticConfig.Proofs.Value.Record

/-!
# Coupled calls

Two steps of coupled runs, the second one perhaps under an observer and in code that has lost
wrappers, and what is known of the values that come up in them.

- `Coupling`: the steps, and the relations between values before and after something is built;
- `Coupling.readMember_coupled`: reading a member;
- `Coupling.call_coupled`: calling a value, if the bodies of functions are coupled.
-/

namespace StaticConfig

open List (Forall₂)

/-! ### Local faults -/

/-- Whether a fault is worded alike wherever it comes up: it neither reports the limit nor quotes
the steps around it. -/
def Fault.isLocal : Fault → Bool
  | .unsupportedConstruct .. | .recursionLimit _ => false
  | _ => true

/-- Whether a fault is that of a method that a value does not have, or is not allowed. -/
def Fault.rejectsMethod : Fault → Bool
  | .unsupportedMethod .. => true
  | _ => false

theorem Value.isLocal_of_member {target : Value} {name : String} {fault : Fault}
    (h : target.member name = .error fault) : fault.isLocal = true := by
  have hmissing (receiver : Value) (h : (if receiver.hasCallableMember name then
        Except.error (Fault.unsupportedMethod name receiver.typeName)
      else .ok (Found.value .undefined)) = .error fault) : fault.isLocal = true := by
    split at h <;> cases h
    rfl
  cases target with
  | undefined | null =>
    cases h
    rfl
  | bool b => exact hmissing (.bool b) h
  | number n => exact hmissing (.number n) h
  | closure tag code scope => exact hmissing (.closure tag code scope) h
  | method tag receiver m => exact hmissing (.method tag receiver m) h
  | list tag items =>
    simp only [member] at h
    split at h
    · cases h
    · split at h
      · cases h
      · split at h
        · cases h
        · exact hmissing (.list tag items) h
  | string text =>
    simp only [member] at h
    split at h
    · cases h
    · split at h
      · cases h
      · split at h
        · split at h <;> cases h
        · exact hmissing (.string text) h
  | record tag fields =>
    simp only [member] at h
    split at h
    · split at h <;> cases h
      rfl
    · exact hmissing (.record tag fields) h

/-! ### Couplings -/

/-- A step of each of two runs, and what is known of the values that come up in it. The runs may
differ in their surroundings, in wrappers that the second one goes without, and in the observer that
the second one has. -/
structure Coupling (W : Type) [Preorder W] extends Terms W where
  left : Definitions
  right : Definitions
  /-- The wrappers that the code of the second run goes without. -/
  drop : Wrapper → Bool
  observer : Observer
  /-- How the first run evaluates the nodes inside. -/
  visit : Scope Value → Node → Eval Value
  /-- How the second run evaluates the nodes inside. -/
  visit' : Scope Value → Node → Eval Value
  trail : List Span
  trail' : List Span
  /-- The tags that stand for one identity. -/
  tags : Nat → Nat → Prop
  /-- What is known of the values that the steps inside come to. -/
  inner : W → Value → Value → Prop
  /-- What is known of the values that are built from these. -/
  outer : W → Value → Value → Prop
  resemblance : ∀ w, Value.Resemblance tags (inner w)
  inner_mono : ∀ {w w' : W} {v v' : Value}, w ≤ w' → inner w v v' → inner w' v v'
  outer_of_inner : ∀ {w : W} {v v' : Value}, inner w v v' → outer w v v'
  faults_self : ∀ {fault : Fault}, fault.isLocal = true → fault.rejectsMethod = false →
    faults fault fault
  faults_rejected : ∀ name target,
    faults (.unsupportedMethod name target) (observer.onRejected name target)
  new_list : ∀ {w : W} {xs ys : List Value}, Forall₂ (inner w) xs ys →
    toTerms.Makes w outer (.list · xs) (.list · ys)
  new_record : ∀ {w : W} {fields others : Record Value}, fields.Built →
    Record.Related (inner w) fields others →
      toTerms.Makes w outer (.record · fields) (.record · others)
  new_method : ∀ {w : W} {receiver other : Value} {name : String} {m : Method},
    inner w receiver other → receiver.allowedMethod? name = some m →
      toTerms.Makes w outer (.method · receiver m) (.method · other m)

namespace Coupling

variable {W : Type} [Preorder W] (C : Coupling W)

/-- Whether two computations inside the steps stay beside each other. -/
abbrev Coupled {α β : Type} (w : W) (Q : W → α → β → Prop) (step : Eval α) (other : Eval β) :
    Prop :=
  Eval.Coupled C.toTerms C.trail C.trail' w Q step other

variable {C} {w : W}

theorem inner_undefined (w : W) : C.inner w .undefined .undefined :=
  (C.resemblance w).primitive rfl

theorem forall₂_inner_mono {w' : W} (hle : w ≤ w') {xs ys : List Value}
    (h : Forall₂ (C.inner w) xs ys) : Forall₂ (C.inner w') xs ys :=
  h.imp fun _ _ => C.inner_mono hle

/-- A fault that says nothing about methods, the limit or the steps around. -/
theorem fail_coupled {α β : Type} {Q : W → α → β → Prop} {fault : Fault}
    (hlocal : fault.isLocal = true) (h : fault.rejectsMethod = false) :
    C.Coupled w Q (Eval.fail fault) (Eval.fail fault) :=
  .fail (C.faults_self hlocal h)

/-! ### Building values -/

theorem newList_coupled {xs ys : List Value} (h : Forall₂ (C.inner w) xs ys) :
    C.Coupled w C.outer (Eval.newList xs) (Eval.newList ys) :=
  .make (C.new_list h)

theorem newMethod_coupled {receiver other : Value} {name : String} {m : Method}
    (h : C.inner w receiver other) (hm : receiver.allowedMethod? name = some m) :
    C.Coupled w C.outer (Eval.newMethod receiver m) (Eval.newMethod other m) :=
  .make (C.new_method h hm)

theorem readMember_coupled {v v' : Value} (h : C.inner w v v') (name : String) :
    C.Coupled w C.outer (readMember v name) (C.observer.readMember v' name) := by
  have hmember := (C.resemblance w).member h name
  have hlocal {fault : Fault} (h : v.member name = .error fault) : fault.isLocal = true :=
    Value.isLocal_of_member h
  unfold Observer.readMember readMember
  generalize v.member name = found, v'.member name = found' at hmember hlocal
  cases hmember with
  | error fault =>
    cases hfault : fault.rejectsMethod with
    | true =>
      cases fault with
      | unsupportedMethod member type => exact .fail (C.faults_rejected member type)
      | _ => cases hfault
    | false =>
      have hself := fail_coupled (C := C) (w := w) (Q := C.outer) (hlocal rfl) hfault
      cases fault with
      | unsupportedMethod => cases hfault
      | _ => exact hself
  | ok hfound =>
    cases hfound with
    | value hvalue => exact .pure (C.outer_of_inner hvalue)
    | allowed hm => exact newMethod_coupled h hm

/-! ### Callbacks -/

/-- Callbacks on related items that stay beside each other from some world on. -/
def Callbacks (C : Coupling W) (w : W) : List Pending → List Pending → Prop :=
  Forall₂ fun call other => C.inner w call.1 other.1 ∧
    ∀ w', w ≤ w' → C.Coupled w' C.inner call.2 other.2

variable {w' : W} {calls others : List Pending}

theorem results_coupled (h : C.Callbacks w calls others) (hle : w ≤ w') :
    C.Coupled w' (fun v => Forall₂ (C.inner v)) (Pending.results calls) (Pending.results others) :=
  .mapM (R := C.inner) C.inner_mono (h.imp fun _ _ h => h.2) hle

theorem any_coupled (h : C.Callbacks w calls others) (hle : w ≤ w') :
    C.Coupled w' (fun _ => (· = ·)) (Pending.any calls) (Pending.any others) := by
  induction h generalizing w' with
  | nil => exact .pure rfl
  | cons hhead _ ih =>
    refine (hhead.2 w' hle).bind fun v value value' hle' hvalue => ?_
    rw [(C.resemblance v).isTruthy_eq hvalue]
    cases value'.isTruthy with
    | true => exact .pure rfl
    | false => exact ih (le_trans hle hle')

theorem first_coupled (h : C.Callbacks w calls others) (hle : w ≤ w') :
    C.Coupled w' C.inner (Pending.first calls) (Pending.first others) := by
  induction h generalizing w' with
  | nil => exact .pure (inner_undefined w')
  | cons hhead _ ih =>
    obtain ⟨hitem, hcall⟩ := hhead
    refine (hcall w' hle).bind fun v value value' hle' hvalue => ?_
    rw [(C.resemblance v).isTruthy_eq hvalue]
    cases value'.isTruthy with
    | true => exact .pure (C.inner_mono (le_trans hle hle') hitem)
    | false => exact ih (le_trans hle hle')

theorem kept_coupled (h : C.Callbacks w calls others) (hle : w ≤ w') :
    C.Coupled w' (fun v => Forall₂ (C.inner v)) (Pending.kept calls) (Pending.kept others) := by
  induction h generalizing w' with
  | nil => exact .pure .nil
  | cons hhead _ ih =>
    obtain ⟨hitem, hcall⟩ := hhead
    refine (hcall w' hle).bind fun v value value' hle' hvalue => ?_
    rw [(C.resemblance v).isTruthy_eq hvalue]
    cases value'.isTruthy with
    | true =>
      exact (ih (le_trans hle hle')).bind fun v' _ _ hle'' hrest =>
        .pure (.cons (C.inner_mono (le_trans hle (le_trans hle' hle'')) hitem) hrest)
    | false => exact ih (le_trans hle hle')

/-- What the observer has in place of a method that its receiver does not have. -/
def StrayCoupled (C : Coupling W) (w : W) (m : Method) (receiver other : Value) : Prop :=
  receiver.allowedMethod? m.name ≠ some m →
    C.Coupled w C.outer (Eval.fail (.unsupportedMethod m.name receiver.typeName))
      (C.observer.onStray other m)

theorem applyToCallbacks_coupled (m : Method) {tag : Nat} {xs : List Value} {list : Value}
    (h : C.Callbacks w calls others) (hstray : C.StrayCoupled w m (.list tag xs) list)
    (hother : m ≠ .includes) :
    C.Coupled w C.outer (m.applyToCallbacks calls)
      (C.observer.applyToCallbacks m list others) := by
  cases m with
  | map => exact (results_coupled h le_rfl).bind fun _ _ _ _ => newList_coupled
  | flatMap =>
    refine (results_coupled h le_rfl).bind fun v _ _ _ hresults => newList_coupled ?_
    exact List.rel_flatMap hresults fun _ _ => (C.resemblance v).spliced
  | some =>
    exact (any_coupled h le_rfl).bind fun v _ _ _ hany =>
      .pure (hany ▸ C.outer_of_inner ((C.resemblance v).primitive rfl))
  | find => exact (first_coupled h le_rfl).imp fun _ _ _ _ => C.outer_of_inner
  | filter => exact (kept_coupled h le_rfl).bind fun _ _ _ _ => newList_coupled
  | includes => exact absurd rfl hother
  | slice | toUpperCase | toLowerCase =>
    exact hstray (by rw [Value.allowedMethod?, Value.typeName]; decide)

/-! ### Calls -/

theorem applyToString_coupled (m : Method) (text : String) {args others : List Value}
    (h : Forall₂ (C.inner w) args others)
    (hstray : C.StrayCoupled w m (.string text) (.string text)) :
    C.Coupled w C.outer (liftExcept (m.applyToString text args))
      (C.observer.applyToString m text others) := by
  have hprimitive (text : String) : C.outer w (.string text) (.string text) :=
    C.outer_of_inner ((C.resemblance w).primitive rfl)
  cases m with
  | toUpperCase | toLowerCase => exact .pure (hprimitive _)
  | slice =>
    simp only [Observer.applyToString, Method.applyToString, (C.resemblance w).sliceText_eq h]
    exact .pure (hprimitive _)
  | map | flatMap | includes | some | find | filter =>
    exact hstray (by rw [Value.allowedMethod?, Value.typeName]; decide)

/-- The callbacks of a list method, and what it makes of them. -/
theorem listMethod_coupled (m : Method) {tag tag' : Nat} {xs ys : List Value} {first first' : Value}
    {inner inner' : Value → List Value → Eval Value} (hitems : Forall₂ (C.inner w) xs ys)
    (hfirst : C.inner w first first')
    (hstray : C.StrayCoupled w m (.list tag xs) (.list tag' ys))
    (hcalls : first.isCallable = true → ∀ x ∈ xs, ∀ y ∈ ys, C.inner w x y → ∀ index w', w ≤ w' →
      C.Coupled w' C.inner (inner first (callbackArgs x index (.list tag xs)))
        (inner' first' (callbackArgs y index (.list tag' ys)))) :
    C.Coupled w C.outer
      (if m = .includes then return .bool (xs.any (·.strictEquals first))
        else if first.isCallable then
          m.applyToCallbacks (xs.zipIdx.map fun (item, index) =>
            (item, inner first (callbackArgs item index (.list tag xs))))
        else Eval.fail (.typeMismatch "function" first.typeName))
      (if m = .includes then return .bool (ys.any (·.strictEquals first'))
        else if first'.isCallable then
          C.observer.applyToCallbacks m (.list tag' ys) (ys.zipIdx.map fun (item, index) =>
            (item, inner' first' (callbackArgs item index (.list tag' ys))))
        else Eval.fail (.typeMismatch "function" first'.typeName)) := by
  have hR := C.resemblance w
  rw [hR.includes_eq hitems hfirst, ← hR.isCallable_eq hfirst, hR.typeName_eq hfirst]
  split
  · exact .pure (C.outer_of_inner (hR.primitive rfl))
  · rename_i hother
    split
    · rename_i hcallable
      refine applyToCallbacks_coupled m ?_ hstray hother
      have hleft : Forall₂ (fun x y => x ∈ xs ∧ C.inner w x y) xs ys :=
        (List.forall₂_and_left xs ys).2 ⟨fun _ h => h, hitems⟩
      have hmembers : Forall₂ (fun x y => y ∈ ys ∧ x ∈ xs ∧ C.inner w x y) xs ys :=
        .flip ((List.forall₂_and_left ys xs).2 ⟨fun _ h => h, .flip hleft⟩)
      unfold Callbacks
      rw [List.forall₂_map_left_iff, List.forall₂_map_right_iff]
      refine (zipIdx_related hmembers 0).imp fun numbered numbered' h => ?_
      obtain ⟨x, index⟩ := numbered
      obtain ⟨y, index'⟩ := numbered'
      obtain ⟨⟨hy, hx, hxy⟩, rfl⟩ := h
      exact ⟨hxy, hcalls hcallable x hx y hy hxy index⟩
    · exact fail_coupled rfl rfl

/-- What is asked of functions for calls of them to be coupled. -/
structure Calls (C : Coupling W) : Prop where
  inner_of_outer : ∀ {w : W} {v v' : Value}, C.outer w v v' → C.inner w v v'
  body : ∀ {w : W} {tag tag' : Nat} {code code' : ArrowCode} {s t : Scope Value}
    {args others : List Value}, C.inner w (.closure tag code s) (.closure tag' code' t) →
      Forall₂ (C.inner w) args others →
        C.Coupled w C.outer
          (C.visit (s.extend (bindParams code.params args)) (.body code.span code.body))
          (C.visit' (t.extend (bindParams code'.params others)) (.body code'.span code'.body))
  receiver : ∀ {w : W} {tag tag' : Nat} {receiver other : Value} {m : Method},
    C.inner w (.method tag receiver m) (.method tag' other m) → C.inner w receiver other
  stray : ∀ {w : W} {tag tag' : Nat} {receiver other : Value} {m : Method},
    C.inner w (.method tag receiver m) (.method tag' other m) → C.StrayCoupled w m receiver other
  observed : ∀ {w : W} {callee called : Value} {args others : List Value} {call other : Eval Value},
    C.inner w callee called → Forall₂ (C.inner w) args others → C.Coupled w C.outer call other →
      C.Coupled w C.outer call (C.observer.onCall called others other)

/-- If nobody observes the calls, nothing is in place of a method that a receiver does not have. -/
theorem strayCoupled_of_silent (hobserver : C.observer = .silent) {m : Method}
    {receiver other : Value} (h : C.inner w receiver other) :
    C.StrayCoupled w m receiver other := by
  intro _
  have hfaults := C.faults_rejected m.name receiver.typeName
  rw [hobserver] at hfaults ⊢
  show C.Coupled w C.outer _ (Eval.fail (.unsupportedMethod m.name other.typeName))
  rw [← (C.resemblance w).typeName_eq h]
  exact .fail hfaults

/-- What is asked if nobody observes the calls. -/
theorem Calls.of_silent (hobserver : C.observer = .silent)
    (inner_of_outer : ∀ {w : W} {v v' : Value}, C.outer w v v' → C.inner w v v')
    (body : ∀ {w : W} {tag tag' : Nat} {code code' : ArrowCode} {s t : Scope Value}
      {args others : List Value}, C.inner w (.closure tag code s) (.closure tag' code' t) →
        Forall₂ (C.inner w) args others →
          C.Coupled w C.outer
            (C.visit (s.extend (bindParams code.params args)) (.body code.span code.body))
            (C.visit' (t.extend (bindParams code'.params others)) (.body code'.span code'.body)))
    (receiver : ∀ {w : W} {tag tag' : Nat} {receiver other : Value} {m : Method},
      C.inner w (.method tag receiver m) (.method tag' other m) → C.inner w receiver other) :
    C.Calls where
  inner_of_outer := inner_of_outer
  body := body
  receiver := receiver
  stray h := strayCoupled_of_silent hobserver (receiver h)
  observed _ _ h := by
    rw [hobserver]
    exact h

variable {callee called : Value} {args given : List Value}

/-- What a call does, if the calls that it makes itself are coupled, which are of callees and first
arguments with fewer values. -/
theorem callRule_coupled (hcalls : C.Calls) {inner inner' : Value → List Value → Eval Value}
    (hcallee : C.inner w callee called) (hargs : Forall₂ (C.inner w) args given)
    (hinner : ∀ w', w ≤ w' → ∀ {f f' as bs}, C.inner w' f f' → Forall₂ (C.inner w') as bs →
      f'.frameBound bs < called.frameBound given →
        C.Coupled w' C.outer (inner f as) (inner' f' bs)) :
    C.Coupled w C.outer (callee.callRule C.visit inner args)
      (C.observer.callRule C.visit' inner' called given) := by
  have hR := C.resemblance w
  have hvalues := hcallee
  have hfirst := hR.headD hargs
  cases hR.form hcallee with
  | closure => exact hcalls.body hcallee hargs
  | @method tag tag' receiver other m =>
    have hreceiver := hcalls.receiver hcallee
    have hstray := hcalls.stray hcallee
    cases hR.form hreceiver with
    | string text => exact applyToString_coupled m text hargs hstray
    | @list listTag listTag' xs ys _ hitems =>
      refine listMethod_coupled m hitems hfirst hstray
        fun hcallable x hx y hy hxy index w' hle => ?_
      -- A callback is called with items of the list, so it takes fewer frames.
      have hlists : Forall₂ (C.inner w') (callbackArgs x index (.list listTag xs))
          (callbackArgs y index (.list listTag' ys)) :=
        (C.resemblance w').callbackArgs (C.inner_mono hle hxy) (C.inner_mono hle hreceiver) index
      rw [hR.isCallable_eq hfirst] at hcallable
      exact (hinner w' hle (C.inner_mono hle hfirst) hlists
        (Value.frameBound_callback_lt hy hcallable index _)).imp fun _ _ _ _ =>
          hcalls.inner_of_outer
    | undefined | null | bool | number | record | closure | method =>
      exact hstray fun hallowed => by cases hallowed
  | undefined | null | bool | number | string | list | record =>
    simp only [Value.callRule, Observer.callRule, hR.typeName_eq hvalues]
    exact fail_coupled rfl rfl

/-- Related values called with related arguments. By induction on how many calls may be nested. -/
theorem call_coupled (hcalls : C.Calls) (hcallee : C.inner w callee called)
    (hargs : Forall₂ (C.inner w) args given) :
    C.Coupled w C.outer (callee.call C.visit args) (C.observer.call C.visit' called given) := by
  suffices hwithin : ∀ frames, called.frameBound given ≤ frames →
      C.Coupled w C.outer (callee.call C.visit args)
        (C.observer.callWithin C.visit' frames called given) from hwithin _ (Nat.le_refl _)
  intro frames hframes
  induction frames generalizing w callee called args given with
  | zero =>
    have hpos := called.frameBound_pos given
    omega
  | succ frames ih =>
    rw [Value.call_eq_callRule, Observer.callWithin]
    refine hcalls.observed hcallee hargs
      (callRule_coupled hcalls hcallee hargs fun w' _ f f' as bs hf has hlight => ?_)
    exact ih hf has (Nat.le_of_lt_succ (Nat.lt_of_lt_of_le hlight hframes))

end Coupling

end StaticConfig
