import Mathlib.Algebra.BigOperators.Intervals
import Mathlib.Data.Nat.Choose.Basic
import StaticConfig.Project.Resolve
import StaticConfig.Proofs.Evaluation.Frames
import StaticConfig.Proofs.Evaluation.Invariant
import StaticConfig.Proofs.Snippet
import StaticConfig.Proofs.Value.Levels

/-!
# How deep evaluations nest what they build

Every step builds one list, record or method around what the steps inside come to. So the limit on
nested steps bounds the levels of a value, as long as no arrow function is entered: an arrow
function builds its levels around its arguments, each time that it is called, and these calls need
not be nested in each other.

- `evaluateEntering`: evaluation that also refuses to nest more than so many arrow functions;
- `nesting`: the levels that some steps can build if they nest so many arrow functions;
- `evaluateEntering_within`: it bounds what a run builds, by induction on the steps that may still
  be nested;
- `Evaluator.levels_bounded`: the bounds for whole evaluations, and what conversions need;
- `Wrapping.entry_exceeds_limit`: a project with a value of twelve levels under the limit of ten.
-/

namespace StaticConfig

open Eval (Ensures)

/-! ### A limit on arrow functions -/

/-- How many arrow functions may still be entered inside a node that is entered itself. -/
def Node.arrowsInside? : Node → Nat → Option Nat
  | .body .., 0 => none
  | .body .., arrows + 1 => some arrows
  | _, arrows => some arrows

/-- Evaluates a node when `remaining` more steps may be nested, and stops as at that limit where
more than `arrows` arrow functions would be entered inside each other. -/
def evaluateEntering (definitions : Definitions) (limit : Nat) :
    (remaining arrows : Nat) → Scope Value → Node → Eval Value
  | 0, _, _, _ => Eval.fail (.recursionLimit limit)
  | remaining + 1, arrows, scope, node =>
    match node.arrowsInside? arrows with
    | none => Eval.fail (.recursionLimit limit)
    | some inside =>
      Eval.within node.span
        (evalNode definitions (evaluateEntering definitions limit remaining inside) scope node)

theorem evaluateEntering_succ (definitions : Definitions) (limit remaining : Nat)
    {arrows inside : Nat} {node : Node} (h : node.arrowsInside? arrows = some inside)
    (scope : Scope Value) :
    evaluateEntering definitions limit (remaining + 1) arrows scope node =
      Eval.within node.span (evalNode definitions
        (evaluateEntering definitions limit remaining inside) scope node) := by
  rw [evaluateEntering, h]

theorem run_evaluateEntering {definitions : Definitions} {limit remaining arrows inside : Nat}
    {scope : Scope Value} {node : Node} {trail : List Span} {supply after : Nat}
    {result : Except Fault Value} (span : Span) (hspan : node.span = span)
    (hinside : node.arrowsInside? arrows = some inside)
    (hnode : (evalNode definitions (evaluateEntering definitions limit remaining inside) scope
      node).run ⟨span :: trail, supply⟩ = (result, ⟨span :: trail, after⟩)) :
    (evaluateEntering definitions limit (remaining + 1) arrows scope node).run ⟨trail, supply⟩ =
      (result, ⟨trail, after⟩) := by
  rw [evaluateEntering_succ definitions limit remaining hinside, hspan]
  exact Eval.run_within_of hnode

/-- As many arrow functions as steps are no limit of their own. -/
theorem evaluateEntering_eq_evaluate (definitions : Definitions) (limit : Nat)
    {remaining arrows : Nat} (h : remaining ≤ arrows) :
    evaluateEntering definitions limit remaining arrows = evaluate definitions limit remaining := by
  induction remaining generalizing arrows with
  | zero => rfl
  | succ remaining ih =>
    obtain ⟨arrows, rfl⟩ := Nat.exists_eq_add_of_lt h
    funext scope node
    have hinside : ∃ inside, node.arrowsInside? (remaining + arrows + 1) = some inside ∧
        remaining ≤ inside := by
      cases node with
      | body => exact ⟨remaining + arrows, rfl, by omega⟩
      | expr | stmt | declares | declarator | unevaluable =>
        exact ⟨remaining + arrows + 1, rfl, by omega⟩
    obtain ⟨inside, hsome, hle⟩ := hinside
    rw [evaluateEntering_succ definitions limit remaining hsome, ih hle, evaluate]

/-! ### The bound -/

/-- The levels that `steps` nested steps build at most if they nest fewer than `k` arrow
functions. -/
def nesting (steps k : Nat) : Nat := ∑ i ∈ Finset.range k, steps.choose (i + 1)

theorem nesting_zero_left (k : Nat) : nesting 0 k = 0 :=
  Finset.sum_eq_zero fun i _ => Nat.choose_zero_succ i

/-- One more step builds one level, around what the steps inside come to, or around what an arrow
function builds around that. -/
theorem nesting_succ (steps k : Nat) :
    nesting (steps + 1) (k + 1) = nesting steps (k + 1) + nesting steps k + 1 := by
  calc ∑ i ∈ Finset.range (k + 1), (steps + 1).choose (i + 1)
      = ∑ i ∈ Finset.range (k + 1), (steps.choose i + steps.choose (i + 1)) :=
        Finset.sum_congr rfl fun i _ => Nat.choose_succ_succ steps i
    _ = ∑ i ∈ Finset.range (k + 1), steps.choose i + nesting steps (k + 1) :=
        Finset.sum_add_distrib
    _ = (nesting steps k + 1) + nesting steps (k + 1) := by
        rw [Finset.sum_range_succ', Nat.choose_zero_right, ← nesting]
    _ = nesting steps (k + 1) + nesting steps k + 1 := by omega

theorem nesting_le_succ (steps k : Nat) : nesting steps k ≤ nesting steps (k + 1) := by
  rw [nesting, nesting, Finset.sum_range_succ]
  exact Nat.le_add_right _ _

theorem nesting_lt_two_pow (steps k : Nat) : nesting steps k < 2 ^ steps := by
  induction steps generalizing k with
  | zero =>
    rw [nesting_zero_left]
    exact Nat.one_pos
  | succ steps ih =>
    cases k with
    | zero => exact Nat.two_pow_pos _
    | succ k =>
      have hmore := ih (k + 1)
      have hfewer := ih k
      rw [nesting_succ, Nat.pow_succ]
      omega

/-- Without arrow functions each step builds one level. -/
theorem nesting_one (steps : Nat) : nesting steps 1 = steps := by
  rw [nesting, Finset.sum_range_one, Nat.choose_one_right]

/-! ### Levels of what is built -/

/-- On any trail, a computation comes to values that nest at most `n` levels. -/
abbrev Eval.StaysWithin (n : Nat) (step : Eval Value) : Prop :=
  ∀ trail, Ensures (fun (_ : Timeless) _ => True) (fun _ => True) trail .always
    (fun _ v => v.Within n) step

namespace Eval.StaysWithin

variable {n m : Nat}

theorem mono {step : Eval Value} (h : step.StaysWithin n) (hle : n ≤ m) : step.StaysWithin m :=
  fun trail => (h trail).imp (fun _ hfault => hfault) fun _ _ hv => hv.mono hle

theorem fail (fault : Fault) : (Eval.fail fault : Eval Value).StaysWithin n :=
  fun _ supply _ => ⟨_, supply, .always, rfl, trivial, trivial, .error trivial⟩

theorem lift {result : Except Fault Value} (h : ∀ v, result = .ok v → v.Within n) :
    (liftExcept result : Eval Value).StaysWithin n := by
  cases result with
  | ok v => exact fun _ supply _ => ⟨_, supply, .always, rfl, trivial, trivial, .ok (h v rfl)⟩
  | error fault => exact fail fault

theorem within {step : Eval Value} (h : step.StaysWithin n) (span : Span) :
    (Eval.within span step).StaysWithin n := by
  intro trail supply hfits
  obtain ⟨result, after, w, hrun, hrest⟩ := h (span :: trail) supply hfits
  exact ⟨result, after, w, run_within_of hrun, hrest⟩

end Eval.StaysWithin

theorem Value.within_of_isPrimitive {v : Value} (h : v.isPrimitive = true) (n : Nat) :
    v.Within n :=
  primitive_cases .undefined .null .bool .number .string h

/-- Values of at most so many levels, inside and around. -/
def Knowledge.levels {inner outer : Nat} (h : inner < outer) : Knowledge Timeless where
  fits _ _ := True
  inner _ v := v.Within inner
  outer _ v := v.Within outer
  inner_mono _ hv := hv
  outer_of_inner hv := hv.mono (Nat.le_of_lt h)
  inner_primitive _ _ hv := Value.within_of_isPrimitive hv inner
  inner_items hv item hitem := by
    obtain ⟨k, rfl, hitems⟩ := hv.items
    exact (hitems item hitem).mono (Nat.le_succ k)
  inner_fields hv entry hentry := by
    obtain ⟨k, rfl, hfields⟩ := hv.fields
    exact (hfields entry hentry).mono (Nat.le_succ k)
  new_list _ hitems := ⟨.always, trivial, trivial, (Value.Within.list hitems).mono h⟩
  new_record _ _ hfields := ⟨.always, trivial, trivial, (Value.Within.record hfields).mono h⟩
  new_method _ _ hreceiver := ⟨.always, trivial, trivial, (Value.Within.method hreceiver).mono h⟩

/-- A step beside itself, with values of at most so many levels. -/
def levelsCoupling {inner outer : Nat} (h : inner < outer) (definitions : Definitions)
    (visit : Scope Value → Node → Eval Value) (trail : List Span) : Coupling Timeless :=
  (Knowledge.levels h).coupling (Fault.Blamed fun _ => True) (fun _ => ⟨rfl, trivial⟩)
    (fun _ => False) definitions visit visit trail trail

/-- Whether all that a scope binds nests at most so many levels. -/
def Scope.Within (n : Nat) (scope : Scope Value) : Prop :=
  ∀ frame ∈ scope.frames, ∀ binding ∈ frame, binding.2.Within n

theorem Scope.Within.mono {n m : Nat} {scope : Scope Value} (h : scope.Within n) (hle : n ≤ m) :
    scope.Within m :=
  fun frame hframe binding hbinding => (h frame hframe binding hbinding).mono hle

theorem Method.isPrimitive_applyToString {m : Method} {text : String} {args : List Value}
    {v : Value} (h : m.applyToString text args = .ok v) : v.isPrimitive = true := by
  cases m <;> cases h <;> rfl

section Calls

variable {visit : Scope Value → Node → Eval Value} {extra : Nat}

theorem Value.Within.callbackArgs {item : Value} {tag n : Nat} {items : List Value}
    (hitem : item.Within n) (hlist : (Value.list tag items).Within (n + 1)) (index : Nat) :
    ∀ arg ∈ callbackArgs item index (.list tag items), arg.Within (n + 1) := by
  have hlast : ∀ arg ∈ [Value.list tag items], arg.Within (n + 1) :=
    List.forall_mem_singleton.2 hlist
  exact List.forall_mem_cons.2 ⟨hitem.mono (Nat.le_succ n),
    List.forall_mem_cons.2 ⟨.number _, hlast⟩⟩

/-- A method of a list builds one level around what the callbacks come to. -/
theorem Value.callRule_list_within {inner : Value → List Value → Eval Value} {m : Method}
    {methodTag tag n : Nat} {items args : List Value} (hlist : (Value.list tag items).Within n)
    (hfirst : (args.headD .undefined).Within n)
    (hcalls : (args.headD .undefined).isCallable = true → ∀ item ∈ items, ∀ index,
      (inner (args.headD .undefined) (callbackArgs item index (.list tag items))).StaysWithin n) :
    (callRule visit inner (.method methodTag (.list tag items) m) args).StaysWithin (n + 1) := by
  intro trail
  let C := levelsCoupling (Nat.lt_succ_self n) .none visit trail
  have hitems : List.Forall₂ (C.inner .always) items items :=
    forall₂_same_iff.2 ⟨rfl, (Knowledge.levels (Nat.lt_succ_self n)).inner_items hlist⟩
  have hstray : C.StrayCoupled .always m (.list tag items) (.list tag items) :=
    Coupling.strayCoupled_of_silent rfl ⟨rfl, hlist⟩
  have hcallbacks : (args.headD .undefined).isCallable = true → ∀ x ∈ items, ∀ y ∈ items,
      C.inner .always x y → ∀ index w, Timeless.always ≤ w → C.Coupled w C.inner
        (inner (args.headD .undefined) (callbackArgs x index (.list tag items)))
        (inner (args.headD .undefined) (callbackArgs y index (.list tag items))) := by
    rintro hcallable item hitem _ - ⟨rfl, -⟩ index w -
    exact Eval.ensures_iff_coupled.1 (hcalls hcallable item hitem index trail)
  exact Eval.ensures_of_coupled (K := Knowledge.levels (Nat.lt_succ_self n))
    (Coupling.listMethod_coupled (C := C) m hitems ⟨rfl, hfirst⟩ hstray hcallbacks)
      fun _ _ _ h => h.2

/-- A call nests what the bodies of arrow functions build, and one level for the list that a method
makes, around the callee's parts and the arguments. The first argument of a callback is an item of a
list that is another argument, so it has one level less to spare. By induction on the values that
the callee and its first argument are made of, of which callbacks have fewer. -/
theorem Value.call_within
    (hbody : ∀ (n : Nat) (scope : Scope Value) (span : Span) (body : ArrowBody),
      scope.Within n → (visit scope (.body span body)).StaysWithin (n + extra))
    (callee : Value) (args : List Value) (c f : Nat) (hcallee : callee.Within c)
    (hfirst : (args.headD .undefined).Within f) (hargs : ∀ arg ∈ args, arg.Within (f + 1)) :
    (callee.call visit args).StaysWithin (max c (f + 1) + extra) := by
  induction hframes : callee.frameBound args using Nat.strongRecOn generalizing callee args c f with
  | _ frames ih =>
    subst hframes
    rw [call_eq_callRule]
    cases hcallee with
    | undefined | null | bool | number | string | list | record => exact .fail _
    | closure hscope =>
      rename_i _ code scope
      refine hbody _ _ _ _ (List.forall_mem_cons.2 ⟨?_, Scope.Within.mono hscope (le_max_left _ _)⟩)
      exact forall_mem_bindParams .undefined
        (fun arg harg => (hargs arg harg).mono (le_max_right _ _)) code.params
    | @method k methodTag receiver m hreceiver =>
      cases receiver with
      | undefined | null | bool | number | record | closure | method => exact .fail _
      | string text =>
        exact .lift fun _ h => within_of_isPrimitive (Method.isPrimitive_applyToString h) _
      | list tag items =>
        -- The items have one level less than the list, which the list of results takes up.
        obtain ⟨j, rfl, hitems⟩ := hreceiver.items
        refine Eval.StaysWithin.mono (n := max f (j + 1) + extra + 1) ?_ (by omega)
        refine callRule_list_within (hreceiver.mono (by omega)) (hfirst.mono (by omega)) ?_
        intro hcallable item hitem index
        have hgiven := (hitems item hitem).callbackArgs hreceiver index
        exact ih _ (frameBound_callback_lt hitem hcallable index _) _ _ f j hfirst
          (hitems item hitem) hgiven rfl

end Calls

/-! ### Levels of what rules build -/

section Rules

variable {definitions : Definitions} {visit : Scope Value → Node → Eval Value}
variable {bound inner : Nat} {scope : Scope Value} (hbound : bound ≤ inner)
variable (hscope : scope.Within bound)
variable (hvisit : ∀ {scope : Scope Value} (node : Node), scope.Within bound →
  (visit scope node).StaysWithin inner)

include hscope hvisit

theorem levelsCoupling_part {outer : Nat} (h : inner < outer) (trail : List Span) (node : Node) :
    (levelsCoupling h definitions visit trail).Settles .always scope scope (.part node) :=
  Coupling.Plain.part ⟨rfl, rfl⟩ (Eval.ensures_iff_coupled.1 (hvisit node hscope trail))

/-- Entering an arrow function builds nothing by itself. -/
theorem evalBody_within (span : Span) (body : ArrowBody) :
    (evalNode definitions visit scope (.body span body)).StaysWithin inner := by
  intro trail
  let C := levelsCoupling (Nat.lt_succ_self inner) definitions visit trail
  have hplain : C.Plain := ⟨rfl, rfl⟩
  refine Eval.ensures_iff_coupled.2 (hplain.evalBody_coupled (fun piece hpiece w _ => ?_) span)
  obtain ⟨node, rfl⟩ : ∃ node, piece = .part node := by
    cases body with
    | value => exact ⟨_, List.mem_singleton.1 hpiece⟩
    | block statements =>
      obtain ⟨statement, -, rfl⟩ := List.mem_map.1 hpiece
      exact ⟨_, rfl⟩
  exact levelsCoupling_part hscope hvisit _ trail node

include hbound

/-- Any other rule builds one level around what the steps inside come to, or what a call builds. -/
theorem evalNode_within {outer : Nat} (h : inner < outer)
    (hcall : ∀ (callee : Value) (args : List Value), callee.Within inner →
      (∀ arg ∈ args, arg.Within inner) → (callee.call visit args).StaysWithin outer) (node : Node) :
    (evalNode definitions visit scope node).StaysWithin outer := by
  intro trail
  let C := levelsCoupling h definitions visit trail
  have hplain : C.Plain := ⟨rfl, rfl⟩
  have hknown : scope.Within inner := hscope.mono hbound
  refine Eval.ensures_iff_coupled.2 (hplain.evalNode_coupled (fun _ _ _ _ _ => ⟨rfl, trivial⟩) ?_)
  intro piece _ hother w _
  cases piece with
  | part inner => exact levelsCoupling_part hscope hvisit h trail inner
  | name ident =>
    have hroot : Scope.root.Within bound := fun _ h => absurd h List.not_mem_nil
    have hlookup := Knowledge.OfScope.lookup? (K := Knowledge.levels h) (w := w) hknown ident.name
    exact hplain.name rfl hlookup fun node _ =>
      Eval.ensures_iff_coupled.1 (hvisit node hroot trail)
  | function body =>
    exact hplain.function fun span inner params _ => Knowledge.makes_same fun supply _ =>
      ⟨.always, trivial, trivial, .closure (hknown.mono (Nat.le_of_lt h))⟩
  | call =>
    rintro callee _ args others ⟨rfl, hcallee⟩ hargs
    obtain ⟨rfl, hknown⟩ := forall₂_same_iff.1 hargs
    have hsame : C.observer.call C.visit' = Value.call visit :=
      funext fun callee => funext fun args => Observer.silent_call visit callee args
    rw [hsame]
    exact Eval.ensures_iff_coupled.1 (hcall callee args hcallee hknown trail)
  | stop kind span => exact absurd rfl (hother kind span)

end Rules

section Evaluations

variable (definitions : Definitions) (limit : Nat)

/-- By induction on the steps that may still be nested. The body of an arrow function builds nothing
by itself, so what entering it adds are the levels of the steps inside, which may enter one arrow
function less. -/
theorem evaluateEntering_within (remaining arrows n : Nat) {scope : Scope Value}
    (hscope : scope.Within n) :
    (∀ node : Node, (evaluateEntering definitions limit remaining arrows scope node).StaysWithin
        (n + nesting remaining (arrows + 1))) ∧
      ∀ span body, (evaluateEntering definitions limit remaining arrows scope
        (.body span body)).StaysWithin (n + nesting remaining arrows) := by
  induction remaining generalizing arrows n scope with
  | zero => exact ⟨fun _ => .fail _, fun _ _ => .fail _⟩
  | succ remaining ih =>
    -- A body takes up one of the arrow functions that may still be entered.
    have hbody (span : Span) (body : ArrowBody) :
        (evaluateEntering definitions limit (remaining + 1) arrows scope
          (.body span body)).StaysWithin (n + nesting (remaining + 1) arrows) := by
      cases arrows with
      | zero => exact .fail _
      | succ arrows =>
        have hgrows := nesting_succ remaining arrows
        have hinside : (Node.body span body).arrowsInside? (arrows + 1) = some arrows := rfl
        rw [evaluateEntering_succ definitions limit remaining hinside]
        refine Eval.StaysWithin.within (Eval.StaysWithin.mono
          (evalBody_within hscope (fun node hscope => (ih arrows n hscope).1 node) span body) ?_) _
        omega
    -- Any other step leaves their number as it is.
    have hother {node : Node} (hinside : node.arrowsInside? arrows = some arrows) :
        (evaluateEntering definitions limit (remaining + 1) arrows scope node).StaysWithin
          (n + nesting (remaining + 1) (arrows + 1)) := by
      have hgrows := nesting_succ remaining arrows
      have hbound : n ≤ n + nesting remaining (arrows + 1) := Nat.le_add_right _ _
      have hinner :
          n + nesting remaining (arrows + 1) < n + nesting (remaining + 1) (arrows + 1) := by omega
      rw [evaluateEntering_succ definitions limit remaining hinside]
      have hinside {scope : Scope Value} (node : Node) (hscope : scope.Within n) :=
        (ih arrows n hscope).1 node
      refine Eval.StaysWithin.within (evalNode_within hbound hscope hinside hinner
        (fun callee args hcallee hargs => ?_) node) _
      have hfirst : (args.headD .undefined).Within (n + nesting remaining (arrows + 1)) := by
        cases args with
        | nil => exact .undefined
        | cons first rest => exact hargs first List.mem_cons_self
      have hcall := Value.call_within
        (fun m scope span body hscope => (ih arrows m hscope).2 span body) callee args _ _ hcallee
        hfirst fun arg harg => (hargs arg harg).mono (Nat.le_succ _)
      exact hcall.mono (by omega)
    refine ⟨fun node => ?_, hbody⟩
    cases node with
    | body span body => exact (hbody span body).mono (Nat.add_le_add_left (nesting_le_succ ..) n)
    | expr | stmt | declares | declarator | unevaluable => exact hother rfl

end Evaluations

/-! ### Whole evaluations -/

namespace Evaluator

variable (evaluator : Evaluator)

/-- Whether an evaluation from the root enters at most so many arrow functions inside each other: to
stop where it would enter one more makes no difference. -/
def EntersWithin (arrows : Nat) (node : Node) (supply : Nat) : Prop :=
  (evaluateEntering evaluator.definitions evaluator.limit evaluator.limit arrows .root node).run
      ⟨[], supply⟩ =
    (evaluator.eval .root node).run ⟨[], supply⟩

theorem levels_le_nesting {arrows supply : Nat} {node : Node} {v : Value}
    (harrows : evaluator.EntersWithin arrows node supply)
    (h : ((evaluator.eval .root node).run ⟨[], supply⟩).1 = .ok v) :
    v.levels ≤ nesting evaluator.limit (arrows + 1) := by
  have hroot : Scope.root.Within 0 := nofun
  have hwithin := (evaluateEntering_within evaluator.definitions evaluator.limit evaluator.limit
    arrows 0 hroot).1 node
  obtain ⟨result, after, _, hrun, -, -, hresult⟩ := hwithin [] supply trivial
  rw [harrows] at hrun
  rw [hrun] at h
  subst h
  cases hresult with
  | ok hvalue => exact Nat.zero_add (nesting ..) ▸ hvalue.levels_le

/-- **The limit and the levels of values.** A value that an evaluation from the root comes to nests
fewer levels than `2 ^ limit`, at most as many as the limit if no arrow function is entered, and in
between as many as the steps can build by the arrow functions that are entered inside each other.
Its conversions and comparisons nest one call for each of its levels. -/
theorem levels_bounded (node : Node) (supply : Nat) {v : Value}
    (h : ((evaluator.eval .root node).run ⟨[], supply⟩).1 = .ok v) :
    v.levels < 2 ^ evaluator.limit ∧
      (evaluator.EntersWithin 0 node supply → v.levels ≤ evaluator.limit) ∧
      (∀ arrows, evaluator.EntersWithin arrows node supply →
        v.levels ≤ ∑ i ∈ Finset.range (arrows + 1), evaluator.limit.choose (i + 1)) ∧
      ∀ calls, v.levels < calls →
        (∀ exceeded, v.displayWithin exceeded calls = v.display) ∧
          (∀ exceeded, v.json?Within exceeded calls = v.json?) ∧
          ∀ exceeded w, Value.strictEqualsWithin exceeded calls v w = v.strictEquals w := by
  refine ⟨?_, fun hnone => ?_, fun arrows harrows => evaluator.levels_le_nesting harrows h,
    fun calls => Value.conversions_within⟩
  · have hall : evaluator.EntersWithin evaluator.limit node supply := by
      rw [EntersWithin, evaluateEntering_eq_evaluate _ _ (Nat.le_refl _), eval]
    exact Nat.lt_of_le_of_lt (evaluator.levels_le_nesting hall h) (nesting_lt_two_pow ..)
  · exact nesting_one evaluator.limit ▸ evaluator.levels_le_nesting hnone h

end Evaluator

/-! ### A function that wraps its argument -/

namespace Wrapping

open Snippet (path place)

/-- A list of one item. -/
def packed (start stop : Nat) (item : Expr) : Expr :=
  .array (place start stop) [.item (.plain item)]

/-- A call of `wrap`. -/
def wrapped (start stop : Nat) (argument : Expr) : Expr :=
  .call (place start stop) (.value (.identifier ⟨"wrap", place start (start + 4)⟩))
    [.plain argument]

/-- The body of `wrap`, which builds four lists. -/
def wrapBody : ArrowBody :=
  let argument : Expr := .identifier ⟨"x", place 24 25⟩
  .value (packed 20 29 (packed 21 28 (packed 22 27 (packed 23 26 argument))))

/-- The declaration of `wrap`. -/
def wrap : Declarator :=
  .mk (place 6 29) (some "wrap") (some (.arrow (place 13 29) false [.name "x"] wrapBody))

/-- The declaration of `entry`, which calls `wrap` three times. -/
def entry : Declarator :=
  .mk (place 44 74) (some "entry")
    (some (wrapped 52 74 (wrapped 57 73 (wrapped 62 72 (.null (place 67 71))))))

/-- A project of the two declarations. -/
def project : Project :=
  let text := "const wrap = (x) => [[[[x]]]];\nexport const entry = wrap(wrap(wrap(null)));"
  Project.empty.add ⟨path "main.ts", text,
    ⟨[.statement (.declares (place 0 30) [wrap]), .exported (.declares (place 38 75) [entry])]⟩,
    []⟩ [] rfl

/-- A value in four lists, which were built one after the other. -/
def inFour (tag : Nat) (v : Value) : Value :=
  .list (tag + 3) [.list (tag + 2) [.list (tag + 1) [.list tag [v]]]]

/-- Twelve nested lists, built after the three functions. -/
def entryValue : Value := inFour 11 (inFour 7 (inFour 3 .null))

section Runs

variable {remaining arrows supply next : Nat} {scope : Scope Value} {trail : List Span}
variable {e : Expr} {v : Value}

theorem run_argument {visit : Scope Value → Node → Eval Value} {m after : Machine}
    (h : (visit scope (.expr e)).run m = (.ok v, after)) :
    (evalArgument visit scope (.plain e)).run m = (.ok [v], after) := by
  rw [evalArgument, Eval.run_bind, visitExpr, h]
  rfl

theorem run_packed (start stop : Nat)
    (h : (evaluateEntering project.definitions 10 remaining arrows scope (.expr e)).run
      ⟨place start stop :: trail, supply⟩ = (.ok v, ⟨place start stop :: trail, next⟩)) :
    (evaluateEntering project.definitions 10 (remaining + 1) arrows scope
      (.expr (packed start stop e))).run ⟨trail, supply⟩ =
        (.ok (.list next [v]), ⟨trail, next + 1⟩) := by
  have hitems : ([Element.item (.plain e)].mapM (evalElement (evaluateEntering project.definitions
      10 remaining arrows) scope)).run ⟨place start stop :: trail, supply⟩ =
        (.ok [[v]], ⟨place start stop :: trail, next⟩) := by
    rw [List.mapM_cons, Eval.run_bind, evalElement, run_argument h]
    rfl
  refine run_evaluateEntering (place start stop) rfl rfl ?_
  rw [packed, evalNode, evalExpr, Eval.run_bind, hitems]
  rfl

theorem run_wrapBody :
    (evaluateEntering project.definitions 10 (remaining + 6) (arrows + 1)
      (Scope.root.extend [("x", v)]) (.body (place 13 29) wrapBody)).run ⟨trail, next⟩ =
        (.ok (inFour next v), ⟨trail, next + 4⟩) := by
  have hargument {trail : List Span} :
      (evaluateEntering project.definitions 10 (remaining + 1) arrows
        (Scope.root.extend [("x", v)]) (.expr (.identifier ⟨"x", place 24 25⟩))).run
          ⟨trail, next⟩ = (.ok v, ⟨trail, next⟩) := rfl
  refine run_evaluateEntering (place 13 29) rfl rfl ?_
  rw [wrapBody, evalNode, visitExpr]
  exact run_packed 20 29 (run_packed 21 28 (run_packed 22 27 (run_packed 23 26 hargument)))

theorem run_wrapped (start stop : Nat)
    (h : (evaluateEntering project.definitions 10 (remaining + 6) (arrows + 1) .root
      (.expr e)).run ⟨place start stop :: trail, supply + 1⟩ =
        (.ok v, ⟨place start stop :: trail, next⟩)) :
    (evaluateEntering project.definitions 10 (remaining + 7) (arrows + 1) .root
      (.expr (wrapped start stop e))).run ⟨trail, supply⟩ =
        (.ok (inFour next v), ⟨trail, next + 4⟩) := by
  have hcallee : (evaluateEntering project.definitions 10 (remaining + 6) (arrows + 1) .root
      (.expr (.identifier ⟨"wrap", place start (start + 4)⟩))).run
        ⟨place start stop :: trail, supply⟩ =
          (.ok (.closure supply ⟨place 13 29, ["x"], wrapBody⟩ .root),
            ⟨place start stop :: trail, supply + 1⟩) := rfl
  have hargs : ([Argument.plain e].mapM (evalArgument (evaluateEntering project.definitions 10
      (remaining + 6) (arrows + 1)) .root)).run ⟨place start stop :: trail, supply + 1⟩ =
        (.ok [[v]], ⟨place start stop :: trail, next⟩) := by
    rw [List.mapM_cons, Eval.run_bind, run_argument h]
    rfl
  refine run_evaluateEntering (place start stop) rfl rfl ?_
  rw [wrapped, evalNode, evalExpr, run_evalCall hcallee hargs, Value.call_closure]
  exact run_wrapBody

end Runs

theorem run_entry (arrows : Nat) :
    (evaluateEntering project.definitions 10 10 (arrows + 1) .root (.declarator entry)).run
      ⟨[], 0⟩ = (.ok entryValue, ⟨[], 15⟩) := by
  refine run_evaluateEntering (place 44 74) rfl rfl ?_
  rw [entry, evalNode, Declarator.init?, evalInit, visitExpr]
  exact run_wrapped 52 74 (run_wrapped 57 73 (run_wrapped 62 72 rfl))

theorem eval_entry :
    (((project.evaluator 10).eval .root (.declarator entry)).run ⟨[], 0⟩).1 = .ok entryValue := by
  have hsame := evaluateEntering_eq_evaluate project.definitions 10 (Nat.le_refl 10)
  rw [Evaluator.eval, Project.evaluator, ← hsame, run_entry]

/-- The three calls are not made inside each other: only their arguments are. -/
theorem entersWithin_entry : (project.evaluator 10).EntersWithin 1 (.declarator entry) 0 := by
  have hsame := evaluateEntering_eq_evaluate project.definitions 10 (Nat.le_refl 10)
  rw [Evaluator.EntersWithin, Evaluator.eval, Project.evaluator, ← hsame, run_entry, run_entry]

theorem levels_bounded_entry :
    (((project.evaluator 10).eval .root (.declarator entry)).run ⟨[], 0⟩).1 = .ok entryValue ∧
      entryValue.levels < 2 ^ 10 ∧
      entryValue.levels ≤ ∑ i ∈ Finset.range 2, (10).choose (i + 1) := by
  have hbounds := (project.evaluator 10).levels_bounded (.declarator entry) 0 eval_entry
  exact ⟨eval_entry, hbounds.1, hbounds.2.2.1 1 entersWithin_entry⟩

theorem entry_exceeds_limit :
    (((project.evaluator 10).eval .root (.declarator entry)).run ⟨[], 0⟩).1 = .ok entryValue ∧
      entryValue.levels = 12 ∧ ¬ entryValue.levels ≤ (project.evaluator 10).limit := by
  have hlevels : entryValue.levels = 12 := by decide
  refine ⟨eval_entry, hlevels, ?_⟩
  rw [hlevels]
  decide

end Wrapping

end StaticConfig
