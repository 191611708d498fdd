import StaticConfig.Evaluation.Evaluate
import StaticConfig.Proofs.Snippet

/-!
# How many steps constants take

An expression without names, calls and choices takes as many nested steps as its tree is high: each
expression is one step, and everything else (keys that stand as they are, holes, `undefined` in
short) is read inside the step around it. So evaluation comes to its value exactly if the limit is
no lower than the height, and a lower limit is what it stops at.

- `Expr.operands`, `Expr.height`: the expressions evaluated inside one, and the height over them;
- `Eval.Needs`: a computation needs so many steps and depends on the limit in no other way. Of two
  computations in a row the whole needs the larger number (`Needs.bind`), and being a step of its
  own adds one (`Needs.step`);
- `Expr.IsConstant.measured`: what the rules need, by induction on the tree;
- `constant_depth`: the statement for whole evaluations.
-/

namespace StaticConfig

/-! ### Height -/

/-- The expression in a chunk. -/
def Chunk.operand : Chunk → Expr
  | .mk e _ => e

/-- The expressions that are evaluated for an element. -/
def Element.operands : Element → List Expr
  | .hole => []
  | .item (.plain e) | .item (.spread e) => [e]

/-- The expressions that are evaluated for a key. -/
def PropertyKey.operands : PropertyKey → List Expr
  | .computed key => [key]
  | .fixed _ | .number _ | .bigInt _ => []

/-- The expressions that are evaluated for a member. -/
def Member.operands : Member → List Expr
  | .entry key e => key.operands ++ [e]
  | .spread e => [e]
  | .shorthand _ | .other .. => []

/-- The expressions that are evaluated inside a literal or an operation. -/
def Expr.operands : Expr → List Expr
  | .template _ _ chunks => chunks.map Chunk.operand
  | .array _ elements => elements.flatMap Element.operands
  | .object _ members => members.flatMap Member.operands
  | .binary _ _ left right => [left, right]
  | .unary _ _ operand => [operand]
  | .wrapped _ _ inner => [inner]
  | _ => []

theorem Element.sizeOf_operand_lt {element : Element} {e : Expr} (h : e ∈ element.operands) :
    sizeOf e < sizeOf element := by
  match element with
  | .item (.plain _) | .item (.spread _) =>
    obtain rfl := List.mem_singleton.1 h
    simp only [item.sizeOf_spec, Argument.plain.sizeOf_spec, Argument.spread.sizeOf_spec]
    omega

theorem PropertyKey.sizeOf_operand_lt {key : PropertyKey} {e : Expr} (h : e ∈ key.operands) :
    sizeOf e < sizeOf key := by
  cases key with
  | computed _ =>
    obtain rfl := List.mem_singleton.1 h
    rw [computed.sizeOf_spec]
    omega
  | fixed | number | bigInt => cases h

theorem Member.sizeOf_operand_lt {member : Member} {e : Expr} (h : e ∈ member.operands) :
    sizeOf e < sizeOf member := by
  match member with
  | .entry key value =>
    rw [entry.sizeOf_spec]
    rcases List.mem_append.1 h with hkey | hvalue
    · have := key.sizeOf_operand_lt hkey
      omega
    · obtain rfl := List.mem_singleton.1 hvalue
      omega
  | .spread _ =>
    obtain rfl := List.mem_singleton.1 h
    rw [spread.sizeOf_spec]
    omega

theorem Expr.sizeOf_operand_lt {e operand : Expr} (h : operand ∈ e.operands) :
    sizeOf operand < sizeOf e := by
  cases e with
  | template _ _ chunks =>
    obtain ⟨⟨_, _⟩, hmem, rfl⟩ := List.mem_map.1 h
    have hchunk := List.sizeOf_lt_of_mem hmem
    simp only [Chunk.mk.sizeOf_spec, Chunk.operand, template.sizeOf_spec] at hchunk ⊢
    omega
  | array _ elements =>
    obtain ⟨element, hmem, h⟩ := List.mem_flatMap.1 h
    have helement := List.sizeOf_lt_of_mem hmem
    have := element.sizeOf_operand_lt h
    rw [array.sizeOf_spec]
    omega
  | object _ members =>
    obtain ⟨member, hmem, h⟩ := List.mem_flatMap.1 h
    have hmember := List.sizeOf_lt_of_mem hmem
    have := member.sizeOf_operand_lt h
    rw [object.sizeOf_spec]
    omega
  | binary _ _ left right =>
    simp only [operands, List.mem_cons, List.not_mem_nil, or_false] at h
    rw [binary.sizeOf_spec]
    obtain rfl | rfl := h <;> omega
  | unary _ _ inner | wrapped _ _ inner =>
    obtain rfl := List.mem_singleton.1 h
    simp only [unary.sizeOf_spec, wrapped.sizeOf_spec]
    omega
  | string | number | bool | null | identifier | access | call | arrow | conditional | other =>
    cases h

/-- An expression is one higher than the highest of those evaluated inside it. -/
def Expr.height (e : Expr) : Nat :=
  (e.operands.attach.map fun operand => operand.val.height).foldr max 0 + 1
termination_by sizeOf e
decreasing_by exact Expr.sizeOf_operand_lt operand.property

/-- The height of the highest of some expressions. -/
def tallest (es : List Expr) : Nat := (es.map Expr.height).foldr max 0

theorem Expr.height_eq (e : Expr) : e.height = tallest e.operands + 1 := by
  rw [Expr.height, tallest, List.attach_map_val]

@[simp] theorem tallest_nil : tallest [] = 0 := rfl

@[simp] theorem tallest_cons (e : Expr) (es : List Expr) :
    tallest (e :: es) = max e.height (tallest es) := rfl

@[simp] theorem tallest_append (es others : List Expr) :
    tallest (es ++ others) = max (tallest es) (tallest others) := by
  induction es with
  | nil => simp
  | cons e es ih => rw [List.cons_append, tallest_cons, tallest_cons, ih, Nat.max_assoc]

/-! ### Constants -/

/-- Whether the member is one of an object literal whose evaluation looks no name up. -/
def Member.isConstant : Member → Bool
  | .entry (.bigInt _) _ | .other .. => false
  | .entry .. | .spread _ => true
  | .shorthand ident => ident.name = "undefined"

/-- Whether the form is a literal or an operation whose evaluation looks no name up, calls nothing
and leaves nothing out. -/
def Expr.hasConstantForm : Expr → Bool
  | .string .. | .number .. | .bool .. | .null _ | .template .. | .array .. | .wrapped .. => true
  | .object _ members => members.all Member.isConstant
  | .identifier ident => ident.name = "undefined"
  | .binary _ op _ _ => op = .strictEqual
  | .unary _ op _ => op.isSupported
  | .access .. | .call .. | .arrow .. | .conditional .. | .other .. => false

/-- Constants: the form is constant, here and in everything that is evaluated inside. -/
inductive Expr.IsConstant : Expr → Prop
  | intro {e : Expr} (form : e.hasConstantForm = true)
      (operands : ∀ operand ∈ e.operands, operand.IsConstant) : e.IsConstant

/-! ### Steps that are needed -/

namespace Eval

variable {α β : Type}

/-- The computation needs `height` more nested steps: if it comes to a value under some limit, then
it comes to that value under every limit that leaves so many steps, and stops at the limit under
every other. The computation is given for every limit and number of steps left. -/
def Needs (height : Nat) (step : Nat → Nat → Eval α) : Prop :=
  ∀ ⦃limit remaining supply : Nat⦄ ⦃trail : List Span⦄ ⦃a : α⦄ ⦃after : Machine⦄,
    (step limit remaining).run ⟨trail, supply⟩ = (.ok a, after) →
    ∀ (limit remaining : Nat) (trail : List Span),
      (height ≤ remaining →
        (step limit remaining).run ⟨trail, supply⟩ = (.ok a, ⟨trail, after.supply⟩)) ∧
      (remaining < height →
        ((step limit remaining).run ⟨trail, supply⟩).1 = .error (.recursionLimit limit))

/-- A run that came to a value had the steps it needs, and came back to its trail. -/
theorem Needs.of_run {height : Nat} {step : Nat → Nat → Eval α} (h : Needs height step)
    {limit remaining supply : Nat} {trail : List Span} {a : α} {after : Machine}
    (hrun : (step limit remaining).run ⟨trail, supply⟩ = (.ok a, after)) :
    height ≤ remaining ∧ after = ⟨trail, after.supply⟩ := by
  obtain ⟨henough, hshort⟩ := h hrun limit remaining trail
  rw [hrun] at henough hshort
  have hle : height ≤ remaining := Nat.le_of_not_lt fun hlt => nomatch hshort hlt
  exact ⟨hle, congrArg Prod.snd (henough hle)⟩

theorem Needs.pure (a : α) : Needs 0 fun _ _ => (Pure.pure a : Eval α) := by
  intro _ _ supply _ b after h limit remaining trail
  cases h
  exact ⟨fun _ => rfl, nofun⟩

theorem Needs.fresh : Needs 0 fun _ _ => Eval.fresh := by
  intro _ _ supply _ tag after h limit remaining trail
  cases h
  exact ⟨fun _ => rfl, nofun⟩

theorem Needs.fail (height : Nat) (fault : Fault) :
    Needs height fun _ _ => (Eval.fail fault : Eval α) := by
  intro _ _ _ _ _ _ h
  cases h

theorem Needs.lift (result : Except Fault α) : Needs 0 fun _ _ => liftExcept result := by
  cases result with
  | ok a => exact Needs.pure a
  | error fault => exact Needs.fail 0 fault

/-- Both parts run under the same limit with the same steps left, so the larger need decides. -/
theorem Needs.bind {height other : Nat} {step : Nat → Nat → Eval α}
    {next : α → Nat → Nat → Eval β} (h : Needs height step) (hnext : ∀ a, Needs other (next a)) :
    Needs (max height other) fun limit remaining =>
      step limit remaining >>= fun a => next a limit remaining := by
  intro limit₀ remaining₀ supply trail₀ b after hrun limit remaining trail
  dsimp only at hrun ⊢
  rcases hfirst : (step limit₀ remaining₀).run ⟨trail₀, supply⟩ with ⟨result, between⟩
  cases result with
  | error fault =>
    rw [run_bind_error hfirst] at hrun
    cases hrun
  | ok a =>
    rw [run_bind_ok hfirst] at hrun
    obtain ⟨henough, hshort⟩ := h hfirst limit remaining trail
    obtain ⟨henough', hshort'⟩ := hnext a hrun limit remaining trail
    refine ⟨fun hle => ?_, fun hlt => ?_⟩
    · rw [run_bind_ok (henough (by omega))]
      exact henough' (by omega)
    · -- The first part that does not fit stops the run; if it is the second, the first one ran.
      by_cases hfits : height ≤ remaining
      · rw [run_bind_ok (henough hfits)]
        exact hshort' (by omega)
      · have hstop := hshort (by omega)
        rcases hrun' : (step limit remaining).run ⟨trail, supply⟩ with ⟨result, stopped⟩
        rw [hrun'] at hstop
        cases hstop
        rw [run_bind_error hrun']

/-- What follows may need nothing. -/
theorem Needs.andThen {height : Nat} {step : Nat → Nat → Eval α} (h : Needs height step)
    {next : α → Eval β} (hnext : ∀ a, Needs 0 fun _ _ => next a) :
    Needs height fun limit remaining => step limit remaining >>= next := by
  have hboth := h.bind hnext
  rwa [Nat.max_zero] at hboth

theorem Needs.mapM {f : Nat → Nat → α → Eval β} {operands : α → List Expr} {as : List α}
    (h : ∀ a ∈ as, Needs (tallest (operands a)) fun limit remaining => f limit remaining a) :
    Needs (tallest (as.flatMap operands)) fun limit remaining => as.mapM (f limit remaining) := by
  induction as with
  | nil => exact Needs.pure []
  | cons a as ih =>
    obtain ⟨hfirst, hrest⟩ := List.forall_mem_cons.1 h
    rw [List.flatMap_cons, tallest_append]
    simp only [List.mapM_cons]
    exact hfirst.bind fun b => (ih hrest).andThen fun bs => Needs.pure _

theorem Needs.foldlM {f : Nat → Nat → β → α → Eval β} {operands : α → List Expr} {as : List α}
    (h : ∀ a ∈ as, ∀ b, Needs (tallest (operands a)) fun limit remaining => f limit remaining b a)
    (start : β) :
    Needs (tallest (as.flatMap operands)) fun limit remaining =>
      as.foldlM (f limit remaining) start := by
  induction as generalizing start with
  | nil => exact Needs.pure start
  | cons a as ih =>
    obtain ⟨hfirst, hrest⟩ := List.forall_mem_cons.1 h
    rw [List.flatMap_cons, tallest_append]
    simp only [List.foldlM_cons]
    exact (hfirst start).bind fun next => ih hrest next

end Eval

open Eval (Needs)

/-- A step of its own is one more. -/
theorem evaluate_needs {definitions : Definitions} {scope : Scope Value} {node : Node}
    {height : Nat} (h : Needs height fun limit remaining =>
      evalNode definitions (evaluate definitions limit remaining) scope node) :
    Needs (height + 1) fun limit remaining => evaluate definitions limit remaining scope node := by
  intro limit₀ remaining₀ supply trail₀ v after hrun limit remaining trail
  cases remaining₀ with
  | zero => cases hrun
  | succ remaining₀ =>
    change (Eval.within node.span _).run _ = _ at hrun
    rw [Eval.run_within] at hrun
    rcases hnode : (evalNode definitions (evaluate definitions limit₀ remaining₀) scope node).run
      ⟨node.span :: trail₀, supply⟩ with ⟨result, inside⟩
    rw [hnode] at hrun
    cases hrun
    cases remaining with
    | zero => exact ⟨nofun, fun _ => rfl⟩
    | succ remaining =>
      obtain ⟨henough, hshort⟩ := h hnode limit remaining (node.span :: trail)
      refine ⟨fun hle => Eval.run_within_of (henough (by omega)), fun hlt => ?_⟩
      change ((Eval.within node.span _).run _).1 = _
      rw [Eval.run_within]
      exact hshort (by omega)

/-! ### What the rules need -/

section Rules

variable {definitions : Definitions} {scope : Scope Value}

/-- The expression needs as many steps as its height. -/
def Expr.Measured (definitions : Definitions) (scope : Scope Value) (e : Expr) : Prop :=
  Needs e.height fun limit remaining =>
    visitExpr (evaluate definitions limit remaining) scope e

theorem evalChunks_needs {chunks : List Chunk}
    (h : ∀ e ∈ chunks.map Chunk.operand, e.Measured definitions scope) (text : String) :
    Needs (tallest (chunks.map Chunk.operand)) fun limit remaining =>
      evalChunks (evaluate definitions limit remaining) scope text chunks := by
  induction chunks generalizing text with
  | nil => exact Needs.pure text
  | cons chunk chunks ih =>
    obtain ⟨e, next⟩ := chunk
    obtain ⟨hfirst, hrest⟩ := List.forall_mem_cons.1 h
    exact hfirst.bind fun value => ih hrest _

theorem evalElement_needs {element : Element}
    (h : ∀ e ∈ element.operands, e.Measured definitions scope) :
    Needs (tallest element.operands) fun limit remaining =>
      evalElement (evaluate definitions limit remaining) scope element := by
  match element with
  | .hole => exact Needs.pure _
  | .item (.plain e) => exact (List.forall_mem_singleton.1 h).bind fun v => Needs.pure _
  | .item (.spread e) =>
    refine (List.forall_mem_singleton.1 h).bind fun v => ?_
    cases v with
    | list tag items => exact Needs.pure items
    | undefined | null | bool | number | string | record | closure | method =>
      exact Needs.fail 0 _

theorem evalKey_needs {key : PropertyKey}
    (h : ∀ e ∈ key.operands, e.Measured definitions scope) :
    Needs (tallest key.operands) fun limit remaining =>
      evalKey definitions (evaluate definitions limit remaining) scope key := by
  cases key with
  | fixed name => exact Needs.pure name
  | number value => exact Needs.pure _
  | computed key => exact (List.forall_mem_singleton.1 h).bind fun v => Needs.pure _
  | bigInt span =>
    intro _ _ _ _ _ _ hrun
    cases hrun

theorem evalMember_needs {member : Member} (hconstant : member.isConstant = true)
    (h : ∀ e ∈ member.operands, e.Measured definitions scope) (fields : Record Value) :
    Needs (tallest member.operands) fun limit remaining =>
      evalMember definitions (evaluate definitions limit remaining) scope fields member := by
  cases member with
  | entry key e =>
    obtain ⟨hkey, he⟩ := List.forall_mem_append.1 h
    rw [Member.operands, tallest_append]
    exact (evalKey_needs hkey).bind fun name =>
      (List.forall_mem_singleton.1 he).bind fun v => Needs.pure _
  | shorthand ident =>
    have hname : ident.name = "undefined" := of_decide_eq_true hconstant
    simp only [evalMember, evalName, if_pos hname]
    exact Needs.pure _
  | spread e =>
    refine (List.forall_mem_singleton.1 h).bind fun v => ?_
    cases v with
    | record tag other => exact Needs.pure _
    | undefined | null | bool | number | string | list | closure | method =>
      exact Needs.fail 0 _
  | other => cases hconstant

theorem evalExpr_needs {e : Expr} (hform : e.hasConstantForm = true)
    (h : ∀ operand ∈ e.operands, operand.Measured definitions scope) :
    Needs (tallest e.operands) fun limit remaining =>
      evalExpr definitions (evaluate definitions limit remaining) scope e := by
  cases e with
  | string | number | bool | null => exact Needs.pure _
  | template span head chunks => exact (evalChunks_needs h head).andThen fun text => Needs.pure _
  | array span elements =>
    have hitems : ∀ element ∈ elements, Needs (tallest element.operands) fun limit remaining =>
        evalElement (evaluate definitions limit remaining) scope element :=
      fun element helement => evalElement_needs fun e he =>
        h e (List.mem_flatMap.2 ⟨element, helement, he⟩)
    exact (Needs.mapM hitems).andThen fun items => Needs.fresh.andThen fun tag => Needs.pure _
  | object span members =>
    have hfields : ∀ member ∈ members, ∀ fields, Needs (tallest member.operands)
        fun limit remaining =>
          evalMember definitions (evaluate definitions limit remaining) scope fields member :=
      fun member hmember => evalMember_needs (List.all_eq_true.1 hform member hmember) fun e he =>
        h e (List.mem_flatMap.2 ⟨member, hmember, he⟩)
    exact (Needs.foldlM hfields .empty).andThen fun fields =>
      Needs.fresh.andThen fun tag => Needs.pure _
  | identifier ident =>
    have hname : ident.name = "undefined" := of_decide_eq_true hform
    simp only [evalExpr, evalName, if_pos hname]
    exact Needs.pure _
  | binary span op left right =>
    obtain rfl : op = .strictEqual := of_decide_eq_true hform
    obtain ⟨hleft, hright⟩ := List.forall_mem_cons.1 h
    exact hleft.bind fun left => (List.forall_mem_singleton.1 hright).bind fun right => Needs.pure _
  | unary span op operand =>
    have hop : op.isSupported = true := hform
    simp only [evalExpr, evalUnary, if_pos hop]
    exact (List.forall_mem_singleton.1 h).bind fun v => Needs.lift _
  | wrapped span wrapper inner =>
    rw [Expr.operands, tallest_cons, tallest_nil, Nat.max_zero]
    exact (List.forall_mem_singleton (p := (Expr.Measured definitions scope ·))).1 h
  | access | call | arrow | conditional | other => cases hform

end Rules

theorem Expr.IsConstant.measured {definitions : Definitions} {scope : Scope Value} {e : Expr}
    (h : e.IsConstant) : e.Measured definitions scope := by
  -- The rules ask of the operands what is shown of the whole, whatever limit the run that came to a
  -- value had.
  induction h with
  | @intro e hform _ ih =>
    unfold Expr.Measured
    rw [Expr.height_eq]
    exact evaluate_needs (evalExpr_needs hform ih)

/-! ### Whole evaluations -/

/-- **Constants take as many steps as they are high.** If a constant evaluates to a value under some
limit, then a limit makes it fail exactly if it is below the height, and with nothing but that
limit; otherwise the value is the same. As the initializer of a variable that is itself evaluated,
it takes one step more. -/
theorem constant_depth (definitions : Definitions) (scope : Scope Value) {e : Expr}
    (he : e.IsConstant) {bound supply : Nat} {v : Value} {after : Machine}
    (h : ((⟨definitions, bound⟩ : Evaluator).eval scope (.expr e)).run ⟨[], supply⟩ =
      (.ok v, after)) (limit : Nat) :
    let run := fun node => ((⟨definitions, limit⟩ : Evaluator).eval scope node).run ⟨[], supply⟩
    (e.height ≤ limit → run (.expr e) = (.ok v, after)) ∧
    (limit < e.height → (run (.expr e)).1 = .error (.recursionLimit limit)) ∧
    ∀ declarator : Declarator, declarator.init? = some e →
      (e.height + 1 ≤ limit → run (.declarator declarator) = (.ok v, after)) ∧
      (limit < e.height + 1 →
        (run (.declarator declarator)).1 = .error (.recursionLimit limit)) := by
  intro run
  have hneeds : e.Measured definitions scope := he.measured
  obtain ⟨hbound, hafter⟩ := hneeds.of_run h
  obtain ⟨henough, hshort⟩ := hneeds h limit limit []
  rw [← hafter] at henough
  refine ⟨henough, hshort, fun declarator hinit => ?_⟩
  have hnode : Needs e.height fun limit remaining =>
      evalNode definitions (evaluate definitions limit remaining) scope
        (.declarator declarator) := by
    simp only [evalNode, hinit]
    exact hneeds
  -- With one step more the initializer runs as `e` does, below the step of the variable.
  have hinner := (hneeds h bound bound [declarator.span]).1 hbound
  have hvariable : (evaluate definitions bound (bound + 1) scope (.declarator declarator)).run
      ⟨[], supply⟩ = (.ok v, ⟨[], after.supply⟩) := by
    refine Eval.run_within_of ?_
    rw [evalNode, hinit]
    exact hinner
  rw [hafter]
  exact evaluate_needs hnode hvariable limit limit []

namespace Nested

/-- Where the literal stands. -/
def whole : Span := Snippet.place 0 1

/-- `{ ["a"]: [, -1] }`. -/
def literal : Expr :=
  .object whole [.entry (.computed (.string whole "a"))
    (.array whole [.hole, .item (.plain (.unary whole .minus (.number whole (.ofNat 1))))])]

theorem literal_isConstant : literal.IsConstant := by
  refine .intro rfl (List.forall_mem_cons.2 ⟨.intro rfl nofun, List.forall_mem_singleton.2 ?_⟩)
  refine .intro rfl (List.forall_mem_singleton.2 (.intro rfl (List.forall_mem_singleton.2 ?_)))
  exact .intro rfl nofun

/-- The literal takes four steps: its own, and those of the list, the operation and the number. As
the initializer of a variable it takes five. -/
theorem constant_depth_nested :
    let run := fun (limit : Nat) (node : Node) =>
      ((⟨.none, limit⟩ : Evaluator).eval .root node).run ⟨[], 0⟩
    let declared := Node.declarator (.mk whole (some "x") (some literal))
    literal.IsConstant ∧ literal.height = 4 ∧
      ∃ v after, run 9 (.expr literal) = (.ok v, after) ∧ run 4 (.expr literal) = (.ok v, after) ∧
        (run 3 (.expr literal)).1 = .error (.recursionLimit 3) ∧
        run 5 declared = (.ok v, after) ∧ (run 4 declared).1 = .error (.recursionLimit 4) := by
  intro run declared
  have hheight : literal.height = 4 := by
    simp [literal, Expr.height_eq, Expr.operands, Member.operands, PropertyKey.operands,
      Element.operands]
  obtain ⟨v, after, hrun⟩ : ∃ v after, run 9 (.expr literal) = (.ok v, after) := ⟨_, _, rfl⟩
  have hdepth := constant_depth .none .root literal_isConstant hrun
  rw [hheight] at hdepth
  exact ⟨literal_isConstant, hheight, v, after, hrun, (hdepth 4).1 (by decide),
    (hdepth 3).2.1 (by decide), ((hdepth 5).2.2 _ rfl).1 (by decide),
    ((hdepth 4).2.2 _ rfl).2 (by decide)⟩

end Nested

end StaticConfig
