import StaticConfig.Proofs.Evaluation.Account
import StaticConfig.Proofs.Evaluation.Session

/-!
# Tracebacks

Where a run was when it stopped at a form that cannot be evaluated: the steps that were active, each
one reached from the step around it, which is a form around it, the call of a function or the
occurrence of a name. The trail only holds their spans; a traceback says what they are steps of.

- `LeadsTo`: how one step comes directly to another one;
- `Traceback`: active steps that all end in the same fault, down to the form that it is about;
- `Evaluator.answer_traced`: every fault about a form has a traceback from what the evaluator was
  asked for, and is worded by the spans of its steps. It is shown for all steps at once by induction
  on the steps that may still be nested; `evalNode_ends` is what a single step does.
-/

namespace StaticConfig

/-! ### Active steps -/

/-- How a step is come to. -/
inductive Via
  /-- It was asked for. -/
  | asked
  /-- It is the step of a form in the form around. -/
  | part
  /-- It is the step of the body of a function that is called. -/
  | called
  /-- It is the step of the declaration that a name in the form around refers to. -/
  | candidate
deriving DecidableEq

/-- A step of a run: how it is come to, what it evaluates, and the supply that it starts with. -/
structure ActiveStep where
  via : Via
  scope : Scope Value
  node : Node
  supply : Nat

namespace ActiveStep

/-- The place of the step on the trail. -/
def span (step : ActiveStep) : Span := step.node.span

/-- Whether the step ends in a fault if it is entered on a trail. -/
def EndsIn (definitions : Definitions) (limit : Nat) (fault : Fault) (trail : List Span)
    (step : ActiveStep) : Prop :=
  ∃ after, (evaluate definitions limit (limit - trail.length) step.scope step.node).run
    ⟨trail, step.supply⟩ = (.error fault, ⟨trail, after⟩)

/-- Whether the step is that of a declaration which as a whole is no form to be evaluated. -/
def IsRejectedCandidate (step : ActiveStep) : Prop :=
  step.via = .candidate ∧ step.node.rejection?.isSome = true

instance (step : ActiveStep) : Decidable step.IsRejectedCandidate :=
  inferInstanceAs (Decidable (_ ∧ _))

end ActiveStep

/-- How a step comes directly to another one. -/
inductive LeadsTo (definitions : Definitions) : ActiveStep → ActiveStep → Prop
  | part {outer : ActiveStep} {node : Node} {supply : Nat} :
      .part node ∈ outer.node.pieces →
      LeadsTo definitions outer ⟨.part, outer.scope, node, supply⟩
  | called {outer : ActiveStep} {code : ArrowCode} {scope : Scope Value} {args : List Value}
      {supply : Nat} :
      .call ∈ outer.node.pieces →
      LeadsTo definitions outer
        ⟨.called, scope.extend (bindParams code.params args), .body code.span code.body, supply⟩
  | candidate {outer : ActiveStep} {ident : Ident} {node : Node} {supply : Nat} :
      .name ident ∈ outer.node.pieces → node ∈ (definitions.candidates ident).head? →
      LeadsTo definitions outer ⟨.candidate, .root, node, supply⟩

/-- A fault that is about the form `span`: the step that stopped there, and the steps around it that
were active then, the outermost first. All of them end in the fault. -/
inductive Traceback (definitions : Definitions) (limit : Nat) (fault : Fault) (kind : Kind)
    (span : Span) : (trail : List Span) → (around : List ActiveStep) → (failing : ActiveStep) → Prop
  | here {trail : List Span} {failing : ActiveStep} :
      failing.EndsIn definitions limit fault trail → failing.node.Rejects kind span →
      fault = definitions.constructFault kind span (failing.span :: trail) →
      Traceback definitions limit fault kind span trail [] failing
  | inside {trail : List Span} {outer failing : ActiveStep} {around : List ActiveStep} :
      outer.EndsIn definitions limit fault trail →
      LeadsTo definitions outer (around.headD failing) →
      Traceback definitions limit fault kind span (outer.span :: trail) around failing →
      Traceback definitions limit fault kind span trail (outer :: around) failing

/-! ### Nodes that belong together -/

/-- Whether evaluation never leaves some nodes. -/
structure Definitions.Closed (definitions : Definitions) (nodes : Node → Prop) : Prop where
  part : ∀ {node inner : Node}, nodes node → .part inner ∈ node.pieces → nodes inner
  function : ∀ {node body : Node}, nodes node → .function body ∈ node.pieces → nodes body
  candidate : ∀ {node inner : Node} {ident : Ident}, nodes node → .name ident ∈ node.pieces →
    inner ∈ definitions.candidates ident → nodes inner

/-- Whether a fault is about a form that cannot be evaluated. -/
def Fault.isAboutForm : Fault → Bool
  | .unsupportedConstruct .. => true
  | _ => false

theorem Fault.isAboutForm_of_isLocal {fault : Fault} (h : fault.isLocal = true) :
    fault.isAboutForm = false := by
  cases fault with
  | unsupportedConstruct => cases h
  | _ => rfl

section

variable (definitions : Definitions) (limit : Nat) (nodes : Node → Prop)

/-- Whether a fault has a traceback that begins with a step, all within some nodes. -/
def Traced (trail : List Span) (fault : Fault) (first : ActiveStep) : Prop :=
  ∃ kind span around failing, around.headD failing = first ∧
    Traceback definitions limit fault kind span trail around failing ∧
    nodes failing.node ∧ ∀ step ∈ around, nodes step.node

/-- Whether a fault in which the step of a node ends has a traceback, if it is about a form. -/
def TracedFrom (trail : List Span) (scope : Scope Value) (node : Node) (fault : Fault) : Prop :=
  fault.isAboutForm = true →
    ∃ supply, ∀ via, Traced definitions limit nodes trail fault ⟨via, scope, node, supply⟩

/-- What the rule of a node stops at, if the fault is about a form: a form of the node itself, or
what a step stops at that the node leads to. -/
def TracedInside (trail : List Span) (scope : Scope Value) (node : Node) (fault : Fault) : Prop :=
  fault.isAboutForm = true →
    (∃ kind span, node.Rejects kind span ∧
      fault = definitions.constructFault kind span (node.span :: trail)) ∨
    ∃ inner, (∀ via supply, LeadsTo definitions ⟨via, scope, node, supply⟩ inner) ∧
      Traced definitions limit nodes (node.span :: trail) fault inner

end

section

variable {definitions : Definitions} {limit : Nat} {nodes : Node → Prop} {trail : List Span}
variable {scope : Scope Value} {node : Node} {fault : Fault}

/-- The traceback of a fault inside is one step longer. -/
theorem TracedInside.tracedFrom (h : TracedInside definitions limit nodes trail scope node fault)
    (hnode : nodes node) {supply after : Nat}
    (hrun : (evaluate definitions limit (limit - trail.length) scope node).run ⟨trail, supply⟩ =
      (.error fault, ⟨trail, after⟩)) :
    TracedFrom definitions limit nodes trail scope node fault := by
  intro hform
  refine ⟨supply, fun via => ?_⟩
  rcases h hform with ⟨kind, span, hrejects, hfault⟩ | ⟨inner, hleads, htraced⟩
  · exact ⟨kind, span, [], _, rfl, .here ⟨after, hrun⟩ hrejects hfault, hnode, nofun⟩
  · obtain ⟨kind, span, around, failing, hfirst, htraceback, hfailing, haround⟩ := htraced
    have hleads := hleads via supply
    rw [← hfirst] at hleads
    exact ⟨kind, span, _ :: around, failing, rfl, .inside ⟨after, hrun⟩ hleads htraceback, hfailing,
      List.forall_mem_cons.2 ⟨hnode, haround⟩⟩

/-- A step that another one leads to. -/
theorem TracedFrom.tracedInside {via : Via} {around : Scope Value} {inner : Node}
    (h : TracedFrom definitions limit nodes (node.span :: trail) around inner fault)
    (hleads : ∀ via' supply supply',
      LeadsTo definitions ⟨via', scope, node, supply⟩ ⟨via, around, inner, supply'⟩) :
    TracedInside definitions limit nodes trail scope node fault := by
  intro hform
  obtain ⟨supply, htraced⟩ := h hform
  exact .inr ⟨_, fun via' supply' => hleads via' supply' supply, htraced via⟩

variable (hclosed : definitions.Closed nodes)

include hclosed

/-- By induction on the steps that may still be nested: what the steps inside end in has a
traceback, so what the rule ends in has one. -/
theorem evaluate_traced (remaining : Nat) (trail : List Span)
    (htrail : limit - trail.length = remaining) (scope : Scope Value)
    (hscope : scope.WrittenIn nodes) (node : Node) (hnode : nodes node) :
    Eval.Ends trail (TracedFrom definitions limit nodes trail scope node) nodes
      (evaluate definitions limit remaining scope node) := by
  induction remaining generalizing trail scope node with
  | zero => exact Eval.ensures_iff_coupled.2 (.fail ⟨rfl, nofun⟩)
  | succ remaining ih =>
    -- The account of this step: a fault inside it has a traceback that starts one step later.
    let A : Account :=
      { definitions
        visit := evaluate definitions limit remaining
        trail := node.span :: trail
        blame := TracedInside definitions limit nodes trail scope node
        nodes
        blame_local := fun hlocal hform => by simp [Fault.isAboutForm_of_isLocal hlocal] at hform }
    have htrail' : limit - (node.span :: trail).length = remaining := by
      rw [List.length_cons]
      omega
    have hinner {via : Via} {around : Scope Value} {inner : Node} (haround : around.WrittenIn nodes)
        (hmem : nodes inner) (hleads : ∀ via' supply supply',
          LeadsTo definitions ⟨via', scope, node, supply⟩ ⟨via, around, inner, supply'⟩) :
        A.Ends (A.visit around inner) :=
      (ih (node.span :: trail) htrail' around haround inner hmem).imp
        (fun _ h => h.tracedInside hleads) fun _ _ hvalue => hvalue
    -- One case for each kind of piece: a step inside, or a place where evaluation stops.
    have hrule : A.Ends (evalNode definitions A.visit scope node) := by
      refine Account.evalNode_ends (A := A) hscope
        (fun kind span hrejects _ => .inl ⟨kind, span, hrejects, rfl⟩) fun piece hpiece hother => ?_
      cases piece with
      | part inner => exact hinner hscope (hclosed.part hnode hpiece) fun _ _ _ => .part hpiece
      | name ident =>
        intro candidate hcandidate
        have hmem := hclosed.candidate hnode hpiece (List.mem_of_mem_head? hcandidate)
        exact hinner Scope.writtenIn_root hmem fun _ _ _ => .candidate hpiece hcandidate
      | function body => exact hclosed.function hnode hpiece
      | call =>
        intro code around args hcode haround hargs
        exact hinner (haround.call hargs code.params) hcode fun _ _ _ => .called hpiece
      | stop kind span => exact absurd rfl (hother kind span)
    intro supply _
    obtain ⟨result, after, w, hrun, hle, hfits, hresult⟩ := hrule supply trivial
    have hrun : (evaluate definitions limit (remaining + 1) scope node).run ⟨trail, supply⟩ =
        (result, ⟨trail, after⟩) := Eval.run_within_of hrun
    refine ⟨result, after, w, hrun, hle, hfits, ?_⟩
    rw [← htrail] at hrun
    cases hresult with
    | ok hvalue => exact .ok hvalue
    | error hfault => exact .error (hfault.tracedFrom hnode hrun)

end

/-! ### Whole operations -/

namespace Operation

/-- Whether the node that is asked for is one of some nodes, and so are the bodies of the functions
that the operation is given. -/
def WrittenIn (nodes : Node → Prop) : Operation → Prop
  | evaluate scope node => scope.WrittenIn nodes ∧ nodes node
  | entry node => nodes node
  | expression scope e => scope.WrittenIn nodes ∧ nodes (.expr e)
  | statement scope s => scope.WrittenIn nodes ∧ nodes (.stmt s)
  | call callee args => callee.WrittenIn nodes ∧ ∀ arg ∈ args, arg.WrittenIn nodes

/-- Whether an operation may begin with a step: that of the node it asks for, or that of the body of
a function that it calls. -/
def BeginsWith : Operation → ActiveStep → Prop
  | evaluate scope node, step => ∃ supply, step = ⟨.asked, scope, node, supply⟩
  | entry node, step => ∃ supply, step = ⟨.asked, .root, node, supply⟩
  | expression scope e, step => ∃ supply, step = ⟨.asked, scope, .expr e, supply⟩
  | statement scope s, step => ∃ supply, step = ⟨.asked, scope, .stmt s, supply⟩
  | call _ _, step => ∃ (code : ArrowCode) (scope : Scope Value) (args : List Value) (supply : Nat),
    step = ⟨.called, scope.extend (bindParams code.params args), .body code.span code.body, supply⟩

end Operation

/-- A call from outside is traced from the body of some function. -/
theorem call_traced {definitions : Definitions} {limit : Nat} {nodes : Node → Prop}
    (hclosed : definitions.Closed nodes) {callee : Value} {args : List Value}
    (hcallee : callee.WrittenIn nodes) (hargs : ∀ arg ∈ args, arg.WrittenIn nodes) :
    Eval.Ends [] (fun fault => fault.isAboutForm = true → ∃ first,
        (Operation.call callee args).BeginsWith first ∧
          Traced definitions limit nodes [] fault first)
      nodes (callee.call (evaluate definitions limit limit) args) := by
  let A : Account :=
    { definitions
      visit := evaluate definitions limit limit
      trail := []
      blame := fun fault => fault.isAboutForm = true → ∃ first,
        (Operation.call callee args).BeginsWith first ∧
          Traced definitions limit nodes [] fault first
      nodes
      blame_local := fun hlocal hform => by simp [Fault.isAboutForm_of_isLocal hlocal] at hform }
  have hcall : A.Settles .root .call := by
    intro code scope args hcode hscope hargs
    refine (evaluate_traced hclosed limit [] rfl _ (hscope.call hargs code.params) _ hcode).imp
      ?_ fun _ _ hvalue => hvalue
    intro fault htraced hform
    obtain ⟨supply, htraced⟩ := htraced hform
    exact ⟨_, ⟨code, scope, args, supply, rfl⟩, htraced .called⟩
  exact Account.call_ends hcall hcallee hargs

namespace Evaluator

variable (evaluator : Evaluator) {nodes : Node → Prop}

/-- A node that is asked for is traced from its own step. -/
theorem eval_traced (hclosed : evaluator.definitions.Closed nodes) {scope : Scope Value}
    (hscope : scope.WrittenIn nodes) {node : Node} (hnode : nodes node) :
    Eval.Ends [] (fun fault => fault.isAboutForm = true → ∃ first,
        (∃ supply, first = ⟨.asked, scope, node, supply⟩) ∧
          Traced evaluator.definitions evaluator.limit nodes [] fault first)
      nodes (evaluator.eval scope node) := by
  refine (evaluate_traced hclosed evaluator.limit [] rfl scope hscope node hnode).imp ?_
    fun _ _ hvalue => hvalue
  intro fault htraced hform
  obtain ⟨supply, htraced⟩ := htraced hform
  exact ⟨_, ⟨supply, rfl⟩, htraced .asked⟩

/-- Every fault about a form has a traceback from what was asked for. -/
theorem answer_traced (hclosed : evaluator.definitions.Closed nodes) {operation : Operation}
    (h : operation.WrittenIn nodes) :
    Eval.Ends [] (fun fault => fault.isAboutForm = true → ∃ first, operation.BeginsWith first ∧
        Traced evaluator.definitions evaluator.limit nodes [] fault first)
      nodes (evaluator.answer operation) := by
  cases operation with
  | evaluate scope node => exact evaluator.eval_traced hclosed h.1 h.2
  | entry node => exact evaluator.eval_traced hclosed Scope.writtenIn_root h
  | expression scope e => exact evaluator.eval_traced hclosed h.1 h.2
  | statement scope s => exact evaluator.eval_traced hclosed h.1 h.2
  | call callee args => exact call_traced hclosed h.1 h.2

end Evaluator

/-- No operation begins with a step that is reached through a name. -/
theorem Operation.BeginsWith.via_ne {operation : Operation} {step : ActiveStep}
    (h : operation.BeginsWith step) : step.via ≠ .candidate := by
  cases operation with
  | evaluate | entry | expression | statement =>
    obtain ⟨_, rfl⟩ := h
    nofun
  | call =>
    obtain ⟨_, _, _, _, rfl⟩ := h
    nofun

/-! ### What a traceback says of the fault -/

namespace Traceback

variable {definitions : Definitions} {limit : Nat} {fault : Fault} {kind : Kind} {span : Span}
variable {trail : List Span} {around : List ActiveStep} {failing : ActiveStep}
variable (h : Traceback definitions limit fault kind span trail around failing)

include h

theorem rejects : failing.node.Rejects kind span := by
  induction h with
  | here _ hrejects _ => exact hrejects
  | inside _ _ _ ih => exact ih

/-- A node that as a whole is no form to be evaluated is the form at which evaluation stops. -/
theorem span_of_rejection (hrejection : failing.node.rejection?.isSome = true) :
    span = failing.span := by
  have hrejects := h.rejects
  unfold Node.Rejects at hrejects
  split at hrejects
  · exact hrejects.2
  · rename_i hnone
    rw [hnone] at hrejection
    cases hrejection

/-- The fault is worded by the trail on which the innermost step stops. -/
theorem fault_eq : fault = definitions.constructFault kind span
    (failing.span :: ((around.map ActiveStep.span).reverse ++ trail)) := by
  induction h with
  | here _ _ hfault => exact hfault
  | inside _ _ _ ih => simpa using ih

end Traceback

theorem abbreviate_length (text : String) : (abbreviate text).toList.length ≤ quoteLimit := by
  unfold abbreviate
  split
  · assumption
  · simp only [quoteLimit, String.toList_append, String.toList_ofList, List.length_append,
      List.length_take]
    exact Nat.add_le_add_right (Nat.min_le_left _ _) 3

/-- No quote is longer than the limit. -/
theorem Definitions.quote?_length {definitions : Definitions} {span : Span} {quoted : String}
    (h : definitions.quote? span = some quoted) : quoted.toList.length ≤ quoteLimit := by
  unfold quote? at h
  obtain ⟨text, -, rfl⟩ := Option.map_eq_some_iff.1 h
  exact abbreviate_length text

theorem Definitions.getD_quote?_length (definitions : Definitions) (span : Span) :
    ((definitions.quote? span).getD "").toList.length ≤ quoteLimit := by
  cases hquote : definitions.quote? span with
  | none => exact Nat.zero_le _
  | some quoted => exact quote?_length hquote

end StaticConfig
