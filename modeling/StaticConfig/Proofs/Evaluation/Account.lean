import StaticConfig.Proofs.Evaluation.Invariant

/-!
# Accounts of runs

How the rule of a node can end, told from its pieces. A rule that fails does so with a local fault,
with the fault of a form at which it stops, or with a fault of a step inside; and a value that it
ends in only keeps functions that the node is made of or that came up inside.

- `Value.WrittenIn`: all functions in a value have a body among some nodes;
- `Account`: what is assumed of the steps inside, and `Account.Settles` of the pieces of a node;
- `Account.evalNode_ends`, `Account.call_ends`: how rules and calls end.
-/

namespace StaticConfig

/-! ### Functions in values -/

/-- Whether every function in a value, and in what functions in it keep, has a body among some
nodes. -/
inductive Value.WrittenIn (nodes : Node → Prop) : Value → Prop
  | undefined : WrittenIn nodes .undefined
  | null : WrittenIn nodes .null
  | bool (b : Bool) : WrittenIn nodes (.bool b)
  | number (n : Number) : WrittenIn nodes (.number n)
  | string (text : String) : WrittenIn nodes (.string text)
  | list {tag : Nat} {items : List Value} :
      (∀ item ∈ items, WrittenIn nodes item) → WrittenIn nodes (.list tag items)
  | record {tag : Nat} {fields : Record Value} :
      (∀ entry ∈ fields.entries, WrittenIn nodes entry.2) → WrittenIn nodes (.record tag fields)
  | closure {tag : Nat} {code : ArrowCode} {scope : Scope Value} :
      nodes (.body code.span code.body) →
      (∀ frame ∈ scope.frames, ∀ binding ∈ frame, WrittenIn nodes binding.2) →
      WrittenIn nodes (.closure tag code scope)
  | method {tag : Nat} {receiver : Value} {m : Method} :
      WrittenIn nodes receiver → WrittenIn nodes (.method tag receiver m)

/-- Whether every function in what a scope binds, visibly or not, has a body among some nodes. -/
def Scope.WrittenIn (nodes : Node → Prop) (s : Scope Value) : Prop :=
  ∀ frame ∈ s.frames, ∀ binding ∈ frame, binding.2.WrittenIn nodes

section

variable {nodes : Node → Prop}

theorem Scope.writtenIn_root : Scope.root.WrittenIn nodes :=
  fun _ hmem => absurd hmem List.not_mem_nil

/-- The scope of a call. -/
theorem Scope.WrittenIn.call {scope : Scope Value} (h : scope.WrittenIn nodes)
    {args : List Value} (hargs : ∀ arg ∈ args, arg.WrittenIn nodes) (params : List String) :
    (scope.extend (bindParams params args)).WrittenIn nodes :=
  List.forall_mem_cons.2 ⟨forall_mem_bindParams .undefined hargs params, h⟩

/-- All functions in the values of a run have bodies among some nodes. -/
def Knowledge.written (nodes : Node → Prop) : Knowledge Timeless where
  fits _ _ := True
  inner _ v := v.WrittenIn nodes
  outer _ v := v.WrittenIn nodes
  inner_mono _ h := h
  outer_of_inner h := h
  inner_primitive _ _ := Value.primitive_cases .undefined .null .bool .number .string
  inner_items h := by
    cases h with
    | list hitems => exact hitems
  inner_fields h := by
    cases h with
    | record hfields => exact hfields
  new_list _ h := ⟨.always, trivial, trivial, .list h⟩
  new_record _ _ h := ⟨.always, trivial, trivial, .record h⟩
  new_method _ _ h := ⟨.always, trivial, trivial, .method h⟩

end

/-! ### What is assumed of the steps inside -/

/-- A step whose span is the head of the trail, and what is known of the steps inside it. -/
structure Account where
  definitions : Definitions
  visit : Scope Value → Node → Eval Value
  trail : List Span
  /-- The faults in which the step may end. -/
  blame : Fault → Prop
  /-- The bodies of functions that values may keep. -/
  nodes : Node → Prop
  blame_local : ∀ {fault : Fault}, fault.isLocal = true → blame fault

/-- With any supply, the computation comes back to its trail, with a value all functions in which
have bodies among some nodes, or with a fault that satisfies `blame`. -/
abbrev Eval.Ends (trail : List Span) (blame : Fault → Prop) (nodes : Node → Prop)
    (step : Eval Value) : Prop :=
  Ensures (Knowledge.written nodes).fits blame trail .always (Knowledge.written nodes).outer step

namespace Account

variable (A : Account)

/-- Whether a computation inside the step ends as accounted for. -/
abbrev Ends (step : Eval Value) : Prop := Eval.Ends A.trail A.blame A.nodes step

/-- Whether whatever comes of a piece in a scope is accounted for. -/
def Settles (scope : Scope Value) : Piece → Prop
  | .part node => A.Ends (A.visit scope node)
  | .name ident => ∀ node ∈ (A.definitions.candidates ident).head?, A.Ends (A.visit .root node)
  | .function body => A.nodes body
  | .call => ∀ (code : ArrowCode) (scope : Scope Value) (args : List Value),
    A.nodes (.body code.span code.body) → scope.WrittenIn A.nodes →
      (∀ arg ∈ args, arg.WrittenIn A.nodes) →
        A.Ends (A.visit (scope.extend (bindParams code.params args)) (.body code.span code.body))
  | .stop kind span => A.blame (A.definitions.constructFault kind span A.trail)

theorem blamed_local {fault : Fault} (h : fault.isLocal = true) :
    Fault.Blamed A.blame fault fault := ⟨rfl, A.blame_local h⟩

/-- The step beside itself. -/
def coupling : Coupling Timeless :=
  (Knowledge.written A.nodes).coupling (Fault.Blamed A.blame) A.blamed_local (fun _ => False)
    A.definitions A.visit A.visit A.trail A.trail

variable {A}

theorem plain_coupling : A.coupling.Plain := ⟨rfl, rfl⟩

/-- Whatever a call does, it does in functions. -/
theorem calls_coupling {around : Scope Value} (h : A.Settles around .call) : A.coupling.Calls := by
  refine Knowledge.calls_coupling A.blamed_local id (fun hmethod => ?_) fun hcallee hargs => ?_
  · cases hmethod with
    | method hreceiver => exact hreceiver
  · cases hcallee with
    | closure hcode hscope => exact Eval.ensures_iff_coupled.1 (h _ _ _ hcode hscope hargs)

theorem call_ends {around : Scope Value} (h : A.Settles around .call) {callee : Value}
    {args : List Value} (hcallee : callee.WrittenIn A.nodes)
    (hargs : ∀ arg ∈ args, arg.WrittenIn A.nodes) : A.Ends (callee.call A.visit args) :=
  Eval.ensures_iff_coupled.2 (plain_coupling.call_coupled (calls_coupling h) ⟨rfl, hcallee⟩
    (forall₂_same_iff.2 ⟨rfl, hargs⟩))

/-- How the rule of a node ends, if the forms at which it may stop and all other pieces are
settled. -/
theorem evalNode_ends {scope : Scope Value} (hscope : scope.WrittenIn A.nodes) {node : Node}
    (hstop : ∀ kind span, node.Rejects kind span → A.Settles scope (.stop kind span))
    (h : ∀ piece ∈ node.pieces, (∀ kind span, piece ≠ .stop kind span) → A.Settles scope piece) :
    A.Ends (evalNode A.definitions A.visit scope node) := by
  refine Eval.ensures_iff_coupled.2 (plain_coupling.evalNode_coupled ?_ ?_)
  · exact fun kind span hrejects _ _ => ⟨rfl, hstop kind span hrejects⟩
  · intro piece hpiece hother w _
    have hsettles := h piece hpiece hother
    cases piece with
    | part inner => exact plain_coupling.part (Eval.ensures_iff_coupled.1 hsettles)
    | name ident =>
      have hknown : (Knowledge.written A.nodes).OfScope w scope := hscope
      exact plain_coupling.name rfl (hknown.lookup? ident.name) fun node hnode =>
        Eval.ensures_iff_coupled.1 (hsettles node hnode)
    | function body =>
      refine plain_coupling.function fun span inner params hbody => ?_
      subst hbody
      exact Knowledge.makes_same fun supply _ =>
        ⟨.always, trivial, trivial, .closure hsettles hscope⟩
    | call => exact Coupling.settles_call (calls_coupling hsettles)
    | stop kind span => exact absurd rfl (hother kind span)

end Account

end StaticConfig
