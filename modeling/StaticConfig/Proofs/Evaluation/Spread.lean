import Mathlib.Order.Nat
import StaticConfig.Proofs.Evaluation.Invariant
import StaticConfig.Proofs.Evaluation.Iteration
import StaticConfig.Proofs.Snippet

/-!
# Spreading a list of arguments

A call can take its arguments one by one, or all of them out of one list literal that is spread.
The literal is a step of its own and draws a tag for a list that nobody keeps, so the two calls run
their arguments at different depths and the function with different supplies. Neither shows, but in
the limit, in tags and in the parents that faults quote.

- `evaluate_deeper`: evaluation on a longer trail with fewer steps to spare, by induction on them;
- `Knowledge.drawn`: all tags of a run were drawn before, so the call that follows can be moved to
  another supply;
- `call_spread`: the two calls beside each other.
-/

namespace StaticConfig

open Knowledge (nothing uniform_nothing run_of_same)

/-! ### Outcomes but for parents -/

/-- The fault without the parent that it quotes. -/
def Fault.parentless : Fault → Fault
  | .unsupportedConstruct kind text _ => .unsupportedConstruct kind text none
  | fault => fault

/-- Two related values, or the same fault but for the parent that it quotes. -/
inductive Outcome.Alike {α : Type} (R : α → α → Prop) : Except Fault α → Except Fault α → Prop
  | ok {a b : α} : R a b → Alike R (.ok a) (.ok b)
  | error {fault fault' : Fault} : fault.parentless = fault'.parentless →
    Alike R (.error fault) (.error fault')

theorem Outcome.Alike.imp {α : Type} {R S : α → α → Prop} {result outcome : Except Fault α}
    (h : Alike R result outcome) (hRS : ∀ a b, R a b → S a b) : Alike S result outcome := by
  cases h with
  | ok hab => exact .ok (hRS _ _ hab)
  | error hfault => exact .error hfault

/-- The limit is reported without any parent. -/
theorem Outcome.Alike.exceeded {α : Type} {R : α → α → Prop} {limit : Nat}
    {outcome : Except Fault α} (h : Alike R (.error (.recursionLimit limit)) outcome) :
    outcome = .error (.recursionLimit limit) := by
  cases h with
  | @error _ fault hfault =>
    cases fault with
    | recursionLimit other => exact congrArg _ hfault.symm
    | _ => cases hfault

/-! ### Evaluation further in -/

namespace Eval

variable {α β : Type} {limit : Nat} {trail deeper : List Span}

/-- The terms of a run further in and of the same one less far in: faults may quote other parents,
and nothing is asked when the first run stops at the limit. -/
abbrev deepening (limit : Nat) : Terms Timeless :=
  nothing.terms (fun fault fault' => fault'.parentless = fault.parentless)
    (· = .recursionLimit limit)

theorem deepening_self (limit : Nat) {fault : Fault} (_ : fault.isLocal = true) :
    (deepening limit).faults fault fault := rfl

/-- What `step` on a trail and `other` on a deeper one do if they are coupled: they come back to
their trails with the same supply and with the same outcome but for parents, unless `other` stops at
the limit. -/
theorem run_of_deeper {step other : Eval α} {Q : Timeless → α → α → Prop}
    (h : Coupled (deepening limit) deeper trail .always Q other step) (supply : Nat) :
    other.outcome ⟨deeper, supply⟩ = .error (.recursionLimit limit) ∨
      ∃ result outcome after, step.run ⟨trail, supply⟩ = (result, ⟨trail, after⟩) ∧
        other.run ⟨deeper, supply⟩ = (outcome, ⟨deeper, after⟩) ∧
        Outcome.Alike (fun a b => Q .always b a) result outcome := by
  obtain ⟨outcome, after, hother, hstep⟩ := run_of_same h supply
  rcases hstep with ⟨fault, rfl, rfl⟩ | ⟨result, hstep, hresult⟩
  · exact .inl (congrArg Prod.fst hother)
  · refine .inr ⟨result, outcome, after, hstep, hother, ?_⟩
    cases hresult with
    | ok hvalue => exact .ok hvalue
    | error hfault => exact .error hfault

theorem outcome_bind_of_error {step : Eval α} {m : Machine} {fault : Fault}
    (h : step.outcome m = .error fault) (next : α → Eval β) :
    (step >>= next).outcome m = .error fault := by
  unfold outcome at h ⊢
  rw [run_bind]
  rcases hrun : step.run m with ⟨result, after⟩
  rw [hrun] at h
  cases h
  rfl

theorem outcome_bind_of_ok {step : Eval α} {m after : Machine} {a : α}
    (h : step.run m = (.ok a, after)) (next : α → Eval β) :
    (step >>= next).outcome m = (next a).outcome after := by
  unfold outcome
  rw [run_bind_ok h]

end Eval

open Eval (run_of_deeper)

/-- By induction on the fewer steps. -/
theorem evaluate_deeper (definitions : Definitions) (limit : Nat) {fewer more : Nat}
    (hle : fewer ≤ more) (trail deeper : List Span) (scope : Scope Value) (node : Node) :
    Eval.Coupled (Eval.deepening limit) deeper trail .always (Same nothing.outer)
      (evaluate definitions limit fewer scope node)
      (evaluate definitions limit more scope node) := by
  induction fewer generalizing more trail deeper scope node with
  | zero => exact .excused rfl _
  | succ fewer ih =>
    obtain ⟨more, rfl⟩ := Nat.exists_eq_succ_of_ne_zero (Nat.ne_zero_of_lt hle)
    have hinside {scope : Scope Value} {node' : Node} :=
      ih (Nat.le_of_succ_le_succ hle) (node.span :: trail) (node.span :: deeper) scope node'
    exact .within (uniform_nothing.evalNode_same (Eval.deepening_self limit) (fun _ => hinside)
      (fun _ _ => rfl) (fun _ _ _ _ => trivial) node)

theorem arguments_deeper (definitions : Definitions) (limit : Nat) {fewer more : Nat}
    (hle : fewer ≤ more) (trail deeper : List Span) (scope : Scope Value) (args : List Argument) :
    Eval.Coupled (Eval.deepening limit) deeper trail .always
      (fun _ groups others => groups.flatten = others.flatten)
      (args.mapM (evalArgument (evaluate definitions limit fewer) scope))
      (args.mapM (evalArgument (evaluate definitions limit more) scope)) := by
  refine Eval.Coupled.imp (uniform_nothing.arguments_same (Eval.deepening_self limit) ?_
    (fun _ _ _ _ => trivial) args) fun _ _ _ _ h => h.1
  exact fun _ => evaluate_deeper definitions limit hle trail deeper _ _

theorem Value.call_deeper_of_le (f : Value) (definitions : Definitions) (limit : Nat)
    {fewer more : Nat} (hle : fewer ≤ more) (trail deeper : List Span) (args : List Value) :
    Eval.Coupled (Eval.deepening limit) deeper trail .always (Same nothing.outer)
      (f.call (evaluate definitions limit fewer) args)
      (f.call (evaluate definitions limit more) args) := by
  refine uniform_nothing.call_same (Eval.deepening_self limit) ?_ trivial fun _ _ => trivial
  exact fun _ => evaluate_deeper definitions limit hle trail deeper _ _

/-! ### Tags that were drawn -/

/-- All tags of a run are among those that were drawn so far. -/
def Knowledge.drawn : Knowledge Nat where
  fits base supply := base = supply
  inner base v := v.Everywhere (· < base) fun _ _ => True
  outer base v := v.Everywhere (· < base) fun _ _ => True
  inner_mono hle h := h.mono fun _ hlt => Nat.lt_of_lt_of_le hlt hle
  outer_of_inner h := h
  inner_primitive _ _ := Value.primitive_cases .undefined .null .bool .number .string
  inner_items h := by
    cases h with
    | list _ hitems => exact hitems
  inner_fields h := by
    cases h with
    | record _ hfields => exact hfields
  new_list := by
    rintro base _ items rfl hitems
    exact ⟨base + 1, Nat.le_succ base, rfl, .list (Nat.lt_succ_self base) fun item hitem =>
      (hitems item hitem).mono fun _ => Nat.lt_succ_of_lt⟩
  new_record := by
    rintro base _ fields rfl _ hfields
    exact ⟨base + 1, Nat.le_succ base, rfl, .record (Nat.lt_succ_self base) fun entry hentry =>
      (hfields entry hentry).mono fun _ => Nat.lt_succ_of_lt⟩
  new_method := by
    rintro base _ receiver m rfl hreceiver
    exact ⟨base + 1, Nat.le_succ base, rfl, .method (Nat.lt_succ_self base) trivial
      (hreceiver.mono fun _ => Nat.lt_succ_of_lt)⟩

theorem uniform_drawn : Knowledge.drawn.Uniform where
  inner_of_outer h := h
  scope h := by
    cases h with
    | closure _ hscope => exact hscope
  receiver h := by
    cases h with
    | method _ _ hreceiver => exact hreceiver
  new_closure := by
    rintro base _ scope code rfl hscope
    exact ⟨base + 1, Nat.le_succ base, rfl, .closure (Nat.lt_succ_self base)
      fun frame hframe binding hbinding =>
        (hscope frame hframe binding hbinding).mono fun _ => Nat.lt_succ_of_lt⟩

/-! ### The two calls -/

section

variable {definitions : Definitions} {limit : Nat} {scope : Scope Value}
variable {visit : Scope Value → Node → Eval Value}

theorem run_spread {e : Expr} {m after : Machine} {tag : Nat} {items : List Value}
    (h : (visit scope (.expr e)).run m = (.ok (.list tag items), after)) :
    ([Argument.spread e].mapM (evalArgument visit scope)).run m = (.ok [items], after) := by
  have hargument : (evalArgument visit scope (.spread e)).run m = (.ok items, after) := by
    rw [evalArgument, visitExpr, Eval.run_bind_ok h]
    rfl
  rw [List.mapM_cons, Eval.run_bind_ok hargument]
  rfl

theorem outcome_spread_of_error {e : Expr} {m : Machine} {fault : Fault}
    (h : (visit scope (.expr e)).outcome m = .error fault) :
    ([Argument.spread e].mapM (evalArgument visit scope)).outcome m = .error fault := by
  rw [List.mapM_cons]
  exact Eval.outcome_bind_of_error (Eval.outcome_bind_of_error h _) _

/-- Arguments as the elements of an array literal. -/
def literalOf (around : Span) (args : List Argument) : Expr := .array around (args.map .item)

theorem evaluate_literalOf (steps : Nat) (around : Span) (args : List Argument) :
    evaluate definitions limit (steps + 1) scope (.expr (literalOf around args)) =
      Eval.within around (args.mapM (evalArgument (evaluate definitions limit steps) scope) >>=
        fun groups => Eval.newList groups.flatten) := by
  have helements : (args.map Element.item).mapM
      (evalElement (evaluate definitions limit steps) scope) =
        args.mapM (evalArgument (evaluate definitions limit steps) scope) := by
    rw [List.mapM_map]
    rfl
  show Eval.within around ((args.map Element.item).mapM _ >>= _) = _
  rw [helements]

/-- The literal of the arguments is the list of what they stand for, under a tag of its own, or it
stops where they do. -/
theorem literalOf_deeper (steps : Nat) (trail deeper : List Span) (around : Span)
    (args : List Argument) (supply : Nat) :
    let visit := evaluate definitions limit (steps + 1)
    let literal := visit scope (.expr (literalOf around args))
    literal.outcome ⟨deeper, supply⟩ = .error (.recursionLimit limit) ∨
      ∃ result after,
        (args.mapM (evalArgument visit scope)).run ⟨trail, supply⟩ = (result, ⟨trail, after⟩) ∧
        match result with
        | .ok groups =>
          literal.run ⟨deeper, supply⟩ = (.ok (.list after groups.flatten), ⟨deeper, after + 1⟩)
        | .error fault => ∃ fault', fault.parentless = fault'.parentless ∧
          literal.outcome ⟨deeper, supply⟩ = .error fault' := by
  intro visit literal
  -- The literal evaluates its elements one step further in than the call its arguments.
  have hargs := arguments_deeper definitions limit (Nat.le_succ steps) trail (around :: deeper)
    scope args
  have hliteral : literal = _ := evaluate_literalOf steps around args
  rw [hliteral]
  rcases run_of_deeper hargs supply with hstop |
    ⟨result, outcome, after, hplain, hspread, hresult⟩
  · left
    exact Eval.outcome_bind_of_error (m := ⟨around :: deeper, supply⟩) hstop _
  · right
    refine ⟨result, after, hplain, ?_⟩
    cases hresult with
    | error hfault =>
      exact ⟨_, hfault, Eval.outcome_of_run
        (Eval.run_within_of (Eval.run_bind_error hspread _))⟩
    | ok hgroups =>
      dsimp only
      rw [← hgroups]
      exact Eval.run_within_of (Eval.run_bind_ok hspread _)

/-- What a call of a function comes to once its arguments are there, with one tag more drawn and on
another trail. -/
theorem Value.call_deeper {trail deeper : List Span} {f : Value} {args : List Value} {base : Nat}
    (hlength : deeper.length = trail.length)
    (hf : f.Everywhere (· < base) fun _ _ => True)
    (hargs : ∀ arg ∈ args, arg.Everywhere (· < base) fun _ _ => True) :
    let call := f.call (evaluate definitions limit (limit - trail.length)) args
    call.outcome ⟨deeper, base + 1⟩ = .error (.recursionLimit limit) ∨
      Outcome.Alike (Value.Since base) (call.outcome ⟨trail, base⟩)
        (call.outcome ⟨deeper, base + 1⟩) := by
  intro call
  -- First the trail changes, then the number of tags that were drawn.
  have hsame := f.call_deeper_of_le definitions limit (Nat.le_refl (limit - trail.length)) trail
    deeper args
  have hanswers := f.call_answers definitions limit deeper hf hargs (base + 1) (Nat.le_succ base)
  rw [hlength] at hanswers
  obtain ⟨result, after, hrun, -, hmoved⟩ := hanswers
  have houtcome : call.outcome ⟨deeper, base + 1⟩ = result := Eval.outcome_of_run hrun
  rw [houtcome]
  rcases run_of_deeper hsame base with hstop | ⟨first, second, between, hfirst, hsecond, halike⟩
  · left
    change Outcome.Related _ (call.outcome ⟨deeper, base⟩) result at hmoved
    rw [hstop] at hmoved
    cases hmoved with
    | error => rfl
  · right
    change Outcome.Related _ (call.outcome ⟨deeper, base⟩) result at hmoved
    rw [Eval.outcome_of_run hsecond] at hmoved
    rw [Eval.outcome_of_run hfirst]
    cases halike with
    | ok hvalue =>
      obtain ⟨rfl, -⟩ := hvalue
      cases hmoved with
      | ok hsince => exact .ok hsince
    | error hfault =>
      cases hmoved with
      | error => exact .error hfault

/-- What a callee and arguments come to only holds tags that were drawn by then. -/
theorem run_drawn {steps supply base after : Nat} {trail : List Span} {callee : Expr}
    {args : List Argument} {f : Value} {groups : List (List Value)}
    (hscope : scope.Everywhere (· < supply) fun _ _ => True)
    (hcallee : (evaluate definitions limit steps scope (.expr callee)).run ⟨trail, supply⟩ =
      (.ok f, ⟨trail, base⟩))
    (hargs : (args.mapM (evalArgument (evaluate definitions limit steps) scope)).run
      ⟨trail, base⟩ = (.ok groups, ⟨trail, after⟩)) :
    supply ≤ after ∧ (f.Everywhere (· < after) fun _ _ => True) ∧
      ∀ arg ∈ groups.flatten, arg.Everywhere (· < after) fun _ _ => True := by
  obtain ⟨_, _, _, hrun, hbase, rfl, hf⟩ :=
    uniform_drawn.evaluate_ensures definitions limit steps hscope (.expr callee) supply rfl
  cases hcallee.symm.trans hrun
  have hscope : Knowledge.drawn.OfScope base scope :=
    Knowledge.OfScope.mono (K := Knowledge.drawn) hscope hbase
  obtain ⟨_, _, _, hrun, hafter, rfl, hgroups⟩ :=
    uniform_drawn.arguments_ensures definitions limit steps hscope args base rfl
  cases hargs.symm.trans hrun
  cases hf with
  | ok hf =>
    cases hgroups with
    | ok hgroups =>
      exact ⟨Nat.le_trans hbase hafter, Knowledge.drawn.inner_mono hafter hf, hgroups⟩

/-- The two calls inside their steps, which may stand at different places. -/
theorem evalCall_alike {steps supply : Nat} {trail deeper : List Span}
    (hlength : deeper.length = trail.length) (hsteps : limit - trail.length = steps)
    (hscope : scope.Everywhere (· < supply) fun _ _ => True)
    (span span' around : Span) (callee : Expr) (args : List Argument) :
    let visit := evaluate definitions limit steps
    let plain := evalCall definitions visit scope span (.value callee) args
    let spread :=
      evalCall definitions visit scope span' (.value callee) [.spread (literalOf around args)]
    spread.outcome ⟨deeper, supply⟩ = .error (.recursionLimit limit) ∨
      Outcome.Alike (fun v w => ∃ base, supply ≤ base ∧ v.Since base w)
        (plain.outcome ⟨trail, supply⟩) (spread.outcome ⟨deeper, supply⟩) := by
  intro visit plain spread
  have hcallee := run_of_deeper (evaluate_deeper definitions limit (Nat.le_refl steps) trail deeper
    scope (.expr callee)) supply
  rcases hcallee with hstop | ⟨result, outcome, base, hplain, hspread, hresult⟩
  · exact .inl (Eval.outcome_bind_of_error hstop _)
  cases hresult with
  | error hfault =>
    have hfirst : plain.outcome ⟨trail, supply⟩ = .error _ :=
      Eval.outcome_bind_of_error (Eval.outcome_of_run hplain) _
    have hsecond : spread.outcome ⟨deeper, supply⟩ = .error _ :=
      Eval.outcome_bind_of_error (Eval.outcome_of_run hspread) _
    rw [hfirst, hsecond]
    exact .inr (.error hfault)
  | @ok f f' hf =>
    obtain rfl : f = f' := hf.1.symm
    -- The callee is a step as well, so there is room for the step of the literal.
    obtain ⟨fewer, rfl⟩ : ∃ fewer, steps = fewer + 1 := by
      cases steps with
      | zero => cases hplain
      | succ fewer => exact ⟨fewer, rfl⟩
    have hfirst : plain.outcome ⟨trail, supply⟩ = (args.mapM (evalArgument visit scope) >>=
        fun groups => f.call visit groups.flatten).outcome ⟨trail, base⟩ :=
      Eval.outcome_bind_of_ok hplain _
    have hsecond : spread.outcome ⟨deeper, supply⟩ =
        ([Argument.spread (literalOf around args)].mapM (evalArgument visit scope) >>=
          fun groups => f.call visit groups.flatten).outcome ⟨deeper, base⟩ :=
      Eval.outcome_bind_of_ok hspread _
    rw [hfirst, hsecond]
    rcases literalOf_deeper fewer trail deeper around args base with hstop | ⟨result, after, hargs,
      hliteral⟩
    · exact .inl (Eval.outcome_bind_of_error (outcome_spread_of_error hstop) _)
    cases result with
    | error fault =>
      obtain ⟨fault', hfault, hliteral⟩ := hliteral
      rw [Eval.outcome_bind_of_error (Eval.outcome_of_run hargs),
        Eval.outcome_bind_of_error (outcome_spread_of_error hliteral)]
      exact .inr (.error hfault)
    | ok groups =>
      obtain ⟨hle, hf, hgroups⟩ := run_drawn hscope hplain hargs
      rw [Eval.outcome_bind_of_ok hargs, Eval.outcome_bind_of_ok (run_spread hliteral),
        List.flatten_singleton]
      have hcall : (f.call (evaluate definitions limit (limit - trail.length))
          groups.flatten).outcome ⟨deeper, after + 1⟩ = .error (.recursionLimit limit) ∨ _ :=
        Value.call_deeper hlength hf hgroups
      rw [hsteps] at hcall
      exact hcall.imp id fun halike => halike.imp fun v w hsince => ⟨after, hle, hsince⟩

end

/-- **Arguments are spliced like elements.** In every scope, a function called with some arguments,
plain and spread ones in any order, and called with the array literal of the same arguments spread,
comes to the same: the same value but for tags that the calls drew, or the same fault but for the
parent that it quotes. The literal takes one more step, so this is said of limits that the second
call stays within; the first one then does so as well. -/
theorem call_spread (definitions : Definitions) (limit : Nat) (trail : List Span) {supply : Nat}
    {scope : Scope Value} (hscope : scope.Everywhere (· < supply) fun _ _ => True)
    (span span' around : Span) (callee : Expr) (args : List Argument) :
    let visit := evaluate definitions limit (limit - trail.length) scope
    let plain := visit (.expr (.call span (.value callee) args))
    let spread := visit (.expr (.call span' (.value callee) [.spread (literalOf around args)]))
    spread.outcome ⟨trail, supply⟩ ≠ .error (.recursionLimit limit) →
      plain.outcome ⟨trail, supply⟩ ≠ .error (.recursionLimit limit) ∧
      Outcome.Alike (fun v w => ∃ base, supply ≤ base ∧ v.Since base w)
        (plain.outcome ⟨trail, supply⟩) (spread.outcome ⟨trail, supply⟩) := by
  intro visit plain spread hlimit
  cases hsteps : limit - trail.length with
  | zero =>
    refine absurd ?_ hlimit
    show (evaluate definitions limit _ scope _).outcome _ = _
    rw [hsteps]
    rfl
  | succ steps =>
    have hinside {place : Span} {e : Callee} {arguments : List Argument} :
        (visit (.expr (.call place e arguments))).outcome ⟨trail, supply⟩ =
          (evalCall definitions (evaluate definitions limit steps) scope place e arguments).outcome
            ⟨place :: trail, supply⟩ := by
      show (evaluate definitions limit _ scope _).outcome _ = _
      rw [hsteps]
      rfl
    have hroom : limit - (span :: trail).length = steps := by
      rw [List.length_cons]
      omega
    have hlength : (span' :: trail).length = (span :: trail).length := rfl
    have halike : (evalCall definitions (evaluate definitions limit steps) scope span' _ _).outcome
        ⟨span' :: trail, supply⟩ = .error (.recursionLimit limit) ∨ _ :=
      evalCall_alike hlength hroom hscope span span' around callee args
    rw [← hinside, ← hinside] at halike
    have halike := halike.resolve_left hlimit
    refine ⟨fun hplain => hlimit ?_, halike⟩
    exact Outcome.Alike.exceeded (hplain ▸ halike)

/-! ### A spread list and a function among the arguments -/

namespace Packing

/-- The place of one character. -/
def spot (start : Nat) : Span := Snippet.place start (start + 1)

def name (text : String) (start : Nat) : Expr := .identifier ⟨text, spot start⟩

/-- `(a, b, c) => [a, b, c]`. -/
def code : ArrowCode :=
  ⟨spot 0, ["a", "b", "c"], .value (.array (spot 1)
    [.item (.plain (name "a" 2)), .item (.plain (name "b" 3)), .item (.plain (name "c" 4))])⟩

/-- The function as `pack` and the list `[undefined, 'u']` as `xs`. -/
def scope : Scope Value :=
  Scope.root.extend [("pack", .closure 0 code .root), ("xs", .list 1 [.undefined, .string "u"])]

/-- `...xs, y => y`. -/
def args : List Argument :=
  [.spread (name "xs" 6), .plain (.arrow (spot 7) false [.name "y"] (.value (name "y" 8)))]

/-- What `y => y` evaluates to if `tag` is the next tag. -/
def identity (tag : Nat) : Value := .closure tag ⟨spot 7, ["y"], .value (name "y" 8)⟩ scope

/-- `pack(...xs, y => y)` and `pack(...[...xs, y => y])` pack the same three values, into lists of
which the second one has a later tag. -/
theorem call_spread_pack :
    let visit := evaluate .none 5 5 scope
    let plain := visit (.expr (.call (spot 9) (.value (name "pack" 5)) args))
    let spread := visit (.expr (.call (spot 9) (.value (name "pack" 5))
      [.spread (literalOf (spot 10) args)]))
    (scope.Everywhere (· < 2) fun _ _ => True) ∧
      plain.outcome ⟨[], 2⟩ = .ok (.list 3 [.undefined, .string "u", identity 2]) ∧
      spread.outcome ⟨[], 2⟩ = .ok (.list 4 [.undefined, .string "u", identity 2]) ∧
      Outcome.Alike (fun v w => ∃ base, 2 ≤ base ∧ v.Since base w) (plain.outcome ⟨[], 2⟩)
        (spread.outcome ⟨[], 2⟩) := by
  intro visit plain spread
  have hscope : scope.Everywhere (· < 2) fun _ _ => True := by
    intro frame hframe binding hbinding
    obtain rfl := List.mem_singleton.1 hframe
    simp only [List.mem_cons, List.not_mem_nil, or_false] at hbinding
    rcases hbinding with rfl | rfl
    · exact .closure (by decide) nofun
    · refine .list (by decide) fun item hitem => ?_
      simp only [List.mem_cons, List.not_mem_nil, or_false] at hitem
      rcases hitem with rfl | rfl
      · exact .undefined
      · exact .string "u"
  have hplain : plain.outcome ⟨[], 2⟩ = .ok (.list 3 [.undefined, .string "u", identity 2]) := by
    show ((evalCall .none (evaluate .none 5 4) scope (spot 9) (.value (name "pack" 5))
      args).run ⟨[spot 9], 2⟩).1 = _
    have hcallee : (evaluate .none 5 4 scope (.expr (name "pack" 5))).run ⟨[spot 9], 2⟩ =
      (.ok (.closure 0 code .root), ⟨[spot 9], 2⟩) := rfl
    rw [run_evalCall hcallee rfl, Value.call_closure]
    rfl
  have hspread : spread.outcome ⟨[], 2⟩ = .ok (.list 4 [.undefined, .string "u", identity 2]) := by
    show ((evalCall .none (evaluate .none 5 4) scope (spot 9) (.value (name "pack" 5))
      [.spread (literalOf (spot 10) args)]).run ⟨[spot 9], 2⟩).1 = _
    have hcallee : (evaluate .none 5 4 scope (.expr (name "pack" 5))).run ⟨[spot 9], 2⟩ =
      (.ok (.closure 0 code .root), ⟨[spot 9], 2⟩) := rfl
    rw [run_evalCall hcallee rfl, Value.call_closure]
    rfl
  refine ⟨hscope, hplain, hspread, ?_⟩
  refine (call_spread .none 5 [] hscope (spot 9) (spot 9) (spot 10) (name "pack" 5) args ?_).2
  show spread.outcome ⟨[], 2⟩ ≠ _
  rw [hspread]
  nofun

end Packing

end StaticConfig
