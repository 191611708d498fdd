import Mathlib.Logic.ExistsUnique
import StaticConfig.Evaluation.Evaluate
import StaticConfig.Proofs.Snippet

/-!
# Switch statements

A switch scans its clauses once, in the order in which they stand, and evaluates what it needs on
the way. What it comes to can be said without the scan:

- `Scan`: some clauses at the front are cases whose tests differ from the discriminant; the one
  after them is a default, or a case whose test is equal or fails;
- `chosenBody`: the first body from that clause on;
- `scriptStart`: where JavaScript starts, which looks at a default only after all the tests.

`switch_result` puts them together: there is exactly one such scan, the switch has the value of
the body that it chooses, it evaluates nothing but the discriminant, the tests up to the clause and
the statement chosen, and the body is the one that JavaScript starts from if the default stands
last.
-/

namespace StaticConfig

namespace Clause

/-- The test of a case; a default has none. -/
def test? : Clause → Option Expr
  | mk test _ => test

/-- The statements of the clause. -/
def body : Clause → List Stmt
  | mk _ body => body

end Clause

/-- The first body of the clauses that holds a statement; empty if there is none. -/
def chosenBody (clauses : List Clause) : List Stmt :=
  ((clauses.find? fun clause => !clause.body.isEmpty).map Clause.body).getD []

section Scan

variable (visit : Scope Value → Node → Eval Value) (scope : Scope Value) (discriminant : Value)

/-- The clauses are cases, and their tests evaluate one after the other to values that differ from
the discriminant. -/
def PassesOver (clauses : List Clause) (m after : Machine) : Prop :=
  ∃ (tests : List Expr) (values : List Value), clauses.map Clause.test? = tests.map some ∧
    (tests.mapM (visitExpr visit scope)).run m = (.ok values, after) ∧
      ∀ value ∈ values, value.strictEquals discriminant = false

/-- How a scan ends at the first of the clauses that are left. -/
inductive Ends : List Clause → Machine → Except Fault Unit × Machine → Prop
  /-- No clause is left. -/
  | exhausted (m : Machine) : Ends [] m (.ok (), m)
  /-- A default ends the scan, whatever cases stand after it. -/
  | default (body : List Stmt) (rest : List Clause) (m : Machine) :
    Ends (.mk none body :: rest) m (.ok (), m)
  | equal {test : Expr} {body : List Stmt} {rest : List Clause} {m after : Machine}
      {value : Value} :
    (visitExpr visit scope test).run m = (.ok value, after) →
      value.strictEquals discriminant = true →
        Ends (.mk (some test) body :: rest) m (.ok (), after)
  | fault {test : Expr} {body : List Stmt} {rest : List Clause} {m after : Machine}
      {fault : Fault} :
    (visitExpr visit scope test).run m = (.error fault, after) →
      Ends (.mk (some test) body :: rest) m (.error fault, after)

/-- The scan for the clause that a switch starts from: it passes over the first clauses and ends
at the first one of the rest. -/
structure Scan (clauses : List Clause) (m : Machine) (passed rest : List Clause)
    (ending : Except Fault Unit × Machine) : Prop where
  split : clauses = passed ++ rest
  reaches : ∃ between, PassesOver visit scope discriminant passed m between ∧
    Ends visit scope discriminant rest between ending

/-- The value of a body that was chosen: that of its only statement. -/
def evalChosen : List Stmt → Eval Value
  | [] => return .undefined
  | [statement] => visit scope (.stmt statement)
  | statements => Eval.fail (.arity statements.length)

/-- What a switch comes to after a scan: the value of the body that is chosen, or the fault of a
test. -/
def Scan.outcome (rest : List Clause) : Except Fault Unit × Machine → Except Fault Value × Machine
  | (.ok _, after) => (evalChosen visit scope (chosenBody rest)).run after
  | (.error fault, after) => (.error fault, after)

/-- The nodes that a switch evaluates: the discriminant, the tests up to the clause at which the
scan ends, and the statement of the body that is chosen if it is the only one there. -/
def Scan.nodes (discriminant : Expr) (passed rest : List Clause)
    (ending : Except Fault Unit × Machine) : List Node :=
  .expr discriminant :: ((passed ++ rest.take 1).filterMap Clause.test?).map .expr ++
    match ending.1, chosenBody rest with
    | .ok _, [statement] => [.stmt statement]
    | _, _ => []

end Scan

/-! ### Where JavaScript starts -/

section Script

variable (visit : Scope Value → Node → Eval Value) (scope : Scope Value) (discriminant : Value)

/-- The clauses from the first case on whose test evaluates to the discriminant. Defaults are passed
over. -/
def firstEqual : List Clause → Eval (Option (List Clause))
  | [] => return none
  | .mk none _ :: rest => firstEqual rest
  | .mk (some test) body :: rest => do
    if (← visitExpr visit scope test).strictEquals discriminant then
      return some (.mk (some test) body :: rest)
    else firstEqual rest

/-- The clauses that JavaScript runs through, in two passes: all tests come before the default is
looked at. -/
def scriptStart (clauses : List Clause) : Eval (List Clause) := do
  match ← firstEqual visit scope discriminant clauses with
  | some found => return found
  | none => return clauses.dropWhile (·.test?.isSome)

end Script

/-- No clause but the last one is a default. -/
def DefaultLast (clauses : List Clause) : Prop :=
  ∀ clause ∈ clauses.dropLast, clause.test?.isSome = true

theorem DefaultLast.tail {clause : Clause} {clauses : List Clause}
    (h : DefaultLast (clause :: clauses)) : DefaultLast clauses := by
  cases clauses with
  | nil => exact nofun
  | cons next clauses => exact (List.forall_mem_cons.1 h).2

instance (clauses : List Clause) : Decidable (DefaultLast clauses) :=
  inferInstanceAs (Decidable (∀ clause ∈ clauses.dropLast, clause.test?.isSome = true))

/-! ### Scans -/

section Laws

variable {visit other : Scope Value → Node → Eval Value} {scope : Scope Value} {v : Value}
variable {clauses passed rest : List Clause} {m after between : Machine}
variable {ending : Except Fault Unit × Machine}

theorem passesOver_nil_iff : PassesOver visit scope v [] m after ↔ after = m := by
  constructor
  · rintro ⟨tests, values, htests, hrun, -⟩
    obtain rfl := List.map_eq_nil_iff.1 htests.symm
    exact (Prod.mk.inj hrun).2.symm
  · rintro rfl
    exact ⟨[], [], rfl, rfl, nofun⟩

theorem passesOver_cons_iff {clause : Clause} :
    PassesOver visit scope v (clause :: rest) m after ↔
      ∃ test value between, clause.test? = some test ∧
        (visitExpr visit scope test).run m = (.ok value, between) ∧
          value.strictEquals v = false ∧ PassesOver visit scope v rest between after := by
  constructor
  · rintro ⟨tests, values, htests, hrun, hdiffer⟩
    obtain ⟨test, tests, rfl, htest, hrest⟩ := List.map_eq_cons_iff.1 htests.symm
    rw [List.mapM_cons, Eval.run_bind] at hrun
    -- No test fails, or the whole run would have failed.
    rcases hfirst : (visitExpr visit scope test).run m with ⟨_ | value, between⟩
    · rw [hfirst] at hrun
      cases hrun
    rw [hfirst] at hrun
    dsimp only at hrun
    rw [Eval.run_bind] at hrun
    rcases hothers : (tests.mapM (visitExpr visit scope)).run between with ⟨_ | others, last⟩
    · rw [hothers] at hrun
      cases hrun
    rw [hothers] at hrun
    cases hrun
    obtain ⟨hvalue, hdiffer⟩ := List.forall_mem_cons.1 hdiffer
    exact ⟨test, value, between, htest.symm, hfirst, hvalue, tests, others, hrest.symm, hothers,
      hdiffer⟩
  · rintro ⟨test, value, between, htest, hfirst, hvalue, tests, values, htests, hrun, hdiffer⟩
    refine ⟨test :: tests, value :: values, ?_, ?_, List.forall_mem_cons.2 ⟨hvalue, hdiffer⟩⟩
    · rw [List.map_cons, List.map_cons, htest, htests]
    · rw [List.mapM_cons, Eval.run_bind, hfirst]
      dsimp only
      rw [Eval.run_bind, hrun]
      rfl

/-- A scan passes over a case whose test differs. -/
theorem Scan.pass {test : Expr} {body : List Stmt} {value : Value}
    (hrun : (visitExpr visit scope test).run m = (.ok value, between))
    (hvalue : value.strictEquals v = false)
    (h : Scan visit scope v clauses between passed rest ending) :
    Scan visit scope v (.mk (some test) body :: clauses) m (.mk (some test) body :: passed) rest
      ending := by
  obtain ⟨split, last, hpassed, hends⟩ := h
  exact ⟨congrArg _ split, last,
    passesOver_cons_iff.2 ⟨test, value, between, rfl, hrun, hvalue, hpassed⟩, hends⟩

theorem Scan.stop (h : Ends visit scope v clauses m ending) :
    Scan visit scope v clauses m [] clauses ending :=
  ⟨rfl, m, passesOver_nil_iff.2 rfl, h⟩

theorem Scan.of_nil (h : Scan visit scope v clauses m [] rest ending) :
    clauses = rest ∧ Ends visit scope v rest m ending := by
  obtain ⟨split, last, hpassed, hends⟩ := h
  obtain rfl := passesOver_nil_iff.1 hpassed
  exact ⟨split, hends⟩

theorem Scan.of_cons {clause : Clause}
    (h : Scan visit scope v clauses m (clause :: passed) rest ending) :
    ∃ test body left value between, clause = .mk (some test) body ∧ clauses = clause :: left ∧
      (visitExpr visit scope test).run m = (.ok value, between) ∧
        value.strictEquals v = false ∧ Scan visit scope v left between passed rest ending := by
  obtain ⟨split, last, hpassed, hends⟩ := h
  obtain ⟨test, body⟩ := clause
  obtain ⟨test, value, between, rfl, hrun, hvalue, hrest⟩ := passesOver_cons_iff.1 hpassed
  exact ⟨test, body, _, value, between, rfl, split, hrun, hvalue, rfl, last, hrest, hends⟩

/-- Every scan comes to an end: a clause is a default, or its test fails, is equal or differs. -/
theorem exists_scan (clauses : List Clause) (m : Machine) :
    ∃ passed rest ending, Scan visit scope v clauses m passed rest ending := by
  induction clauses generalizing m with
  | nil => exact ⟨_, _, _, .stop (.exhausted m)⟩
  | cons clause clauses ih =>
    obtain ⟨_ | test, body⟩ := clause
    · exact ⟨_, _, _, .stop (.default body clauses m)⟩
    rcases hrun : (visitExpr visit scope test).run m with ⟨fault | value, after⟩
    · exact ⟨_, _, _, .stop (.fault hrun)⟩
    cases hvalue : value.strictEquals v with
    | true => exact ⟨_, _, _, .stop (.equal hrun hvalue)⟩
    | false =>
      obtain ⟨passed, rest, ending, h⟩ := ih after
      exact ⟨_, _, _, h.pass hrun hvalue⟩

/-! ### What the scan does -/

theorem chosenBody_cons (clause : Clause) (clauses : List Clause) :
    chosenBody (clause :: clauses) =
      if clause.body.isEmpty then chosenBody clauses else clause.body := by
  unfold chosenBody
  rw [List.find?_cons]
  cases clause.body.isEmpty <;> rfl

/-- Once a clause has matched, only bodies are looked at. -/
theorem evalClauses_matched (clauses : List Clause) :
    evalClauses visit scope v true clauses = evalChosen visit scope (chosenBody clauses) := by
  induction clauses with
  | nil => rfl
  | cons clause clauses ih =>
    obtain ⟨test, body⟩ := clause
    rw [chosenBody_cons, Clause.body]
    cases body with
    | nil => cases test <;> exact ih
    | cons statement statements => cases test <;> cases statements <;> rfl

theorem run_evalClauses_case {test : Expr} {body : List Stmt} :
    (evalClauses visit scope v false (.mk (some test) body :: clauses)).run m =
      match (visitExpr visit scope test).run m with
      | (.ok value, after) =>
        if value.strictEquals v then
          (evalClauses visit scope v true (.mk (some test) body :: clauses)).run after
        else (evalClauses visit scope v false clauses).run after
      | (.error fault, after) => (.error fault, after) := by
  rw [evalClauses, if_neg Bool.false_ne_true, Eval.run_bind]
  rcases (visitExpr visit scope test).run m with ⟨fault | value, after⟩
  · rfl
  · dsimp only
    cases value.strictEquals v <;> rfl

/-- The clause at which the scan ends is the first one whose body may be chosen. -/
theorem run_evalClauses_of_ends (h : Ends visit scope v clauses m ending) :
    (evalClauses visit scope v false clauses).run m =
      Scan.outcome visit scope clauses ending := by
  cases h with
  | exhausted => rfl
  | default body rest =>
    rw [Scan.outcome, ← evalClauses_matched]
    rfl
  | equal hrun hvalue =>
    rw [Scan.outcome, ← evalClauses_matched, run_evalClauses_case, hrun]
    exact if_pos hvalue
  | fault hrun =>
    rw [run_evalClauses_case, hrun]
    rfl

theorem run_evalClauses_of_scan (h : Scan visit scope v clauses m passed rest ending) :
    (evalClauses visit scope v false clauses).run m = Scan.outcome visit scope rest ending := by
  induction passed generalizing clauses m with
  | nil =>
    obtain ⟨rfl, hends⟩ := h.of_nil
    exact run_evalClauses_of_ends hends
  | cons clause passed ih =>
    obtain ⟨test, body, left, value, between, rfl, rfl, hrun, hvalue, hrest⟩ := h.of_cons
    rw [run_evalClauses_case, hrun]
    dsimp only
    rw [hvalue]
    exact ih hrest

/-! ### What a switch depends on -/

theorem Ends.unique {other : Except Fault Unit × Machine} (h : Ends visit scope v clauses m ending)
    (h' : Ends visit scope v clauses m other) : ending = other := by
  cases h with
  | exhausted | default => cases h'; rfl
  | equal hrun hvalue =>
    cases h' with
    | equal hrun' => cases hrun.symm.trans hrun'; rfl
    | fault hrun' => cases hrun.symm.trans hrun'
  | fault hrun =>
    cases h' with
    | equal hrun' => cases hrun.symm.trans hrun'
    | fault hrun' => cases hrun.symm.trans hrun'; rfl

/-- A scan does not end at a case whose test differs. -/
theorem Ends.not_differs {test : Expr} {body : List Stmt} {value : Value}
    (h : Ends visit scope v (.mk (some test) body :: clauses) m ending)
    (hrun : (visitExpr visit scope test).run m = (.ok value, between)) :
    value.strictEquals v ≠ false := by
  cases h with
  | equal hrun' hvalue =>
    cases hrun.symm.trans hrun'
    rw [hvalue]
    exact Bool.noConfusion
  | fault hrun' => cases hrun.symm.trans hrun'

theorem Scan.unique {passed' rest' : List Clause} {ending' : Except Fault Unit × Machine}
    (h : Scan visit scope v clauses m passed rest ending)
    (h' : Scan visit scope v clauses m passed' rest' ending') :
    passed = passed' ∧ rest = rest' ∧ ending = ending' := by
  induction passed generalizing clauses m passed' with
  | nil =>
    obtain ⟨rfl, hends⟩ := h.of_nil
    cases passed' with
    | nil =>
      obtain ⟨rfl, hends'⟩ := h'.of_nil
      exact ⟨rfl, rfl, hends.unique hends'⟩
    | cons clause' passed' =>
      obtain ⟨test, body, left, value, between, rfl, rfl, hrun, hvalue, -⟩ := h'.of_cons
      exact absurd hvalue (hends.not_differs hrun)
  | cons clause passed ih =>
    obtain ⟨test, body, left, value, between, rfl, rfl, hrun, hvalue, hrest⟩ := h.of_cons
    cases passed' with
    | nil =>
      obtain ⟨rfl, hends'⟩ := h'.of_nil
      exact absurd hvalue (hends'.not_differs hrun)
    | cons clause' passed' =>
      obtain ⟨test', body', left', value', between', rfl, hleft, hrun', -, hrest'⟩ := h'.of_cons
      cases hleft
      cases hrun.symm.trans hrun'
      obtain ⟨rfl, rfl, rfl⟩ := ih hrest hrest'
      exact ⟨rfl, rfl, rfl⟩

theorem Ends.congr (h : Ends visit scope v clauses m ending)
    (hagree : ∀ test ∈ (clauses.take 1).filterMap Clause.test?,
      other scope (.expr test) = visit scope (.expr test)) :
    Ends other scope v clauses m ending := by
  have hsame {test : Expr} {body : List Stmt} {rest : List Clause}
      (hclauses : clauses = .mk (some test) body :: rest) :
      visitExpr other scope test = visitExpr visit scope test := by
    subst hclauses
    exact hagree test (List.mem_singleton_self test)
  cases h with
  | exhausted => exact .exhausted m
  | default body rest => exact .default body rest m
  | equal hrun hvalue => exact .equal ((congrArg (·.run m) (hsame rfl)).trans hrun) hvalue
  | fault hrun => exact .fault ((congrArg (·.run m) (hsame rfl)).trans hrun)

/-- A scan looks at no more than the tests up to the clause at which it ends. -/
theorem Scan.congr (h : Scan visit scope v clauses m passed rest ending)
    (hagree : ∀ test ∈ (passed ++ rest.take 1).filterMap Clause.test?,
      other scope (.expr test) = visit scope (.expr test)) :
    Scan other scope v clauses m passed rest ending := by
  induction passed generalizing clauses m with
  | nil =>
    obtain ⟨rfl, hends⟩ := h.of_nil
    exact .stop (hends.congr hagree)
  | cons clause passed ih =>
    obtain ⟨test, body, left, value, between, rfl, rfl, hrun, hvalue, hrest⟩ := h.of_cons
    obtain ⟨htest, htests⟩ := List.forall_mem_cons.1 hagree
    exact (ih hrest htests).pass ((congrArg (·.run m) htest).trans hrun) hvalue

theorem Scan.outcome_congr
    (hagree : ∀ statement, chosenBody rest = [statement] → ending.1 = .ok () →
      other scope (.stmt statement) = visit scope (.stmt statement)) :
    Scan.outcome other scope rest ending = Scan.outcome visit scope rest ending := by
  obtain ⟨fault | done, after⟩ := ending
  · rfl
  rw [Scan.outcome, Scan.outcome]
  cases hbody : chosenBody rest with
  | nil => rfl
  | cons statement statements =>
    cases statements with
    | nil => exact congrArg (·.run after) (hagree statement hbody rfl)
    | cons => rfl

/-! ### A default at the end -/

/-- A body of at most one statement is worth its first statement. -/
theorem evalChosen_chosenBody (h : ∀ clause ∈ clauses, clause.body.length ≤ 1) :
    evalChosen visit scope (chosenBody clauses) = evalBlock visit scope (chosenBody clauses) := by
  have hbody : (chosenBody clauses).length ≤ 1 := by
    unfold chosenBody
    cases hfind : clauses.find? fun clause => !clause.body.isEmpty with
    | none => exact Nat.zero_le 1
    | some clause => exact h clause (List.mem_of_find?_eq_some hfind)
  cases hchosen : chosenBody clauses with
  | nil => rfl
  | cons statement statements =>
    rw [hchosen] at hbody
    obtain rfl := List.eq_nil_of_length_eq_zero (Nat.le_zero.1 (Nat.le_of_succ_le_succ hbody))
    rfl

theorem run_scriptStart_case {α : Type} {test : Expr} {body : List Stmt}
    (next : List Clause → Eval α) :
    (scriptStart visit scope v (.mk (some test) body :: clauses) >>= next).run m =
      match (visitExpr visit scope test).run m with
      | (.ok value, after) =>
        if value.strictEquals v then (next (.mk (some test) body :: clauses)).run after
        else (scriptStart visit scope v clauses >>= next).run after
      | (.error fault, after) => (.error fault, after) := by
  rw [scriptStart, Eval.run_bind, Eval.run_bind, firstEqual, Eval.run_bind]
  rcases (visitExpr visit scope test).run m with ⟨fault | value, after⟩
  · rfl
  dsimp only
  cases value.strictEquals v with
  | true => rfl
  | false =>
    rw [if_neg Bool.false_ne_true, if_neg Bool.false_ne_true, scriptStart, Eval.run_bind,
      Eval.run_bind]
    rfl

/-- With the default at the end, the scan and the two passes evaluate the same tests and start from
the same clause. -/
theorem run_evalClauses_eq_script (hdefault : DefaultLast clauses)
    (hbodies : ∀ clause ∈ clauses, clause.body.length ≤ 1) :
    (evalClauses visit scope v false clauses).run m =
      (scriptStart visit scope v clauses >>= fun start =>
        evalBlock visit scope (chosenBody start)).run m := by
  induction clauses generalizing m with
  | nil => rfl
  | cons clause clauses ih =>
    obtain ⟨_ | test, body⟩ := clause
    · -- A default can only be the last clause.
      cases clauses with
      | nil =>
        rw [run_evalClauses_of_ends (.default body [] m), Scan.outcome,
          evalChosen_chosenBody hbodies]
        rfl
      | cons next clauses => cases hdefault _ List.mem_cons_self
    · rw [run_evalClauses_case, run_scriptStart_case, evalClauses_matched,
        evalChosen_chosenBody hbodies]
      rcases (visitExpr visit scope test).run m with ⟨fault | value, after⟩
      · rfl
      · dsimp only
        rw [ih hdefault.tail (List.forall_mem_cons.1 hbodies).2]

end Laws

/-! ### The result of a switch -/

/-- **Switch.** If the discriminant fails, so does the switch. Otherwise there is one scan for the
first clause that is a default or has a test equal to the discriminant, and the switch comes to the
value of the first body from that clause on: of its only statement, the fault about their number if
there are more, and undefined if there is no such clause or body. A test that fails before is the
fault of the switch. The discriminant is evaluated once, before the scan, and nothing depends on
what any node would do but those of `Scan.nodes`. With the default at the end and no body of more
than one statement, the switch has the value of the body that JavaScript starts from. All this
holds for any way to evaluate the nodes inside, in particular for what the evaluator does below its
limit. -/
theorem switch_result (definitions : Definitions) (visit : Scope Value → Node → Eval Value)
    (scope : Scope Value) (span : Span) (discriminant : Expr) (clauses : List Clause)
    (m : Machine) :
    let switch := fun visit => evalStmt definitions visit scope (.switch span discriminant clauses)
    (∀ limit remaining, visit = evaluate definitions limit remaining →
      evaluate definitions limit (remaining + 1) scope (.stmt (.switch span discriminant clauses)) =
        Eval.within span (switch visit)) ∧
    (∀ fault after, (visit scope (.expr discriminant)).run m = (.error fault, after) →
      (switch visit).run m = (.error fault, after)) ∧
    (∀ v between, (visit scope (.expr discriminant)).run m = (.ok v, between) →
      (∃! scan : List Clause × List Clause × (Except Fault Unit × Machine),
        Scan visit scope v clauses between scan.1 scan.2.1 scan.2.2) ∧
      ∀ passed rest ending, Scan visit scope v clauses between passed rest ending →
        (switch visit).run m = Scan.outcome visit scope rest ending ∧
        ∀ other : Scope Value → Node → Eval Value,
          (∀ node ∈ Scan.nodes discriminant passed rest ending,
            other scope node = visit scope node) →
          (switch other).run m = (switch visit).run m) ∧
    (DefaultLast clauses → (∀ clause ∈ clauses, clause.body.length ≤ 1) →
      (switch visit).run m =
        (visit scope (.expr discriminant) >>= fun v =>
          scriptStart visit scope v clauses >>= fun start =>
            evalBlock visit scope (chosenBody start)).run m) := by
  intro switch
  -- The discriminant comes first, and only its value reaches the clauses.
  have hswitch (visit : Scope Value → Node → Eval Value) :
      (switch visit).run m =
        match (visit scope (.expr discriminant)).run m with
        | (.ok v, between) => (evalClauses visit scope v false clauses).run between
        | (.error fault, after) => (.error fault, after) := by
    show (evalStmt definitions visit scope _).run m = _
    rw [evalStmt, Eval.run_bind, visitExpr]
    rcases (visit scope (.expr discriminant)).run m with ⟨fault | v, between⟩ <;> rfl
  refine ⟨?_, fun fault after hrun => ?_, fun v between hrun => ⟨?_, ?_⟩,
    fun hdefault hbodies => ?_⟩
  · rintro limit remaining rfl
    rfl
  · rw [hswitch, hrun]
  · obtain ⟨passed, rest, ending, hscan⟩ : ∃ passed rest ending,
        Scan visit scope v clauses between passed rest ending :=
      exists_scan clauses between
    refine ⟨(passed, rest, ending), hscan, fun scan' hscan' => ?_⟩
    obtain ⟨hpassed, hrest, hending⟩ := hscan'.unique hscan
    exact Prod.ext hpassed (Prod.ext hrest hending)
  · intro passed rest ending hscan
    have hresult : (switch visit).run m = Scan.outcome visit scope rest ending := by
      rw [hswitch, hrun]
      exact run_evalClauses_of_scan hscan
    refine ⟨hresult, fun other hagree => ?_⟩
    -- The nodes of a scan: the discriminant, the tests it evaluates, the one statement chosen.
    obtain ⟨hdiscriminant, hagree⟩ := List.forall_mem_cons.1 hagree
    obtain ⟨htests, hstatements⟩ := List.forall_mem_append.1 hagree
    rw [hresult, hswitch, hdiscriminant, hrun]
    have hscan' : Scan other scope v clauses between passed rest ending :=
      hscan.congr fun test htest => htests _ (List.mem_map_of_mem htest)
    refine (run_evalClauses_of_scan hscan').trans (Scan.outcome_congr ?_)
    intro statement hbody hending
    rw [hbody, hending] at hstatements
    exact hstatements _ (List.mem_singleton_self _)
  · rw [hswitch, Eval.run_bind]
    rcases (visit scope (.expr discriminant)).run m with ⟨fault | v, between⟩
    · rfl
    · exact run_evalClauses_eq_script hdefault hbodies

/-! ### A default that is fallen into -/

namespace Switching

open Snippet (place visit)

/-- A clause whose body, if any, is `return "result";`. -/
def clause (start : Nat) (test? result? : Option String) : Clause :=
  .mk (test?.map (.string (place (start + 5) (start + 8))))
    (result?.map fun result =>
      Stmt.result (place (start + 10) (start + 20)) (some (.string (place (start + 17) (start + 19))
        result))).toList

/-- `"b"`, the discriminant. -/
def discriminant : Expr := .string (place 8 11) "b"

/-- `case "a": return "x";`, then `case "b":` with no body, then `default: return "y";`. -/
def clauses : List Clause :=
  [clause 20 (some "a") (some "x"), clause 50 (some "b") none, clause 80 none (some "y")]

/-- The same without the body of the first clause, at which it fails. -/
def visitOthers (scope : Scope Value) (node : Node) : Eval Value :=
  if node.span = place 30 40 then Eval.fail (.arity 0) else visit scope node

/-- The second case matches and the default has the first body from there on, as in JavaScript. -/
theorem switch_result_fallsThrough :
    (visit .root (.expr discriminant)).run .start = (.ok (.string "b"), .start) ∧
      Scan visit .root (.string "b") clauses .start (clauses.take 1) (clauses.drop 1)
        (.ok (), .start) ∧
      DefaultLast clauses ∧ (∀ clause ∈ clauses, clause.body.length ≤ 1) ∧
      (evalStmt .none visit .root (.switch (place 0 100) discriminant clauses)).run .start =
        (.ok (.string "y"), .start) ∧
      (evalStmt .none visitOthers .root (.switch (place 0 100) discriminant clauses)).run .start =
        (.ok (.string "y"), .start) ∧
      (visit .root (.expr discriminant) >>= fun v => scriptStart visit .root v clauses >>=
        fun start => evalBlock visit .root (chosenBody start)).run .start =
          (.ok (.string "y"), .start) := by
  have hdiscriminant : (visit .root (.expr discriminant)).run .start =
      (.ok (.string "b"), .start) := rfl
  have hfirst : (visitExpr visit .root (.string (place 25 28) "a")).run .start =
      (.ok (.string "a"), .start) := rfl
  have hsecond : (visitExpr visit .root (.string (place 55 58) "b")).run .start =
      (.ok (.string "b"), .start) := rfl
  have hscan : Scan visit .root (.string "b") clauses .start (clauses.take 1) (clauses.drop 1)
      (.ok (), .start) :=
    .pass hfirst (by decide +kernel) (.stop (.equal hsecond (by decide +kernel)))
  have hdefault : DefaultLast clauses := by decide
  have hbodies : ∀ clause ∈ clauses, clause.body.length ≤ 1 := by decide
  obtain ⟨-, -, hresult, hscript⟩ :=
    switch_result .none visit .root (place 0 100) discriminant clauses .start
  obtain ⟨hrun, hothers⟩ := (hresult _ _ hdiscriminant).2 _ _ _ hscan
  refine ⟨hdiscriminant, hscan, hdefault, hbodies, hrun, ?_, ?_⟩
  · refine (hothers visitOthers fun node hnode => ?_).trans hrun
    have hplace : ∀ node ∈ Scan.nodes discriminant (clauses.take 1) (clauses.drop 1)
        (.ok (), .start), node.span ≠ place 30 40 := by decide
    exact if_neg (hplace node hnode)
  · exact (hscript hdefault hbodies).symm.trans hrun

end Switching

end StaticConfig
