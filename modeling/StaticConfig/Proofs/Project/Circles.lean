import Mathlib.Data.Fin.Basic
import StaticConfig.Proofs.Project.Search
import StaticConfig.Proofs.Snippet

/-!
# Declarations in a circle

A declaration whose value is a name is evaluated by going on to the declaration of that name. If
declarations refer to each other in a circle, through any imports and with any wrappers around the
names, an evaluation of one of them goes on for ever: nothing but the limit ends it, whatever
remainder the limit leaves on the last time round.

- `Definitions.GoesOn`: in the root scope, the evaluation of one node is that of another one, a step
  further in;
- `evaluate_of_endless`: where it always goes on, every number of steps is used up;
- `eval_of_circle`: so it is for declarators that refer to each other in a circle.
-/

namespace StaticConfig

/-! ### Going on from node to node -/

/-- In the root scope, the evaluation of a node goes on to another node, whose value it takes. -/
inductive Definitions.GoesOn (definitions : Definitions) : Node → Node → Prop
  | init {declarator : Declarator} {e : Expr} :
    declarator.init? = some e → GoesOn definitions (.declarator declarator) (.expr e)
  | inner (span : Span) (wrapper : Wrapper) (e : Expr) :
    GoesOn definitions (.expr (.wrapped span wrapper e)) (.expr e)
  | name {ident : Ident} {first : Node} {rest : List Node} :
    ident.name ≠ "undefined" → definitions.candidates ident = first :: rest →
      GoesOn definitions (.expr (.identifier ident)) first

section

variable {definitions : Definitions}

theorem evalNode_of_goesOn {node next : Node} (h : definitions.GoesOn node next)
    (visit : Scope Value → Node → Eval Value) :
    evalNode definitions visit .root node = visit .root next := by
  cases h with
  | init hinit =>
    rw [evalNode, hinit]
    rfl
  | inner => rfl
  | name hname hcandidates =>
    show evalName definitions visit .root _ = _
    simp only [evalName, if_neg hname, Scope.lookup?_root, hcandidates]

/-- By induction on the steps that may still be nested: each of them is spent on going on, the fault
comes up at the end, and on the way back every step takes its span off the trail. -/
theorem evaluate_of_endless {ahead : Node → Prop}
    (h : ∀ node, ahead node → ∃ next, definitions.GoesOn node next ∧ ahead next)
    (limit remaining : Nat) {node : Node} (hnode : ahead node) (m : Machine) :
    (evaluate definitions limit remaining .root node).run m =
      (.error (.recursionLimit limit), m) := by
  induction remaining generalizing node m with
  | zero => rfl
  | succ remaining ih =>
    obtain ⟨next, hgoes, hnext⟩ := h node hnode
    rw [evaluate, Eval.run_within, evalNode_of_goesOn hgoes, ih hnext]
    rfl

end

/-! ### Declarators that refer to each other -/

/-- Whether an expression is a name, in any wrappers. -/
inductive Expr.Wraps (ident : Ident) : Expr → Prop
  | bare : Wraps ident (.identifier ident)
  | wrapped {e : Expr} (span : Span) (wrapper : Wrapper) :
    Wraps ident e → Wraps ident (.wrapped span wrapper e)

namespace Project

section

variable (project : Project)

/-- Whether an expression is a name, in any wrappers, of which a declarator is the first
candidate. -/
def Means (e : Expr) (declarator : Declarator) : Prop :=
  ∃ ident rest, e.Wraps ident ∧ ident.name ≠ "undefined" ∧
    project.candidates ident = .declarator declarator :: rest

/-- Whether the initializer of a declarator is a name that means another one. -/
def RefersTo (declarator next : Declarator) : Prop :=
  ∃ e, declarator.init? = some e ∧ project.Means e next

end

variable {project : Project}

/-- Through its wrappers, an expression that means a declarator leads to it. -/
theorem Means.goesOn {e : Expr} {declarator : Declarator} (h : project.Means e declarator) :
    ∃ next, project.definitions.GoesOn (.expr e) next ∧
      (next = .declarator declarator ∨ ∃ inner, next = .expr inner ∧
        project.Means inner declarator) := by
  obtain ⟨ident, rest, hwraps, hname, hcandidates⟩ := h
  cases hwraps with
  | bare => exact ⟨_, .name hname hcandidates, .inl rfl⟩
  | wrapped span wrapper hinner =>
    exact ⟨_, .inner span wrapper _, .inr ⟨_, rfl, ident, rest, hinner, hname, hcandidates⟩⟩

/-- **Circles end at the limit.** If each of some declarators refers to the next one and the last
one to the first one, then under every limit each of them stops at the limit, for no other reason,
and leaves the trail empty. -/
theorem eval_of_circle (project : Project) {n : Nat} (declarators : Fin (n + 1) → Declarator)
    (hcircle : ∀ i, project.RefersTo (declarators i) (declarators (i + 1)))
    (limit supply : Nat) (i : Fin (n + 1)) :
    ((project.evaluator limit).eval .root (.declarator (declarators i))).run ⟨[], supply⟩ =
      (.error (.recursionLimit limit), ⟨[], supply⟩) := by
  -- What comes up on the way round: the declarators, and what of their initializers is left.
  let ahead (node : Node) : Prop :=
    ∃ i, node = .declarator (declarators i) ∨
      ∃ e, node = .expr e ∧ project.Means e (declarators i)
  have hahead : ∀ node, ahead node → ∃ next, project.definitions.GoesOn node next ∧ ahead next := by
    rintro node ⟨i, rfl | ⟨e, rfl, hmeans⟩⟩
    · obtain ⟨e, hinit, hmeans⟩ := hcircle i
      exact ⟨.expr e, .init hinit, i + 1, .inr ⟨e, rfl, hmeans⟩⟩
    · obtain ⟨next, hgoes, hnext⟩ := hmeans.goesOn
      exact ⟨next, hgoes, i, hnext⟩
  exact evaluate_of_endless hahead limit limit ⟨i, .inl rfl⟩ _

/-! ### Two files that import from each other -/

namespace Mutual

open Snippet (path)

/-- `a = (b)` in the one file. -/
def first : Declarator :=
  .mk ⟨path "main.ts", 42, 49⟩ (some "a") (some (.wrapped ⟨path "main.ts", 46, 49⟩ .parentheses
    (.identifier ⟨"b", ⟨path "main.ts", 47, 48⟩⟩)))

/-- `b = a as any` in the other file. -/
def second : Declarator :=
  .mk ⟨path "other.ts", 41, 53⟩ (some "b") (some (.wrapped ⟨path "other.ts", 45, 53⟩ .asType
    (.identifier ⟨"a", ⟨path "other.ts", 45, 46⟩⟩)))

def main : SourceFile where
  path := path "main.ts"
  text := "import \x7b b \x7d from './other';\nexport const a = (b);"
  module := ⟨[.imports false "./other" [.named false "b" "b"],
    .exported (.declares ⟨path "main.ts", 36, 50⟩ [first])]⟩
  targets := [("./other", path "other.ts")]

def other : SourceFile where
  path := path "other.ts"
  text := "import \x7b a \x7d from './main';\nexport const b = a as any;"
  module := ⟨[.imports false "./main" [.named false "a" "a"],
    .exported (.declares ⟨path "other.ts", 35, 54⟩ [second])]⟩
  targets := [("./main", path "main.ts")]

def sample : Project := (Project.empty.add main [] rfl).add other [] rfl

/-- The two declarators in turn. -/
def declarators : Fin 2 → Declarator
  | 0 => first
  | 1 => second

theorem refersTo_next : ∀ i, sample.RefersTo (declarators i) (declarators (i + 1))
  | 0 => ⟨_, rfl, ⟨"b", ⟨path "main.ts", 47, 48⟩⟩, [], .wrapped _ _ .bare, by decide, rfl⟩
  | 1 => ⟨_, rfl, ⟨"a", ⟨path "other.ts", 45, 46⟩⟩, [], .wrapped _ _ .bare, by decide, rfl⟩

/-- One round takes six steps, which the usual number of steps is no multiple of. -/
theorem eval_of_circle_twoFiles :
    (∀ i, sample.RefersTo (declarators i) (declarators (i + 1))) ∧
      ((sample.evaluator defaultLimit).eval .root (.declarator second)).run ⟨[], 3⟩ =
        (.error (.recursionLimit 1024), ⟨[], 3⟩) :=
  ⟨refersTo_next, eval_of_circle sample declarators refersTo_next defaultLimit 3 1⟩

end Mutual

end Project

end StaticConfig
