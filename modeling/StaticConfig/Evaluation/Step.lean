import StaticConfig.Fault
import StaticConfig.Value.Basic

/-!
# Steps of an evaluation

An evaluation runs on a small machine: the trail of the spans that are being evaluated, innermost
first, and the supply of tags for what it builds. A run always returns the machine, also when it
fails, and `within` takes a span off the trail again however the step inside it ends.

The trail is there for diagnostics: a form that cannot be evaluated is quoted together with the
innermost step around it.
-/

namespace StaticConfig

/-- The state of a running evaluation. -/
structure Machine where
  /-- The spans of the active steps, innermost first. -/
  trail : List Span
  /-- The next tag that no value carries yet. -/
  supply : Nat

/-- The machine before any step: an empty trail and all tags still to be drawn. -/
def Machine.start : Machine := ⟨[], 0⟩

/-- A computation on the machine that may stop with a fault. -/
abbrev Eval (α : Type) : Type := ExceptT Fault (StateM Machine) α

/-- What an evaluation asks of its surroundings: the declarations that a name may refer to, best
first, and the source text of a span. -/
structure Definitions where
  candidates : Ident → List Node
  sourceText : Span → Option String

/-- Surroundings without any declarations or text. -/
def Definitions.none : Definitions := ⟨fun _ => [], fun _ => Option.none⟩

namespace Eval

/-- Stops with a fault. -/
def fail {α : Type} (fault : Fault) : Eval α := throw fault

/-- Draws a tag. -/
def fresh : Eval Nat := modifyGet fun m => (m.supply, ⟨m.trail, m.supply + 1⟩)

/-- Runs a step with `span` on the trail. -/
def within {α : Type} (span : Span) (step : Eval α) : Eval α :=
  ExceptT.mk fun m =>
    let (result, after) := step.run ⟨span :: m.trail, m.supply⟩
    (result, ⟨after.trail.tail, after.supply⟩)

/-- A list value of its own. -/
def newList (items : List Value) : Eval Value := return .list (← fresh) items

/-- A record value of its own. -/
def newRecord (fields : Record Value) : Eval Value := return .record (← fresh) fields

/-- An arrow function value of its own. -/
def newClosure (code : ArrowCode) (scope : Scope Value) : Eval Value :=
  return .closure (← fresh) code scope

/-- A method value of its own. -/
def newMethod (receiver : Value) (method : Method) : Eval Value :=
  return .method (← fresh) receiver method

/-! ### What a run does -/

theorem run_bind {α β : Type} (step : Eval α) (next : α → Eval β) (m : Machine) :
    (step >>= next).run m =
      match step.run m with
      | (.ok a, after) => (next a).run after
      | (.error fault, after) => (.error fault, after) := by
  show (ExceptT.bind step next).run m = _
  simp only [ExceptT.bind, ExceptT.bindCont, ExceptT.mk, ExceptT.run, bind, StateT.bind]
  rcases step m with ⟨result, after⟩
  cases result <;> rfl

theorem run_bind_ok {α β : Type} {step : Eval α} {a : α} {m after : Machine}
    (h : step.run m = (.ok a, after)) (next : α → Eval β) :
    (step >>= next).run m = (next a).run after := by
  rw [run_bind, h]

theorem run_bind_error {α β : Type} {step : Eval α} {fault : Fault} {m after : Machine}
    (h : step.run m = (.error fault, after)) (next : α → Eval β) :
    (step >>= next).run m = (.error fault, after) := by
  rw [run_bind, h]

theorem run_within {α : Type} (span : Span) (step : Eval α) (m : Machine) :
    (within span step).run m =
      let outcome := step.run ⟨span :: m.trail, m.supply⟩
      (outcome.1, ⟨outcome.2.trail.tail, outcome.2.supply⟩) := rfl

theorem run_within_of {α : Type} {span : Span} {step : Eval α} {trail : List Span}
    {supply after : Nat} {result : Except Fault α}
    (h : step.run ⟨span :: trail, supply⟩ = (result, ⟨span :: trail, after⟩)) :
    (within span step).run ⟨trail, supply⟩ = (result, ⟨trail, after⟩) := by
  rw [run_within, h]
  rfl

end Eval

/-! ### Quoting -/

/-- The longest text that a diagnostic quotes in full. -/
def quoteLimit : Nat := 120

/-- The text, cut to `quoteLimit` characters if it is longer. -/
def abbreviate (text : String) : String :=
  if text.toList.length ≤ quoteLimit then text
  else String.ofList (text.toList.take (quoteLimit - 3)) ++ "..."

/-- The text of a span as diagnostics quote it. -/
def Definitions.quote? (d : Definitions) (span : Span) : Option String :=
  (d.sourceText span).map abbreviate

/-- Stops because of a form that cannot be evaluated, quoting it and the innermost other span of
the trail. -/
def Definitions.unsupported {α : Type} (d : Definitions) (kind : Kind) (span : Span) : Eval α := do
  let m ← get
  let parent := (m.trail.find? (· ≠ span)).bind d.quote?
  Eval.fail (.unsupportedConstruct kind ((d.quote? span).getD "") parent)

end StaticConfig
