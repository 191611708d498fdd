import StaticConfig.Evaluation.Evaluate

/-!
# Snippets of code

What the snippets of code share on which general statements are tried out: they stand in a file of
the starting directory, mostly in `main.ts`, and some of them are so flat that two steps are enough.
-/

namespace StaticConfig

namespace Snippet

/-- A file of the starting directory. -/
def path (name : String) : Path := ⟨false, [.name name]⟩

/-- A place in `main.ts`. -/
def place (start stop : Nat) : Span := ⟨path "main.ts", start, stop⟩

/-- The evaluator of code without declarations. -/
def evaluator : Evaluator := ⟨.none, 3⟩

/-- Evaluation of code without declarations, with two steps left. -/
def visit : Scope Value → Node → Eval Value := evaluate .none 3 2

/-- The scope in which `xs` is bound to a value. -/
def binding (v : Value) : Scope Value := Scope.root.extend [("xs", v)]

end Snippet

end StaticConfig
