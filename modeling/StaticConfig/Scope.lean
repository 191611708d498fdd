/-!
# Scopes

A scope is a chain of frames, innermost first, each a list of bindings. Extending a scope adds one
frame and leaves the old scope as it was, so closures may keep the scope they were made in. A name
means its last binding in the innermost frame that binds it (`lookup?_extend`).
-/

namespace StaticConfig

/-- Frames of bindings, the innermost first. -/
structure Scope (α : Type) where
  frames : List (List (String × α))

namespace Scope

variable {α : Type}

/-- The scope that binds nothing and has no frames. -/
def root : Scope α := ⟨[]⟩

instance : Inhabited (Scope α) := ⟨root⟩

/-- Whether the scope has no frames; a frame without bindings is a frame. -/
def isRoot (s : Scope α) : Bool := s.frames.isEmpty

/-- Adds an innermost frame. -/
def extend (s : Scope α) (bindings : List (String × α)) : Scope α := ⟨bindings :: s.frames⟩

/-- Adds an innermost frame of one binding. -/
def bind (s : Scope α) (name : String) (value : α) : Scope α := s.extend [(name, value)]

/-- The last binding of a name in a frame. -/
def lastBinding? (name : String) (bindings : List (String × α)) : Option α :=
  bindings.reverse.lookup name

/-- The value that a name has in the scope. -/
def lookup? (s : Scope α) (name : String) : Option α := s.frames.findSome? (lastBinding? name)

/-- All bindings in the order in which they were made, the outermost frame first. -/
def bindings (s : Scope α) : List (String × α) := s.frames.reverse.flatten

/-- The names that each frame binds, innermost first. -/
def names (s : Scope α) : List (List String) := s.frames.map (·.map (·.1))

@[simp] theorem lookup?_root (name : String) : (root : Scope α).lookup? name = none := rfl

theorem lookup?_extend (s : Scope α) (added : List (String × α)) (name : String) :
    (s.extend added).lookup? name = (lastBinding? name added).or (s.lookup? name) := by
  unfold extend lookup?
  rw [List.findSome?_cons]
  cases lastBinding? name added <;> rfl

theorem bindings_extend (s : Scope α) (added : List (String × α)) :
    (s.extend added).bindings = s.bindings ++ added := by
  simp [extend, bindings, List.reverse_cons, List.flatten_append]

end Scope

end StaticConfig
