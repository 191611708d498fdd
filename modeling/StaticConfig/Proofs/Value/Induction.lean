import StaticConfig.Value.Basic

/-!
# Induction on values

Values nest through lists, through the entries of records and through the frames of scopes.
`Value.induct` is induction on all of that at once: what follows for a value from its items, from
its fields, from what its scope binds and from its receiver holds of every value.
-/

namespace StaticConfig

/-- Induction on the parts of a value, those that an arrow function keeps included. -/
@[elab_as_elim]
theorem Value.induct {motive : Value → Prop} (undefined : motive .undefined) (null : motive .null)
    (bool : ∀ b, motive (.bool b)) (number : ∀ n, motive (.number n))
    (string : ∀ text, motive (.string text))
    (list : ∀ tag items, (∀ item ∈ items, motive item) → motive (.list tag items))
    (record : ∀ tag (fields : Record Value), (∀ entry ∈ fields.entries, motive entry.2) →
      motive (.record tag fields))
    (closure : ∀ tag code (scope : Scope Value),
      (∀ frame ∈ scope.frames, ∀ binding ∈ frame, motive binding.2) →
      motive (.closure tag code scope))
    (method : ∀ tag receiver m, motive receiver → motive (.method tag receiver m)) (v : Value) :
    motive v := by
  -- The lists inside a value are cases of the recursion of their own.
  refine @Value.rec motive (fun items => ∀ item ∈ items, motive item)
    (fun fields => ∀ entry ∈ fields.entries, motive entry.2)
    (fun scope => ∀ frame ∈ scope.frames, ∀ binding ∈ frame, motive binding.2)
    (fun entries => ∀ entry ∈ entries, motive entry.2)
    (fun frames => ∀ frame ∈ frames, ∀ binding ∈ frame, motive binding.2)
    (fun entry => motive entry.2)
    undefined null bool number string list record closure method ?noItem ?item ?fields ?scope
    ?noEntry ?entry ?noFrame ?frame ?pair v
  case noItem | noEntry | noFrame => exact fun _ h => absurd h List.not_mem_nil
  case item | entry | frame => exact fun _ _ hhead htail => List.forall_mem_cons.2 ⟨hhead, htail⟩
  case fields | scope => exact fun _ h => h
  case pair => exact fun _ _ h => h

end StaticConfig
