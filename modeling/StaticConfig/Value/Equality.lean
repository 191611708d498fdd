import StaticConfig.Value.Basic

/-!
# Strict equality

Primitive values are compared by value and functions by identity. Lists and records are equal if
they are one and the same or if their contents are: lists item by item, records key by key in any
order.
-/

namespace StaticConfig

/-- The values of a record are smaller than the record. -/
theorem Record.sizeOf_of_mem {α : Type} [SizeOf α] {r : Record α} {entry : String × α}
    (h : entry ∈ r.entries) : sizeOf entry.2 < sizeOf r := by
  obtain ⟨entries⟩ := r
  have hentry := List.sizeOf_lt_of_mem h
  have hvalue : sizeOf entry = 1 + sizeOf entry.1 + sizeOf entry.2 := rfl
  simp only [Record.mk.sizeOf_spec] at hentry ⊢
  omega

theorem Record.sizeOf_of_get? {α : Type} [SizeOf α] {r : Record α} {key : String} {value : α}
    (h : r.get? key = some value) : sizeOf value < sizeOf r := by
  obtain ⟨before, after, hsplit, -⟩ := List.lookup_eq_some_iff.1 h
  have hentry : (key, value) ∈ r.entries :=
    hsplit ▸ List.mem_append_right before List.mem_cons_self
  exact sizeOf_of_mem hentry

namespace Value

mutual

/-- Strict equality of values. -/
def strictEquals : Value → Value → Bool
  | .undefined, .undefined => true
  | .null, .null => true
  | .bool a, .bool b => a == b
  | .number a, .number b => a.equals b
  | .string a, .string b => a == b
  | .list s xs, .list t ys => s == t || equalItems xs ys
  | .record s r, .record t other =>
    s == t || (r.size == other.size && equalFields r.entries other)
  | .closure s .., .closure t .. => s == t
  | .method s .., .method t .. => s == t
  | _, _ => false
termination_by v w => sizeOf v + sizeOf w
decreasing_by
  · simp only [list.sizeOf_spec]
    omega
  · cases r
    simp only [record.sizeOf_spec, Record.mk.sizeOf_spec]
    omega

/-- Equality item by item. -/
def equalItems : List Value → List Value → Bool
  | [], [] => true
  | x :: xs, y :: ys => strictEquals x y && equalItems xs ys
  | _, _ => false
termination_by xs ys => sizeOf xs + sizeOf ys

/-- Whether the record has every one of the entries, with a value to which theirs is equal. -/
def equalFields : List (String × Value) → Record Value → Bool
  | [], _ => true
  | (key, value) :: rest, other =>
    -- The sides change with each record on the way down: what is looked up comes first.
    (match _h : other.get? key with
      | some theirs => strictEquals theirs value
      | none => false) && equalFields rest other
termination_by entries other => sizeOf entries + sizeOf other
decreasing_by
  · have htheirs := Record.sizeOf_of_get? _h
    simp only [List.cons.sizeOf_spec, Prod.mk.sizeOf_spec]
    omega
  · simp only [List.cons.sizeOf_spec]
    omega

end

end Value

end StaticConfig
