/-!
# Records in insertion order

A record maps keys to values and remembers the order in which the keys were first written. Writing
a known key replaces its value in place, so a record shows the last value of each key at the
position of its first write:

- `keys_insert_of_mem`, `toList_insert_of_not_mem`: what `insert` does to the entries;
- `get?_insert`: what it does to look-ups;
- `nodup_keys_insert`: no key is ever listed twice.
-/

namespace StaticConfig

/-- Entries by key, in the order of the keys' first writes. -/
structure Record (α : Type) where
  entries : List (String × α)

namespace Record

variable {α : Type}

/-- The record without entries. -/
def empty : Record α := ⟨[]⟩

instance : Inhabited (Record α) := ⟨empty⟩

/-- The entries as a list, the view that the laws of this module speak about. -/
def toList (r : Record α) : List (String × α) := r.entries

/-- The keys, in order. -/
def keys (r : Record α) : List String := r.entries.map (·.1)

/-- How many keys the record has. -/
def size (r : Record α) : Nat := r.entries.length

/-- Whether the record has no keys. -/
def isEmpty (r : Record α) : Bool := r.entries.isEmpty

/-- The value of a key. -/
def get? (r : Record α) (key : String) : Option α := r.entries.lookup key

/-- Writes an entry into a list of entries: over the one of the same key, else at the end. -/
def write (key : String) (value : α) : List (String × α) → List (String × α)
  | [] => [(key, value)]
  | (k, v) :: rest => if k = key then (k, value) :: rest else (k, v) :: write key value rest

/-- Writes a key: in place if it is known, at the end if it is new. -/
def insert (r : Record α) (key : String) (value : α) : Record α := ⟨write key value r.entries⟩

/-- Writes every entry of `other`, in its order. -/
def merge (r other : Record α) : Record α :=
  other.entries.foldl (fun r entry => r.insert entry.1 entry.2) r

/-- The record that a list of writes leaves. -/
def ofList (writes : List (String × α)) : Record α :=
  writes.foldl (fun r entry => r.insert entry.1 entry.2) empty

/-! ### What a write does -/

theorem map_fst_write_of_mem {key : String} {value : α} {entries : List (String × α)}
    (h : key ∈ entries.map (·.1)) : (write key value entries).map (·.1) = entries.map (·.1) := by
  induction entries with
  | nil => simp at h
  | cons entry rest ih =>
    by_cases hk : entry.1 = key
    · simp [write, hk]
    · have : key ∈ rest.map (·.1) := by
        rcases List.mem_cons.1 h with h | h
        · exact absurd h.symm hk
        · exact h
      simp [write, hk, ih this]

theorem write_of_not_mem {key : String} {value : α} {entries : List (String × α)}
    (h : key ∉ entries.map (·.1)) : write key value entries = entries ++ [(key, value)] := by
  induction entries with
  | nil => rfl
  | cons entry rest ih =>
    simp only [List.map_cons, List.mem_cons, not_or] at h
    simp [write, Ne.symm h.1, ih h.2]

theorem lookup_write (key k : String) (value : α) (entries : List (String × α)) :
    (write key value entries).lookup k = if k = key then some value else entries.lookup k := by
  induction entries with
  | nil => by_cases h : k = key <;> simp [write, h, List.lookup_cons, beq_false_of_ne]
  | cons entry rest ih =>
    obtain ⟨first, held⟩ := entry
    by_cases hk : first = key
    · by_cases h : k = key <;> simp [write, hk, List.lookup_cons, h, beq_false_of_ne]
    · by_cases h : k = first
      · subst h
        simp [write, hk]
      · simp [write, hk, List.lookup_cons, beq_false_of_ne h, ih]

/-- A known key keeps its position and every other entry. -/
theorem keys_insert_of_mem {r : Record α} {key : String} (value : α) (h : key ∈ r.keys) :
    (r.insert key value).keys = r.keys := map_fst_write_of_mem h

/-- A new key goes to the end. -/
theorem toList_insert_of_not_mem {r : Record α} {key : String} (value : α) (h : key ∉ r.keys) :
    (r.insert key value).toList = r.toList ++ [(key, value)] := write_of_not_mem h

theorem get?_insert (r : Record α) (key k : String) (value : α) :
    (r.insert key value).get? k = if k = key then some value else r.get? k :=
  lookup_write key k value r.entries

/-- A write lists no key twice. -/
theorem nodup_keys_insert {r : Record α} (key : String) (value : α) (h : r.keys.Nodup) :
    (r.insert key value).keys.Nodup := by
  by_cases hk : key ∈ r.keys
  · rw [keys_insert_of_mem value hk]; exact h
  · have : (r.insert key value).keys = r.keys ++ [key] := by
      simp only [keys, insert, write_of_not_mem hk, List.map_append, List.map_cons, List.map_nil]
    rw [this, List.nodup_append]
    exact ⟨h, by simp, fun a ha b hb => by
      rw [List.mem_singleton] at hb; exact hb ▸ fun e => hk (e ▸ ha)⟩

end Record

end StaticConfig
