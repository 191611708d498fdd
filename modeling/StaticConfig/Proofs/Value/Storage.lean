import Mathlib.Logic.Function.Basic
import Mathlib.Order.Defs.PartialOrder
import StaticConfig.Proofs.Value.Induction
import StaticConfig.Proofs.Value.Record

/-!
# Storage

Lists, records and functions are built once, never changed and shared from then on. A tag stands for
the place where one was built, so among the values that exist together equal tags mean one value.

- `Storage`: the value that was built under each tag drawn so far;
- `Value.StoredIn`: all that a value is made of was built in the storage, its records by the
  operations on records;
- `StoredIn.mono`: values stay where they are when more is built.
-/

namespace StaticConfig

/-- What has been built so far: the value under each tag, and the first tag that is still free. -/
structure Storage where
  built : Nat → Value
  supply : Nat

namespace Storage

/-- A later storage has at least as many values, and those of the earlier one in their places. -/
instance : Preorder Storage where
  le σ τ := σ.supply ≤ τ.supply ∧ ∀ tag, tag < σ.supply → τ.built tag = σ.built tag
  le_refl _ := ⟨Nat.le_refl _, fun _ _ => rfl⟩
  le_trans _ _ _ h h' :=
    ⟨Nat.le_trans h.1 h'.1, fun tag hold =>
      (h'.2 tag (Nat.lt_of_lt_of_le hold h.1)).trans (h.2 tag hold)⟩

/-- Whether the value under a tag is this one. -/
def Holds (σ : Storage) (tag : Nat) (v : Value) : Prop := tag < σ.supply ∧ σ.built tag = v

/-- The storage with one more value, under the first free tag. -/
def push (σ : Storage) (v : Value) : Storage := ⟨Function.update σ.built σ.supply v, σ.supply + 1⟩

variable {σ τ : Storage} {tag : Nat} {v w : Value}

theorem Holds.mono (h : σ.Holds tag v) (hle : σ ≤ τ) : τ.Holds tag v :=
  ⟨Nat.lt_of_lt_of_le h.1 hle.1, (hle.2 tag h.1).trans h.2⟩

theorem Holds.unique (h : σ.Holds tag v) (h' : σ.Holds tag w) : v = w := h.2.symm.trans h'.2

theorem le_push (σ : Storage) (v : Value) : σ ≤ σ.push v :=
  ⟨Nat.le_succ _, fun _ hold => Function.update_of_ne (Nat.ne_of_lt hold) _ _⟩

theorem holds_push (σ : Storage) (v : Value) : (σ.push v).Holds σ.supply v :=
  ⟨Nat.lt_succ_self _, Function.update_self _ _ _⟩

end Storage

/-- Whether everything that a value is made of, down to what its arrow functions keep, was built in
the storage, under its tag. -/
inductive Value.StoredIn (σ : Storage) : Value → Prop
  | undefined : StoredIn σ .undefined
  | null : StoredIn σ .null
  | bool (b : Bool) : StoredIn σ (.bool b)
  | number (n : Number) : StoredIn σ (.number n)
  | string (text : String) : StoredIn σ (.string text)
  | list {tag : Nat} {items : List Value} : σ.Holds tag (.list tag items) →
      (∀ item ∈ items, StoredIn σ item) → StoredIn σ (.list tag items)
  | record {tag : Nat} {fields : Record Value} : σ.Holds tag (.record tag fields) →
      fields.Built → (∀ entry ∈ fields.entries, StoredIn σ entry.2) →
      StoredIn σ (.record tag fields)
  | closure {tag : Nat} {code : ArrowCode} {scope : Scope Value} :
      σ.Holds tag (.closure tag code scope) →
      (∀ frame ∈ scope.frames, ∀ binding ∈ frame, StoredIn σ binding.2) →
      StoredIn σ (.closure tag code scope)
  | method {tag : Nat} {receiver : Value} {m : Method} : σ.Holds tag (.method tag receiver m) →
      StoredIn σ receiver → StoredIn σ (.method tag receiver m)

/-- Whether every value that a scope binds, visibly or not, is stored. -/
def Scope.StoredIn (σ : Storage) (s : Scope Value) : Prop :=
  ∀ frame ∈ s.frames, ∀ binding ∈ frame, binding.2.StoredIn σ

namespace Value.StoredIn

variable {σ τ : Storage}

theorem mono {v : Value} (h : v.StoredIn σ) (hle : σ ≤ τ) : v.StoredIn τ := by
  induction h with
  | undefined => exact .undefined
  | null => exact .null
  | bool b => exact .bool b
  | number n => exact .number n
  | string text => exact .string text
  | list hbuilt _ ih => exact .list (hbuilt.mono hle) ih
  | record hbuilt hfields _ ih => exact .record (hbuilt.mono hle) hfields ih
  | closure hbuilt _ ih => exact .closure (hbuilt.mono hle) ih
  | method hbuilt _ ih => exact .method (hbuilt.mono hle) ih

variable {tag : Nat} {xs ys : List Value} {r other : Record Value}

theorem items (h : (Value.list tag xs).StoredIn σ) : ∀ item ∈ xs, item.StoredIn σ := by
  cases h with
  | list _ hitems => exact hitems

theorem fields (h : (Value.record tag r).StoredIn σ) : ∀ entry ∈ r.entries, entry.2.StoredIn σ := by
  cases h with
  | record _ _ hfields => exact hfields

theorem scope {code : ArrowCode} {scope : Scope Value}
    (h : (Value.closure tag code scope).StoredIn σ) : scope.StoredIn σ := by
  cases h with
  | closure _ hscope => exact hscope

theorem receiver {receiver : Value} {m : Method} (h : (Value.method tag receiver m).StoredIn σ) :
    receiver.StoredIn σ := by
  cases h with
  | method _ hreceiver => exact hreceiver

theorem nodup_keys (h : (Value.record tag r).StoredIn σ) : r.keys.Nodup := by
  cases h with
  | record _ hbuilt _ => exact Record.built_iff.1 hbuilt

theorem field (h : (Value.record tag r).StoredIn σ) {key : String} {v : Value}
    (hv : r.get? key = some v) : v.StoredIn σ :=
  h.fields _ ((Record.get?_eq_some_iff h.nodup_keys).1 hv)

/-- Lists with one tag are one list. -/
theorem items_unique (h : (Value.list tag xs).StoredIn σ) (h' : (Value.list tag ys).StoredIn σ) :
    xs = ys := by
  cases h with
  | list hbuilt _ =>
    cases h' with
    | list hbuilt' _ => exact (Value.list.inj (hbuilt.unique hbuilt')).2

/-- Records with one tag are one record. -/
theorem fields_unique (h : (Value.record tag r).StoredIn σ)
    (h' : (Value.record tag other).StoredIn σ) : r = other := by
  cases h with
  | record hbuilt _ _ =>
    cases h' with
    | record hbuilt' _ _ => exact (Value.record.inj (hbuilt.unique hbuilt')).2

end Value.StoredIn

theorem Scope.StoredIn.mono {σ τ : Storage} {s : Scope Value} (h : s.StoredIn σ) (hle : σ ≤ τ) :
    s.StoredIn τ :=
  fun frame hframe binding hbinding => (h frame hframe binding hbinding).mono hle

end StaticConfig
