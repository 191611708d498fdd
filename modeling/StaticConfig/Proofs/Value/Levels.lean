import StaticConfig.Proofs.Value.Document

/-!
# How deep values nest

Conversions and comparisons go into lists and records by recursion, and no limit is checked on the
way: what bounds them is how many lists and records the value nests.

- `Value.levels`: how many lists, records and receivers of methods are nested in a value;
- `Value.Within`: a bound on that, for the value and for all that its arrow functions keep;
- `displayWithin`, `json?Within`, `strictEqualsWithin`: the conversions and the comparison with a
  budget of nested calls, past which they do something arbitrary;
- `conversions_within`: a budget of more calls than the value has levels is never used up.
-/

namespace StaticConfig

namespace Value

/-! ### Levels -/

mutual

/-- How many lists, records and receivers of methods are nested in a value. -/
def levels : Value → Nat
  | .list _ items => levelsItems items + 1
  | .record _ fields => levelsFields fields.entries + 1
  | .method _ receiver _ => receiver.levels + 1
  | _ => 0

/-- The levels of the deepest item. -/
def levelsItems : List Value → Nat
  | [] => 0
  | item :: rest => max item.levels (levelsItems rest)

/-- The levels of the deepest field. -/
def levelsFields : List (String × Value) → Nat
  | [] => 0
  | (_, value) :: rest => max value.levels (levelsFields rest)

end

theorem levelsItems_le_iff {items : List Value} {n : Nat} :
    levelsItems items ≤ n ↔ ∀ item ∈ items, item.levels ≤ n := by
  induction items with
  | nil => simp [levelsItems]
  | cons item rest ih => rw [levelsItems, Nat.max_le, ih, List.forall_mem_cons]

theorem levelsFields_le_iff {entries : List (String × Value)} {n : Nat} :
    levelsFields entries ≤ n ↔ ∀ entry ∈ entries, entry.2.levels ≤ n := by
  induction entries with
  | nil => simp [levelsFields]
  | cons entry rest ih => rw [levelsFields, Nat.max_le, ih, List.forall_mem_cons]

theorem levels_item_lt {tag : Nat} {items : List Value} {item : Value} (h : item ∈ items) :
    item.levels < (list tag items).levels := by
  rw [levels]
  exact Nat.lt_succ_of_le (levelsItems_le_iff.1 (Nat.le_refl _) item h)

theorem levels_field_lt {tag : Nat} {fields : Record Value} {entry : String × Value}
    (h : entry ∈ fields.entries) : entry.2.levels < (record tag fields).levels := by
  rw [levels]
  exact Nat.lt_succ_of_le (levelsFields_le_iff.1 (Nat.le_refl _) entry h)

/-- Whether at most so many lists, records and receivers are nested in the value, and in whatever
its arrow functions keep. -/
inductive Within : Nat → Value → Prop
  | undefined {n : Nat} : Within n .undefined
  | null {n : Nat} : Within n .null
  | bool {n : Nat} (b : Bool) : Within n (.bool b)
  | number {n : Nat} (value : Number) : Within n (.number value)
  | string {n : Nat} (text : String) : Within n (.string text)
  | list {n tag : Nat} {items : List Value} : (∀ item ∈ items, Within n item) →
      Within (n + 1) (.list tag items)
  | record {n tag : Nat} {fields : Record Value} : (∀ entry ∈ fields.entries, Within n entry.2) →
      Within (n + 1) (.record tag fields)
  | closure {n tag : Nat} {code : ArrowCode} {scope : Scope Value} :
      (∀ frame ∈ scope.frames, ∀ binding ∈ frame, Within n binding.2) →
      Within n (.closure tag code scope)
  | method {n tag : Nat} {receiver : Value} {m : Method} : Within n receiver →
      Within (n + 1) (.method tag receiver m)

namespace Within

variable {n m : Nat} {v : Value}

theorem mono (h : v.Within n) (hle : n ≤ m) : v.Within m := by
  induction h generalizing m with
  | undefined => exact .undefined
  | null => exact .null
  | bool b => exact .bool b
  | number value => exact .number value
  | string text => exact .string text
  | closure _ ih =>
    exact .closure fun frame hframe binding hbinding => ih frame hframe binding hbinding hle
  | list _ ih =>
    obtain ⟨m, rfl⟩ := Nat.exists_eq_add_of_lt hle
    exact .list fun item hitem => ih item hitem (Nat.le_add_right _ _)
  | record _ ih =>
    obtain ⟨m, rfl⟩ := Nat.exists_eq_add_of_lt hle
    exact .record fun entry hentry => ih entry hentry (Nat.le_add_right _ _)
  | method _ ih =>
    obtain ⟨m, rfl⟩ := Nat.exists_eq_add_of_lt hle
    exact .method (ih (Nat.le_add_right _ _))

theorem items {tag : Nat} {items : List Value} (h : (Value.list tag items).Within n) :
    ∃ k, n = k + 1 ∧ ∀ item ∈ items, item.Within k := by
  cases h with
  | list hitems => exact ⟨_, rfl, hitems⟩

theorem fields {tag : Nat} {fields : Record Value} (h : (Value.record tag fields).Within n) :
    ∃ k, n = k + 1 ∧ ∀ entry ∈ fields.entries, entry.2.Within k := by
  cases h with
  | record hfields => exact ⟨_, rfl, hfields⟩

theorem levels_le (h : v.Within n) : v.levels ≤ n := by
  induction h with
  | list _ ih => exact Nat.succ_le_succ (levelsItems_le_iff.2 ih)
  | record _ ih => exact Nat.succ_le_succ (levelsFields_le_iff.2 ih)
  | method _ ih => exact Nat.succ_le_succ ih
  | undefined | null | bool | number | string | closure => exact Nat.zero_le _

end Within

/-! ### Conversions and comparisons on a budget -/

/-- The text of a value by at most `calls` nested calls; one more gives `exceeded`. -/
def displayWithin (exceeded : String) : (calls : Nat) → Value → String
  | 0, _ => exceeded
  | calls + 1, .list _ items =>
    ",".intercalate <| items.map fun item =>
      match item with
      | .undefined | .null => ""
      | item => displayWithin exceeded calls item
  | _ + 1, v => v.display

/-- The JSON form of a value by at most `calls` nested calls; one more gives `exceeded`. -/
def json?Within (exceeded : Option Json) : (calls : Nat) → Value → Option Json
  | 0, _ => exceeded
  | calls + 1, .list _ items =>
    some (.array (items.map fun item => (json?Within exceeded calls item).getD .null))
  | calls + 1, .record _ fields =>
    some (.object (fields.entries.filterMap fun entry =>
      (json?Within exceeded calls entry.2).map fun document => (entry.1, document)))
  | _ + 1, v => v.json?

/-- Strict equality by at most `calls` nested calls; one more gives `exceeded`. -/
def strictEqualsWithin (exceeded : Bool) : (calls : Nat) → Value → Value → Bool
  | 0, _, _ => exceeded
  | calls + 1, .list s xs, .list t ys =>
    s == t || (xs.length == ys.length &&
      (xs.zip ys).all fun pair => strictEqualsWithin exceeded calls pair.1 pair.2)
  | calls + 1, .record s r, .record t other =>
    s == t || (r.size == other.size &&
      r.entries.all fun entry =>
        match other.get? entry.1 with
        | some theirs => strictEqualsWithin exceeded calls theirs entry.2
        | none => false)
  | _ + 1, v, w => v.strictEquals w

variable {calls : Nat}

theorem displayItems_eq_map {convert : Value → String} {items : List Value}
    (h : ∀ item ∈ items, convert item = item.display) :
    displayItems items = items.map fun item =>
      match item with
      | .undefined | .null => ""
      | item => convert item := by
  induction items with
  | nil => rfl
  | cons item rest ih =>
    obtain ⟨hitem, hrest⟩ := List.forall_mem_cons.1 h
    cases item <;> simp only [displayItems, List.map_cons, ih hrest, hitem]

theorem displayWithin_eq (exceeded : String) {v : Value} (h : v.levels < calls) :
    v.displayWithin exceeded calls = v.display := by
  induction calls generalizing v with
  | zero => cases h
  | succ calls ih =>
    cases v with
    | list tag items =>
      have hitems (item : Value) (hitem : item ∈ items) :
          item.displayWithin exceeded calls = item.display :=
        ih (Nat.lt_of_lt_of_le (levels_item_lt hitem) (Nat.le_of_lt_succ h))
      rw [displayWithin, display, displayItems_eq_map hitems]
    | undefined | null | bool | number | string | record | closure | method => rfl

theorem jsonFields_eq_filterMap {convert : Value → Option Json} {entries : List (String × Value)}
    (h : ∀ entry ∈ entries, convert entry.2 = entry.2.json?) :
    jsonFields entries = entries.filterMap fun entry =>
      (convert entry.2).map fun document => (entry.1, document) := by
  induction entries with
  | nil => rfl
  | cons entry rest ih =>
    obtain ⟨hentry, hrest⟩ := List.forall_mem_cons.1 h
    rw [jsonFields, List.filterMap_cons, hentry, ih hrest]
    cases entry.2.json? <;> rfl

theorem json?Within_eq (exceeded : Option Json) {v : Value} (h : v.levels < calls) :
    v.json?Within exceeded calls = v.json? := by
  induction calls generalizing v with
  | zero => cases h
  | succ calls ih =>
    cases v with
    | list tag items =>
      have hitems (item : Value) (hitem : item ∈ items) :
          (item.json?Within exceeded calls).getD .null = item.toJson := by
        rw [ih (Nat.lt_of_lt_of_le (levels_item_lt hitem) (Nat.le_of_lt_succ h)), toJson]
      rw [json?Within, json?, jsonItems_eq_map, List.map_congr_left hitems]
    | record tag fields =>
      have hfields (entry : String × Value) (hentry : entry ∈ fields.entries) :
          entry.2.json?Within exceeded calls = entry.2.json? :=
        ih (Nat.lt_of_lt_of_le (levels_field_lt hentry) (Nat.le_of_lt_succ h))
      rw [json?Within, json?, jsonFields_eq_filterMap hfields]
    | undefined | null | bool | number | string | closure | method => rfl

theorem equalItems_eq_all {compare : Value → Value → Bool} {xs ys : List Value}
    (h : ∀ x ∈ xs, ∀ y ∈ ys, compare x y = x.strictEquals y) :
    equalItems xs ys =
      (xs.length == ys.length && (xs.zip ys).all fun pair => compare pair.1 pair.2) := by
  induction xs generalizing ys with
  | nil => cases ys <;> simp [equalItems]
  | cons x xs ih =>
    cases ys with
    | nil => simp [equalItems]
    | cons y ys =>
      have hhead := h x List.mem_cons_self y List.mem_cons_self
      have hrest (x : Value) (hx : x ∈ xs) (y : Value) (hy : y ∈ ys) :
          compare x y = x.strictEquals y :=
        h x (List.mem_cons_of_mem _ hx) y (List.mem_cons_of_mem _ hy)
      rw [equalItems, ih hrest, List.zip_cons_cons, List.all_cons, hhead, Bool.and_left_comm]
      simp

theorem equalFields_eq_all {compare : Value → Value → Bool} {entries : List (String × Value)}
    {other : Record Value}
    (h : ∀ entry ∈ entries, ∀ theirs, other.get? entry.1 = some theirs →
      compare theirs entry.2 = theirs.strictEquals entry.2) :
    equalFields entries other = entries.all fun entry =>
      match other.get? entry.1 with
      | some theirs => compare theirs entry.2
      | none => false := by
  induction entries with
  | nil => simp [equalFields]
  | cons entry rest ih =>
    obtain ⟨hentry, hrest⟩ := List.forall_mem_cons.1 h
    rw [equalFields, ih hrest, List.all_cons]
    cases htheirs : other.get? entry.1 with
    | none => rfl
    | some theirs => simp only [hentry theirs htheirs]

/-- A comparison goes down on both sides at once, so the levels of either side bound it. -/
theorem strictEqualsWithin_eq (exceeded : Bool) {v w : Value}
    (h : v.levels < calls ∨ w.levels < calls) :
    strictEqualsWithin exceeded calls v w = v.strictEquals w := by
  induction calls generalizing v w with
  | zero => exact absurd h (by omega)
  | succ calls ih =>
    -- What is inside has fewer levels, on the side that is known to have few.
    have hinside {x y : Value} (hx : x.levels < v.levels) (hy : y.levels < w.levels) :
        x.levels < calls ∨ y.levels < calls := by omega
    cases v with
    | list s xs =>
      cases w with
      | list t ys =>
        have hitems (x : Value) (hx : x ∈ xs) (y : Value) (hy : y ∈ ys) :
            strictEqualsWithin exceeded calls x y = x.strictEquals y :=
          ih (hinside (levels_item_lt hx) (levels_item_lt hy))
        rw [strictEqualsWithin, strictEquals, equalItems_eq_all hitems]
      | undefined | null | bool | number | string | record | closure | method => rfl
    | record s r =>
      cases w with
      | record t other =>
        have hfields (entry : String × Value) (hentry : entry ∈ r.entries) (theirs : Value)
            (htheirs : other.get? entry.1 = some theirs) :
            strictEqualsWithin exceeded calls theirs entry.2 = theirs.strictEquals entry.2 :=
          ih (hinside (levels_field_lt hentry)
            (levels_field_lt (Record.mem_of_lookup htheirs))).symm
        rw [strictEqualsWithin, strictEquals, equalFields_eq_all hfields]
      | undefined | null | bool | number | string | list | closure | method => rfl
    | undefined | null | bool | number | string | closure | method => rfl

/-- No conversion and no comparison of a value nests more calls than the value has levels, the call
for the value itself apart. -/
theorem conversions_within {v : Value} (h : v.levels < calls) :
    (∀ exceeded, v.displayWithin exceeded calls = v.display) ∧
      (∀ exceeded, v.json?Within exceeded calls = v.json?) ∧
      ∀ exceeded w, strictEqualsWithin exceeded calls v w = v.strictEquals w :=
  ⟨fun exceeded => displayWithin_eq exceeded h, fun exceeded => json?Within_eq exceeded h,
    fun exceeded _ => strictEqualsWithin_eq exceeded (.inl h)⟩

end Value

end StaticConfig
