import StaticConfig.Proofs.Value.Sharing
import StaticConfig.Value.Json

/-!
# The JSON form of values

A list becomes the array of its items' forms and a record the object of those fields that have one,
both in their order. On data that JSON can hold, two values have the same form, up to the order of
members, exactly when they are strictly equal.

- `Value.hasJson`: the values that a record does not drop;
- `Json.Same`: documents that differ at most in the order of the members of their objects;
- `Number.same_toJson_iff`: whole safe numbers become integers and the others stay numbers, so no
  two numbers meet but the two zeros;
- `Value.toJson_faithful`: what the form keeps, and that it tells all data apart.
-/

namespace StaticConfig

open List (Forall₂)

/-! ### Documents up to the order of members -/

namespace Json

/-- Documents that differ at most in the order of the members of their objects, at any depth. -/
inductive Same : Json → Json → Prop
  | null : Same .null .null
  | bool (b : Bool) : Same (.bool b) (.bool b)
  | integer (i : Int) : Same (.integer i) (.integer i)
  | number (n : Number) : Same (.number n) (.number n)
  | string (text : String) : Same (.string text) (.string text)
  | array {xs ys : List Json} : xs.length = ys.length →
      (∀ x y, (x, y) ∈ xs.zip ys → Same x y) → Same (.array xs) (.array ys)
  | object {members ordered other : List (String × Json)} : ordered.Perm other →
      members.map (·.1) = ordered.map (·.1) →
      (∀ a b, (a, b) ∈ members.zip ordered → Same a.2 b.2) → Same (.object members) (.object other)

/-- The type of the values that have such a form. -/
def typeName : Json → String
  | .null => "null"
  | .bool _ => "boolean"
  | .integer _ | .number _ => "number"
  | .string _ => "string"
  | .array _ => "list"
  | .object _ => "record"

theorem Same.typeName_eq {a b : Json} (h : a.Same b) : a.typeName = b.typeName := by
  cases h <;> rfl

theorem same_bool_iff {b c : Bool} : Same (.bool b) (.bool c) ↔ b = c := by
  constructor
  · intro h
    cases h
    rfl
  · rintro rfl
    exact .bool b

theorem same_string_iff {text other : String} :
    Same (.string text) (.string other) ↔ text = other := by
  constructor
  · intro h
    cases h
    rfl
  · rintro rfl
    exact .string text

theorem same_integer_iff {i j : Int} : Same (.integer i) (.integer j) ↔ i = j := by
  constructor
  · intro h
    cases h
    rfl
  · rintro rfl
    exact .integer i

theorem same_number_iff {m n : Number} : Same (.number m) (.number n) ↔ m = n := by
  constructor
  · intro h
    cases h
    rfl
  · rintro rfl
    exact .number m

theorem same_array_iff {xs ys : List Json} : Same (.array xs) (.array ys) ↔ Forall₂ Same xs ys := by
  constructor
  · intro h
    cases h with
    | array hlength hitems => exact List.forall₂_iff_zip.2 ⟨hlength, fun {x y} => hitems x y⟩
  · exact fun h => .array h.length_eq fun x y => List.forall₂_zip h

/-- Objects without repeated members are compared as records. -/
theorem same_object_iff {r other : Record Json} (hr : r.keys.Nodup) (hother : other.keys.Nodup) :
    Same (.object r.entries) (.object other.entries) ↔ r.Matches Same other := by
  rw [Record.matches_iff_perm hr hother]
  constructor
  · intro h
    cases h with
    | @object _ ordered _ hperm hkeys hsame =>
      have hlength : r.entries.length = ordered.length := by
        rw [← List.length_map (·.1), hkeys, List.length_map]
      have hkey : Forall₂ (fun a b => a.1 = b.1) r.entries ordered := by
        rw [← List.forall₂_eq_eq_eq] at hkeys
        exact List.forall₂_map_right_iff.1 (List.forall₂_map_left_iff.1 hkeys)
      exact ⟨ordered, hperm, List.forall₂_iff_zip.2 ⟨hlength, fun {a b} hmem =>
        ⟨List.forall₂_zip hkey hmem, hsame a b hmem⟩⟩⟩
  · rintro ⟨ordered, hperm, hordered⟩
    exact .object hperm (map_eq_map_of_forall₂ (hordered.imp fun _ _ h => h.1))
      fun _ _ hmem => (List.forall₂_zip hordered hmem).2

end Json

/-! ### Numbers -/

namespace Number

/-- The integer of a sign and a size. -/
def signed (negative : Bool) (size : Nat) : Int := if negative then -size else size

theorem signed_eq_iff {a b : Bool} {m n : Nat} :
    signed a m = signed b n ↔ m = n ∧ (a = b ∨ m = 0) := by
  cases a <;> cases b <;>
    simp only [signed, Bool.false_eq_true, Bool.true_eq_false, if_true, if_false, true_or,
      false_or, and_true] <;>
    omega

/-- A finite number becomes an integer if it is whole and safe. -/
theorem toJson_finite (negative : Bool) (size : Magnitude) :
    (finite negative size).toJson =
      if size.units % unitsInOne = 0 ∧ size.units / unitsInOne ≤ maxSafeInteger then
        .integer (signed negative (size.units / unitsInOne))
      else .number (finite negative size) := by
  cases negative with
  | false =>
    simp only [toJson, trunc?, isWhole, signed, Int.natAbs_natCast, Bool.and_eq_true, beq_iff_eq,
      decide_eq_true_eq, Bool.false_eq_true, if_false]
  | true =>
    simp only [toJson, trunc?, isWhole, signed, Int.natAbs_neg, Int.natAbs_natCast,
      Bool.and_eq_true, beq_iff_eq, decide_eq_true_eq, if_true]

/-- Counts of units that are whole are as many ones as they are units. -/
theorem div_unitsInOne_eq_iff {m n : Nat} (hm : m % unitsInOne = 0) (hn : n % unitsInOne = 0) :
    m / unitsInOne = n / unitsInOne ↔ m = n := by
  have hmunits := Nat.div_add_mod m unitsInOne
  have hnunits := Nat.div_add_mod n unitsInOne
  constructor
  · intro h
    rw [← hmunits, ← hnunits, h, hm, hn]
  · exact fun h => h ▸ rfl

/-- No two finite numbers have the same form but the two zeros. -/
theorem same_toJson_iff {a b : Bool} {m n : Magnitude} :
    (finite a m).toJson.Same (finite b n).toJson ↔ (finite a m).equals (finite b n) = true := by
  rw [toJson_finite, toJson_finite, equals_finite_iff]
  by_cases hm : m.units % unitsInOne = 0 ∧ m.units / unitsInOne ≤ maxSafeInteger
  · rw [if_pos hm]
    by_cases hn : n.units % unitsInOne = 0 ∧ n.units / unitsInOne ≤ maxSafeInteger
    · have hzero : m.units / unitsInOne = 0 ↔ m.units = 0 := by
        rw [← div_unitsInOne_eq_iff hm.1 (Nat.zero_mod _), Nat.zero_div]
      rw [if_pos hn, Json.same_integer_iff, signed_eq_iff, div_unitsInOne_eq_iff hm.1 hn.1, hzero]
    · rw [if_neg hn]
      exact iff_of_false nofun fun h => hn (h.1 ▸ hm)
  · rw [if_neg hm]
    by_cases hn : n.units % unitsInOne = 0 ∧ n.units / unitsInOne ≤ maxSafeInteger
    · rw [if_pos hn]
      exact iff_of_false nofun fun h => hm (h.1 ▸ hn)
    · -- Zero is whole and safe, so these two numbers are equal only if their signs are.
      have hnonzero : m.units ≠ 0 := by
        intro hzero
        rw [hzero, Nat.zero_mod, Nat.zero_div] at hm
        exact hm ⟨rfl, Nat.zero_le _⟩
      have hsizes : m = n ↔ m.units = n.units := by
        cases m
        cases n
        rw [Magnitude.mk.injEq]
      rw [if_neg hn, Json.same_number_iff, finite.injEq, hsizes, and_comm]
      simp only [hnonzero, or_false]

end Number

namespace Value

/-! ### What the form keeps -/

/-- Whether a record keeps the value: it is neither undefined nor callable. -/
def hasJson : Value → Bool
  | .undefined => false
  | v => !v.isCallable

theorem json?_eq (v : Value) : v.json? = if v.hasJson then some v.toJson else none := by
  cases v <;> rfl

theorem jsonItems_eq_map (items : List Value) : jsonItems items = items.map toJson := by
  induction items with
  | nil => rfl
  | cons item rest ih => rw [jsonItems, ih, List.map_cons, toJson]

theorem jsonFields_eq_map (entries : List (String × Value)) :
    jsonFields entries =
      (entries.filter (·.2.hasJson)).map fun entry => (entry.1, entry.2.toJson) := by
  induction entries with
  | nil => rfl
  | cons entry rest ih =>
    rw [jsonFields, json?_eq, ih]
    cases h : entry.2.hasJson <;> simp [h]

theorem toJson_list (tag : Nat) (items : List Value) :
    (list tag items).toJson = .array (items.map toJson) := by
  rw [toJson, json?, jsonItems_eq_map, Option.getD_some]

theorem toJson_record (tag : Nat) (fields : Record Value) :
    (record tag fields).toJson = .object
      ((fields.entries.filter (·.2.hasJson)).map fun entry => (entry.1, entry.2.toJson)) := by
  rw [toJson, json?, jsonFields_eq_map, Option.getD_some]

/-! ### Data -/

variable {σ : Storage}

/-- Whether the value is made of nothing but `null`, booleans, finite numbers, strings, lists and
records. -/
inductive IsData : Value → Prop
  | null : IsData .null
  | bool (b : Bool) : IsData (.bool b)
  | number (negative : Bool) (size : Magnitude) : IsData (.number (.finite negative size))
  | string (text : String) : IsData (.string text)
  | list {tag : Nat} {items : List Value} : (∀ item ∈ items, IsData item) →
      IsData (.list tag items)
  | record {tag : Nat} {fields : Record Value} : (∀ entry ∈ fields.entries, IsData entry.2) →
      IsData (.record tag fields)

theorem IsData.hasJson {v : Value} (h : v.IsData) : v.hasJson = true := by
  cases h <;> rfl

theorem IsData.not_holdsNan {v : Value} (h : v.IsData) : ¬ v.HoldsNan := by
  intro hnan
  induction hnan with
  | nan => cases h
  | item hitem _ ih =>
    cases h with
    | list hitems => exact ih (hitems _ hitem)
  | field hentry _ ih =>
    cases h with
    | record hfields => exact ih (hfields _ hentry)

theorem IsData.field {tag : Nat} {fields : Record Value} {key : String} {v : Value}
    (h : (Value.record tag fields).IsData) (hstored : (Value.record tag fields).StoredIn σ)
    (hv : fields.get? key = some v) : v.IsData := by
  cases h with
  | record hfields => exact hfields _ ((Record.get?_eq_some_iff hstored.nodup_keys).1 hv)

/-- All members are kept, so the object is the record with its values' forms. -/
theorem IsData.toJson_record {tag : Nat} {fields : Record Value}
    (h : (Value.record tag fields).IsData) :
    (Value.record tag fields).toJson = .object (fields.map toJson).entries := by
  cases h with
  | record hfields =>
    have hkept : fields.entries.filter (·.2.hasJson) = fields.entries :=
      List.filter_eq_self.2 fun entry hentry => (hfields entry hentry).hasJson
    rw [Value.toJson_record, hkept]
    rfl

theorem same_record_iff {s t : Nat} {r other : Record Value} (hr : (record s r).IsData)
    (hother : (record t other).IsData) (hrkeys : r.keys.Nodup)
    (hotherkeys : other.keys.Nodup) :
    (record s r).toJson.Same (record t other).toJson ↔
      r.Matches (fun x y => x.toJson.Same y.toJson) other := by
  rw [hr.toJson_record, hother.toJson_record, ← Record.matches_map_iff]
  refine Json.same_object_iff ?_ ?_
  · rwa [Record.keys_map]
  · rwa [Record.keys_map]

theorem IsData.typeName_toJson {v : Value} (h : v.IsData) : v.toJson.typeName = v.typeName := by
  cases h with
  | number negative size =>
    show (Number.finite negative size).toJson.typeName = "number"
    rw [Number.toJson_finite]
    split <;> rfl
  | null | bool | string | list | record => rfl

theorem same_toJson_iff_of_typeName_ne {v w : Value} (hv : v.IsData) (hw : w.IsData)
    (h : v.typeName ≠ w.typeName) : v.toJson.Same w.toJson ↔ v.SameContents w := by
  have hforms : v.toJson.typeName ≠ w.toJson.typeName := by
    rwa [hv.typeName_toJson, hw.typeName_toJson]
  exact iff_of_false (fun hsame => hforms hsame.typeName_eq) fun hsame => h hsame.typeName_eq

/-- By induction on the left value, and by cases on the right one, which has another form if it is
of another type. -/
theorem same_toJson_iff_sameContents {v w : Value} (hv : v.StoredIn σ) (hw : w.StoredIn σ)
    (hvdata : v.IsData) (hwdata : w.IsData) : v.toJson.Same w.toJson ↔ v.SameContents w := by
  have hother (h : v.typeName ≠ w.typeName) : v.toJson.Same w.toJson ↔ v.SameContents w :=
    same_toJson_iff_of_typeName_ne hvdata hwdata h
  induction v using Value.induct generalizing w with
  | undefined | closure | method => cases hvdata
  | null =>
    cases hwdata with
    | null => exact iff_of_true .null .null
    | bool | number | string | list | record =>
      exact hother (by simp [typeName])
  | bool b =>
    cases hwdata with
    | bool c => exact Json.same_bool_iff.trans ⟨fun h => h ▸ .bool b, fun h => by cases h; rfl⟩
    | null | number | string | list | record =>
      exact hother (by simp [typeName])
  | number n =>
    cases hvdata with
    | number a m =>
      cases hwdata with
      | number b n =>
        refine Number.same_toJson_iff.trans ⟨.number, fun h => ?_⟩
        cases h with
        | number hequal => exact hequal
      | null | bool | string | list | record =>
        exact hother (by simp [typeName])
  | string text =>
    cases hwdata with
    | string other =>
      exact Json.same_string_iff.trans ⟨fun h => h ▸ .string text, fun h => by cases h; rfl⟩
    | null | bool | number | list | record =>
      exact hother (by simp [typeName])
  | list s xs ih =>
    cases hvdata with
    | list hxs =>
      cases hwdata with
      | @list t ys hys =>
        have hparts (x : Value) (hx : x ∈ xs) (y : Value) (hy : y ∈ ys) :
            x.toJson.Same y.toJson ↔ x.SameContents y :=
          ih x hx (hv.items x hx) (hw.items y hy) (hxs x hx) (hys y hy)
            (same_toJson_iff_of_typeName_ne (hxs x hx) (hys y hy))
        rw [toJson_list, toJson_list, Json.same_array_iff, List.forall₂_map_left_iff,
          List.forall₂_map_right_iff, sameContents_list_iff]
        exact ⟨fun h => forall₂_imp_of_mem h fun x hx y hy => (hparts x hx y hy).1,
          fun h => forall₂_imp_of_mem h fun x hx y hy => (hparts x hx y hy).2⟩
      | null | bool | number | string | record =>
        exact hother (by simp [typeName])
  | record s r ih =>
    cases hwdata with
    | @record t other hothers =>
      rw [same_record_iff hvdata (.record hothers) hv.nodup_keys hw.nodup_keys,
        sameContents_record_iff]
      -- Fields are compared by key, so their order does not matter.
      have hparts {key : String} {x y : Value} (hx : r.get? key = some x)
          (hy : other.get? key = some y) : x.toJson.Same y.toJson ↔ x.SameContents y := by
        have hxdata : x.IsData := hvdata.field hv hx
        have hydata : y.IsData := (IsData.record hothers).field hw hy
        exact ih _ ((Record.get?_eq_some_iff hv.nodup_keys).1 hx) (hv.field hx) (hw.field hy)
          hxdata hydata (same_toJson_iff_of_typeName_ne hxdata hydata)
      exact ⟨fun h => h.imp fun hx hy => (hparts hx hy).1,
        fun h => h.imp fun hx hy => (hparts hx hy).2⟩
    | null | bool | number | string | list =>
      exact hother (by simp [typeName])

/-- **JSON is faithful.** Lists keep their items in order and records, in order, exactly the fields
that are neither undefined nor callable, at every level; and data have the same form, up to the
order of members, exactly when they are strictly equal. -/
theorem toJson_faithful :
    (∀ tag items, (list tag items).toJson = .array (items.map toJson)) ∧
      (∀ tag (fields : Record Value), (record tag fields).toJson = .object
        ((fields.entries.filter (·.2.hasJson)).map fun entry => (entry.1, entry.2.toJson))) ∧
      ∀ {σ : Storage} {v w : Value}, v.StoredIn σ → w.StoredIn σ → v.IsData → w.IsData →
        (v.toJson.Same w.toJson ↔ v.strictEquals w = true) := by
  refine ⟨toJson_list, toJson_record, fun {σ v w} hv hw hvdata hwdata => ?_⟩
  rw [same_toJson_iff_sameContents hv hw hvdata hwdata, sameContents_iff hv hw]
  exact and_iff_left hvdata.not_holdsNan

section Sample

open Snippet (place)

/-- A list of one text. -/
def textList : Value := .list 0 [.string "x"]

/-- A record of negative zero and the list. -/
def negativeZero : Value := .record 1 ⟨[("a", .number (.finite true .zero)), ("b", textList)]⟩

/-- A record of the list and zero. -/
def positiveZero : Value := .record 2 ⟨[("b", textList), ("a", .number (.finite false .zero))]⟩

/-- The expression `['x']`. -/
def textArray : Expr := .array (place 0 5) [.item (.plain (.string (place 1 4) "x"))]

/-- The expression `{a: -0, b: xs}`. -/
def negativeZeroFirst : Expr :=
  .object (place 0 14) [
    .entry (.fixed "a") (.unary (place 4 6) .minus (.number (place 5 6) (.finite false .zero))),
    .entry (.fixed "b") (.identifier ⟨"xs", place 11 13⟩)]

/-- The expression `{b: xs, a: 0}`. -/
def zeroLast : Expr :=
  .object (place 0 13) [.entry (.fixed "b") (.identifier ⟨"xs", place 4 6⟩),
    .entry (.fixed "a") (.number (place 11 12) (.finite false .zero))]

/-- The list is built first, and then the records around it. -/
theorem exists_zeros_stored : ∃ σ, textList.StoredIn σ ∧ negativeZero.StoredIn σ ∧
    positiveZero.StoredIn σ :=
  exists_stored textArray negativeZeroFirst zeroLast rfl rfl

/-- The two records have the same form, since they are equal for all that the zeros and the orders
of the keys differ. -/
theorem toJson_faithful_zeros :
    negativeZero.strictEquals positiveZero = true ∧
      negativeZero.toJson.Same positiveZero.toJson := by
  have htextdata : textList.IsData := .list fun _ hitem => List.mem_singleton.1 hitem ▸ .string "x"
  obtain ⟨σ, -, hnegative, hpositive⟩ := exists_zeros_stored
  have hnegativedata : negativeZero.IsData := by
    refine .record ?_
    rintro entry (_ | ⟨_, _ | ⟨_, ⟨⟩⟩⟩)
    · exact .number _ _
    · exact htextdata
  have hpositivedata : positiveZero.IsData := by
    refine .record ?_
    rintro entry (_ | ⟨_, _ | ⟨_, ⟨⟩⟩⟩)
    · exact htextdata
    · exact .number _ _
  have hequal : negativeZero.strictEquals positiveZero = true := by decide +kernel
  have hiff := toJson_faithful.2.2 hnegative hpositive hnegativedata hpositivedata
  exact ⟨hequal, hiff.2 hequal⟩

end Sample

end Value

end StaticConfig
