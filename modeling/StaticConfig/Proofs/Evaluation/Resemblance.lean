import Mathlib.Data.List.Forall2
import StaticConfig.Evaluation.Call
import StaticConfig.Evaluation.Member
import StaticConfig.Proofs.Value.Induction
import StaticConfig.Value.Json

/-!
# Values that resemble each other

Proofs about two runs relate the values that these come to, each proof in its own way. Whatever the
relation is, all that evaluation does with values but call them comes down to their outermost forms:
if related values have the same form around related parts, and tags that are equal on one side
exactly when they are on the other, nothing can tell them apart.

- `Value.SameForm`: values of one form;
- `Value.Resemblance`: relations of values that are of one form, at every depth;
- `Resemblance.display_eq`, `Resemblance.toJson_eq`, `Resemblance.strictEquals_eq`,
  `Resemblance.member`: conversions, comparisons and members.
-/

namespace StaticConfig

open List (Forall₂)

/-! ### Related records -/

namespace Record

variable {α β : Type} {R : α → β → Prop}

/-- Records with the same keys in the same order and related values. -/
def Related (R : α → β → Prop) (r : Record α) (other : Record β) : Prop :=
  List.Forall₂ (fun a b => a.1 = b.1 ∧ R a.2 b.2) r.entries other.entries

theorem related_empty : Related R .empty .empty := .nil

theorem Related.size_eq {r : Record α} {other : Record β} (h : Related R r other) :
    r.size = other.size := h.length_eq

theorem Related.get? {r : Record α} {other : Record β} (h : Related R r other) (key : String) :
    Option.Rel R (r.get? key) (other.get? key) := by
  obtain ⟨entries⟩ := r
  obtain ⟨others⟩ := other
  show Option.Rel R (entries.lookup key) (others.lookup key)
  have hentries : List.Forall₂ (fun a b => a.1 = b.1 ∧ R a.2 b.2) entries others := h
  clear h
  induction hentries with
  | nil => exact .none
  | @cons a b _ _ hhead _ ih =>
    obtain ⟨hkey, hvalue⟩ := hhead
    rw [List.lookup_cons, List.lookup_cons, ← hkey]
    cases key == a.1 with
    | true => exact .some hvalue
    | false => exact ih

theorem Related.insert {r : Record α} {other : Record β} (h : Related R r other) (key : String)
    {x : α} {y : β} (hvalue : R x y) : Related R (r.insert key x) (other.insert key y) := by
  obtain ⟨entries⟩ := r
  obtain ⟨others⟩ := other
  show List.Forall₂ _ (write key x entries) (write key y others)
  have hentries : List.Forall₂ (fun a b => a.1 = b.1 ∧ R a.2 b.2) entries others := h
  clear h
  induction hentries with
  | nil => exact .cons ⟨rfl, hvalue⟩ .nil
  | @cons a b _ _ hhead htail ih =>
    have hkey := hhead.1
    rw [write, write, ← hkey]
    split
    · exact .cons ⟨rfl, hvalue⟩ htail
    · exact .cons ⟨rfl, hhead.2⟩ ih

theorem Related.merge {r s : Record α} {other t : Record β} (h : Related R r other)
    (hwritten : Related R s t) : Related R (r.merge s) (other.merge t) := by
  obtain ⟨entries⟩ := s
  obtain ⟨others⟩ := t
  show Related R (entries.foldl _ r) (others.foldl _ other)
  have hentries : List.Forall₂ (fun a b => a.1 = b.1 ∧ R a.2 b.2) entries others := hwritten
  clear hwritten
  induction hentries generalizing r other with
  | nil => exact h
  | @cons a b _ _ hhead _ ih =>
    obtain ⟨hkey, hvalue⟩ := hhead
    rw [List.foldl_cons, List.foldl_cons, ← hkey]
    exact ih (h.insert a.1 hvalue)

end Record

/-! ### Related lists -/

theorem getElem?_related {α β : Type} {R : α → β → Prop} {as : List α} {bs : List β}
    (h : Forall₂ R as bs) (index : Nat) : Option.Rel R as[index]? bs[index]? := by
  induction h generalizing index with
  | nil => exact .none
  | cons hhead _ ih =>
    cases index with
    | zero => exact .some hhead
    | succ index => exact ih index

theorem zipIdx_related {α β : Type} {R : α → β → Prop} {as : List α} {bs : List β}
    (h : Forall₂ R as bs) (start : Nat) :
    Forall₂ (fun a b => R a.1 b.1 ∧ a.2 = b.2) (as.zipIdx start) (bs.zipIdx start) := by
  induction h generalizing start with
  | nil => exact .nil
  | cons hhead _ ih => exact .cons ⟨hhead, rfl⟩ (ih (start + 1))

/-! ### Resemblance -/

/-- Whether the value is neither a container nor a function. -/
def Value.isPrimitive : Value → Bool
  | .undefined | .null | .bool _ | .number _ | .string _ => true
  | .list .. | .record .. | .closure .. | .method .. => false

/-- What holds of all primitive values, form by form. -/
@[elab_as_elim]
theorem Value.primitive_cases {motive : Value → Prop} (undefined : motive .undefined)
    (null : motive .null) (bool : ∀ b, motive (.bool b)) (number : ∀ n, motive (.number n))
    (string : ∀ text, motive (.string text)) {v : Value} (hv : v.isPrimitive = true) :
    motive v := by
  cases v with
  | undefined => exact undefined
  | null => exact null
  | bool b => exact bool b
  | number n => exact number n
  | string text => exact string text
  | list | record | closure | method => cases hv

/-- Values of one form: the same data, tags that stand for one identity, and parts of lists and
records that are related by `R`. Of functions only the kind counts. -/
inductive Value.SameForm (tags : Nat → Nat → Prop) (R : Value → Value → Prop) :
    Value → Value → Prop
  | undefined : SameForm tags R .undefined .undefined
  | null : SameForm tags R .null .null
  | bool (b : Bool) : SameForm tags R (.bool b) (.bool b)
  | number (n : Number) : SameForm tags R (.number n) (.number n)
  | string (text : String) : SameForm tags R (.string text) (.string text)
  | list {tag tag' : Nat} {xs ys : List Value} : tags tag tag' → Forall₂ R xs ys →
      SameForm tags R (.list tag xs) (.list tag' ys)
  | record {tag tag' : Nat} {r other : Record Value} : tags tag tag' → Record.Related R r other →
      SameForm tags R (.record tag r) (.record tag' other)
  | closure {tag tag' : Nat} {code code' : ArrowCode} {s t : Scope Value} : tags tag tag' →
      SameForm tags R (.closure tag code s) (.closure tag' code' t)
  | method {tag tag' : Nat} {receiver other : Value} {m : Method} : tags tag tag' →
      SameForm tags R (.method tag receiver m) (.method tag' other m)

/-- A relation of values of one form, to which all primitive values belong. Tags are equal on one
side exactly when they are on the other. -/
structure Value.Resemblance (tags : Nat → Nat → Prop) (R : Value → Value → Prop) : Prop where
  form : ∀ {v w : Value}, R v w → v.SameForm tags R w
  primitive : ∀ {v : Value}, v.isPrimitive = true → R v v
  tags_unique : ∀ {s t s' t' : Nat}, tags s s' → tags t t' → (s = t ↔ s' = t')

/-- Outcomes that are the same fault, or values that are related. -/
inductive Outcome.Related {α β : Type} (R : α → β → Prop) : Except Fault α → Except Fault β → Prop
  | ok {a : α} {b : β} : R a b → Related R (.ok a) (.ok b)
  | error (fault : Fault) : Related R (.error fault) (.error fault)

/-- What member reads find on related values; a method that they find is allowed on the first
one. -/
inductive Found.Related (R : Value → Value → Prop) (target : Value) : Found → Found → Prop
  | value {v w : Value} : R v w → Found.Related R target (.value v) (.value w)
  | allowed {name : String} {m : Method} : target.allowedMethod? name = some m →
      Found.Related R target (.allowed m) (.allowed m)

namespace Value.Resemblance

variable {tags : Nat → Nat → Prop} {R : Value → Value → Prop} (hR : Resemblance tags R)
variable {v w : Value}

include hR

theorem typeName_eq (h : R v w) : v.typeName = w.typeName := by
  cases hR.form h <;> rfl

theorem isCallable_eq (h : R v w) : v.isCallable = w.isCallable := by
  cases hR.form h <;> rfl

theorem isTruthy_eq (h : R v w) : v.isTruthy = w.isTruthy := by
  cases hR.form h <;> rfl

/-- The items at an index, where one that is missing is undefined. -/
theorem itemAt {xs ys : List Value} (h : Forall₂ R xs ys) (index : Nat) :
    R (xs[index]?.getD .undefined) (ys[index]?.getD .undefined) := by
  have hitem := getElem?_related h index
  generalize xs[index]? = x, ys[index]? = y at hitem
  cases hitem with
  | none => exact hR.primitive rfl
  | some hitem => exact hitem

theorem headD {args others : List Value} (h : Forall₂ R args others) :
    R (args.headD .undefined) (others.headD .undefined) := by
  cases h with
  | nil => exact hR.primitive rfl
  | cons hhead _ => exact hhead

/-- Induction on related values, where what holds of the parts of lists and records is given item by
item and field by field. -/
@[elab_as_elim]
theorem induct {motive : ∀ v w, R v w → Prop}
    (undefined : ∀ h, motive .undefined .undefined h) (null : ∀ h, motive .null .null h)
    (bool : ∀ b h, motive (.bool b) (.bool b) h) (number : ∀ n h, motive (.number n) (.number n) h)
    (string : ∀ text h, motive (.string text) (.string text) h)
    (list : ∀ tag tag' xs ys, tags tag tag' → Forall₂ (fun x y => ∃ h, motive x y h) xs ys →
      ∀ h, motive (.list tag xs) (.list tag' ys) h)
    (record : ∀ tag tag' r other, tags tag tag' →
      Record.Related (fun x y => ∃ h, motive x y h) r other →
      ∀ h, motive (.record tag r) (.record tag' other) h)
    (closure : ∀ tag tag' code code' s t, tags tag tag' →
      ∀ h, motive (.closure tag code s) (.closure tag' code' t) h)
    (method : ∀ tag tag' receiver other m, tags tag tag' →
      ∀ h, motive (.method tag receiver m) (.method tag' other m) h)
    {v w : Value} (h : R v w) : motive v w h := by
  induction v using Value.induct generalizing w with
  | undefined =>
    cases hR.form h
    exact undefined h
  | null =>
    cases hR.form h
    exact null h
  | bool b =>
    cases hR.form h
    exact bool b h
  | number n =>
    cases hR.form h
    exact number n h
  | string text =>
    cases hR.form h
    exact string text h
  | list tag xs ih =>
    cases hR.form h with
    | list htag hitems =>
      have hmembers := (List.forall₂_and_left xs _).2 ⟨fun _ hx => hx, hitems⟩
      exact list _ _ _ _ htag (hmembers.imp fun x y hxy => ⟨hxy.2, ih x hxy.1 hxy.2⟩) h
  | record tag r ih =>
    cases hR.form h with
    | record htag hfields =>
      have hmembers := (List.forall₂_and_left r.entries _).2 ⟨fun _ hx => hx, hfields⟩
      exact record _ _ _ _ htag
        (hmembers.imp fun x y hxy => ⟨hxy.2.1, hxy.2.2, ih x hxy.1 hxy.2.2⟩) h
  | closure tag code s _ =>
    cases hR.form h with
    | closure htag => exact closure _ _ _ _ _ _ htag h
  | method tag receiver m _ =>
    cases hR.form h with
    | method htag => exact method _ _ _ _ _ htag h

/-! ### Conversions -/

theorem displayItems_eq {xs ys : List Value}
    (h : Forall₂ (fun x y => ∃ _ : R x y, x.display = y.display) xs ys) :
    displayItems xs = displayItems ys := by
  induction h with
  | nil => rfl
  | cons hhead _ ih =>
    obtain ⟨hrelated, htext⟩ := hhead
    cases hR.form hrelated <;> simp only [displayItems, htext, ih]

theorem display_eq (h : R v w) : v.display = w.display := by
  induction h using hR.induct with
  | list tag tag' xs ys _ hitems => rw [display, display, hR.displayItems_eq hitems]
  | record | closure | method => simp only [display]
  | undefined | null | bool | number | string => rfl

theorem toNumber_eq (h : R v w) : v.toNumber = w.toNumber := by
  have htext := hR.display_eq h
  cases hR.form h with
  | list => simp only [toNumber, htext]
  | _ => rfl

omit hR in
theorem jsonItems_eq {xs ys : List Value}
    (h : Forall₂ (fun x y => ∃ _ : R x y, x.json? = y.json?) xs ys) :
    jsonItems xs = jsonItems ys := by
  induction h with
  | nil => rfl
  | cons hhead _ ih => rw [jsonItems, jsonItems, hhead.2, ih]

omit hR in
theorem jsonFields_eq {xs ys : List (String × Value)}
    (h : Forall₂ (fun a b => a.1 = b.1 ∧ ∃ _ : R a.2 b.2, a.2.json? = b.2.json?) xs ys) :
    jsonFields xs = jsonFields ys := by
  induction h with
  | nil => rfl
  | @cons a b _ _ hhead _ ih =>
    obtain ⟨hkey, _, hvalue⟩ := hhead
    rw [jsonFields, jsonFields, hkey, hvalue, ih]

theorem json?_eq (h : R v w) : v.json? = w.json? := by
  induction h using hR.induct with
  | list tag tag' xs ys _ hitems => rw [json?, json?, jsonItems_eq hitems]
  | record tag tag' r other _ hfields => rw [json?, json?, jsonFields_eq hfields]
  | closure | method => simp only [json?]
  | undefined | null | bool | number | string => rfl

theorem toJson_eq (h : R v w) : v.toJson = w.toJson := by rw [toJson, toJson, hR.json?_eq h]

/-! ### Comparisons -/

theorem beq_tags_eq {s t s' t' : Nat} (h : tags s s') (h' : tags t t') : (s == t) = (s' == t') := by
  rw [Bool.eq_iff_iff, beq_iff_eq, beq_iff_eq]
  exact hR.tags_unique h h'

omit hR in
theorem equalItems_eq {xs ys us vs : List Value} (h : Forall₂ R xs ys) (hothers : Forall₂ R us vs)
    (hcompare : ∀ x ∈ xs, ∀ u ∈ us, ∀ {y v}, R x y → R u v → x.strictEquals u = y.strictEquals v) :
    equalItems xs us = equalItems ys vs := by
  induction h generalizing us vs with
  | nil => cases hothers <;> simp only [equalItems]
  | cons hhead _ ih =>
    cases hothers with
    | nil => simp only [equalItems]
    | cons hother hothers =>
      rw [equalItems, equalItems, hcompare _ List.mem_cons_self _ List.mem_cons_self hhead hother,
        ih hothers fun x hx u hu => hcompare x (.tail _ hx) u (.tail _ hu)]

omit hR in
theorem equalFields_eq {xs ys : List (String × Value)} {r other : Record Value}
    (h : Forall₂ (fun a b => a.1 = b.1 ∧ R a.2 b.2) xs ys) (hother : Record.Related R r other)
    (hcompare : ∀ entry ∈ xs, ∀ a, r.get? entry.1 = some a → ∀ {b y}, R a b → R entry.2 y →
      a.strictEquals entry.2 = b.strictEquals y) :
    equalFields xs r = equalFields ys other := by
  induction h with
  | nil => simp only [equalFields]
  | @cons entry entry' _ _ hhead _ ih =>
    obtain ⟨key, x⟩ := entry
    obtain ⟨hkey, hvalue⟩ := hhead
    have hentry (a : Value) (hfound : r.get? key = some a) {b : Value} (hab : R a b) :
        a.strictEquals x = b.strictEquals entry'.2 :=
      hcompare _ List.mem_cons_self a hfound hab hvalue
    have hfield := hother.get? key
    rw [equalFields, equalFields, ih fun entry hentry => hcompare entry (.tail _ hentry), ← hkey]
    generalize r.get? key = found, other.get? key = found' at hfield hentry
    cases hfield with
    | none => rfl
    | some hab => simp only [hentry _ rfl hab]

/-- Identity counts for as much on both sides, and contents are compared pair by pair. By induction
on the sizes of the values compared, of which either may be the first further in. -/
theorem strictEquals_eq {a b : Value} (h : R v w) (hother : R a b) :
    v.strictEquals a = w.strictEquals b := by
  induction hsize : sizeOf v + sizeOf a using Nat.strongRecOn generalizing v w a b with
  | _ size ih =>
    have hform := hR.form hother
    cases hR.form h with
    | @list tag tag' xs ys htag hitems =>
      cases hform with
      | @list _ _ us _ htag' hothers =>
        have hcompare (x : Value) (hx : x ∈ xs) (u : Value) (hu : u ∈ us) {y v : Value}
            (hxy : R x y) (huv : R u v) : x.strictEquals u = y.strictEquals v := by
          refine ih _ ?_ hxy huv rfl
          have hlight := List.sizeOf_lt_of_mem hx
          have hlight' := List.sizeOf_lt_of_mem hu
          simp only [← hsize, list.sizeOf_spec]
          omega
        rw [strictEquals, strictEquals, hR.beq_tags_eq htag htag',
          equalItems_eq hitems hothers hcompare]
      | _ => simp only [strictEquals]
    | @record tag tag' r other htag hfields =>
      cases hform with
      | @record _ _ s _ htag' hothers =>
        have hcompare (entry : String × Value) (hentry : entry ∈ r.entries) (a : Value)
            (ha : s.get? entry.1 = some a) {b y : Value} (hab : R a b) (hy : R entry.2 y) :
            a.strictEquals entry.2 = b.strictEquals y := by
          refine ih _ ?_ hab hy rfl
          have hlight := Record.sizeOf_of_mem hentry
          have hlight' := Record.sizeOf_of_get? ha
          simp only [← hsize, record.sizeOf_spec]
          omega
        rw [strictEquals, strictEquals, hR.beq_tags_eq htag htag',
          equalFields_eq hfields hothers hcompare, hfields.size_eq, hothers.size_eq]
      | _ => simp only [strictEquals]
    | closure htag =>
      cases hform with
      | closure htag' => rw [strictEquals, strictEquals, hR.beq_tags_eq htag htag']
      | _ => simp only [strictEquals]
    | method htag =>
      cases hform with
      | method htag' => rw [strictEquals, strictEquals, hR.beq_tags_eq htag htag']
      | _ => simp only [strictEquals]
    | undefined | null | bool | number | string => cases hform <;> simp only [strictEquals]

theorem includes_eq {xs ys : List Value} (h : Forall₂ R xs ys) (hvalue : R v w) :
    xs.any (·.strictEquals v) = ys.any (·.strictEquals w) := by
  induction h with
  | nil => rfl
  | cons hhead _ ih => rw [List.any_cons, List.any_cons, hR.strictEquals_eq hhead hvalue, ih]

/-! ### Members -/

theorem member (h : R v w) (name : String) :
    Outcome.Related (Found.Related R v) (v.member name) (w.member name) := by
  -- What is not there is missing on both sides alike, whatever the type of the receiver.
  have hmissing (receiver : Value) : Outcome.Related (Found.Related R v)
      (if receiver.hasCallableMember name then
          .error (.unsupportedMethod name receiver.typeName)
        else .ok (.value .undefined))
      (if receiver.hasCallableMember name then
          .error (.unsupportedMethod name receiver.typeName)
        else .ok (.value .undefined)) := by
    split
    · exact .error _
    · exact .ok (.value (hR.primitive rfl))
  cases hR.form h with
  | undefined | null => exact .error _
  | bool b => exact hmissing (.bool b)
  | number n => exact hmissing (.number n)
  | string text =>
    simp only [Value.member]
    split
    · rename_i hallowed
      exact .ok (.allowed hallowed)
    · split
      · exact .ok (.value (hR.primitive rfl))
      · split
        · split
          · exact .ok (.value (hR.primitive rfl))
          · exact .ok (.value (hR.primitive rfl))
        · exact hmissing (.string text)
  | @list tag tag' xs ys _ hitems =>
    have hallowed : (Value.list tag' ys).allowedMethod? name =
        (Value.list tag xs).allowedMethod? name := rfl
    simp only [Value.member, hallowed]
    split
    · rename_i hallowed
      exact .ok (.allowed hallowed)
    · split
      · rw [hitems.length_eq]
        exact .ok (.value (hR.primitive rfl))
      · split
        · exact .ok (.value (hR.itemAt hitems _))
        · exact hmissing (.list tag xs)
  | @record tag tag' r other _ hfields =>
    simp only [Value.member]
    have hfield := hfields.get? name
    generalize r.get? name = x, other.get? name = y at hfield
    cases hfield with
    | none => exact hmissing (.record tag r)
    | some hvalue =>
      simp only [hR.isCallable_eq hvalue]
      split
      · exact .error _
      · exact .ok (.value hvalue)
  | @closure tag _ code _ scope => exact hmissing (.closure tag code scope)
  | @method tag _ receiver _ m => exact hmissing (.method tag receiver m)

/-! ### Operators and methods -/

theorem sliceBound_eq {arg other : Option Value} (h : Option.Rel R arg other)
    (length default : Nat) : sliceBound arg length default = sliceBound other length default := by
  cases h with
  | none => rfl
  | some hvalue =>
    have hnumber := hR.toNumber_eq hvalue
    cases hR.form hvalue with
    | undefined => rfl
    | _ => simp only [sliceBound, hnumber]

theorem sliceText_eq {args others : List Value} (h : Forall₂ R args others) (text : List Char) :
    sliceText text args = sliceText text others := by
  simp only [sliceText, hR.sliceBound_eq (getElem?_related h 0),
    hR.sliceBound_eq (getElem?_related h 1)]

theorem spliced {v w : Value} (h : R v w) :
    Forall₂ R (Pending.spliced v) (Pending.spliced w) := by
  have hform := hR.form h
  cases hform with
  | list _ hitems => exact hitems
  | _ => exact .cons h .nil

theorem callbackArgs {list other : Value} (hitem : R v w) (hlist : R list other) (index : Nat) :
    Forall₂ R (callbackArgs v index list) (callbackArgs w index other) :=
  .cons hitem (.cons (hR.primitive rfl) (.cons hlist .nil))

end Value.Resemblance

theorem bindParams_related {R : Value → Value → Prop} (hundefined : R .undefined .undefined)
    {args others : List Value} (h : Forall₂ R args others) (params : List String) :
    Forall₂ (fun a b => a.1 = b.1 ∧ R a.2 b.2) (bindParams params args)
      (bindParams params others) := by
  induction params generalizing args others with
  | nil => cases h <;> exact .nil
  | cons param params ih =>
    cases h with
    | nil => exact .cons ⟨rfl, hundefined⟩ (ih .nil)
    | cons hhead htail => exact .cons ⟨rfl, hhead⟩ (ih htail)

end StaticConfig
