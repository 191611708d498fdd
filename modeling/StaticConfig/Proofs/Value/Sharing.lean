import StaticConfig.Evaluation.Evaluate
import StaticConfig.Proofs.Snippet
import StaticConfig.Proofs.Value.Equality

/-!
# Sharing and strict equality

Strict equality takes a container that is compared with itself for equal to itself and does not look
into it. A comparison of contents does look, and finds the difference that `nan` makes. So whether
two lists or records are equal depends on their contents alone, except where these hold `nan`: then
it depends on whether the two are shared or were built apart.

- `Value.SameContents`: the comparison of contents, without any identity of lists and records;
- `Value.HoldsNan`: whether `nan` is the value or an item or field of it, at any depth;
- `sameContents_iff`: on stored values the two comparisons part exactly on equal values with `nan`;
- `selfComparison_shared`: a program that compares a list that holds `nan` with itself.
-/

namespace StaticConfig

open List (Forall₂)

namespace Value

/-- The comparison of contents: lists item by item, records key by key, and functions only by
identity. -/
inductive SameContents : Value → Value → Prop
  | undefined : SameContents .undefined .undefined
  | null : SameContents .null .null
  | bool (b : Bool) : SameContents (.bool b) (.bool b)
  | number {m n : Number} : m.equals n = true → SameContents (.number m) (.number n)
  | string (text : String) : SameContents (.string text) (.string text)
  | list {s t : Nat} {xs ys : List Value} : xs.length = ys.length →
      (∀ x y, (x, y) ∈ xs.zip ys → SameContents x y) → SameContents (.list s xs) (.list t ys)
  | record {s t : Nat} {r other : Record Value} :
      (∀ key, r.get? key = none ↔ other.get? key = none) →
      (∀ key x y, r.get? key = some x → other.get? key = some y → SameContents x y) →
      SameContents (.record s r) (.record t other)
  | closure {tag : Nat} {code code' : ArrowCode} {scope scope' : Scope Value} :
      SameContents (.closure tag code scope) (.closure tag code' scope')
  | method {tag : Nat} {receiver receiver' : Value} {m m' : Method} :
      SameContents (.method tag receiver m) (.method tag receiver' m')

/-- Whether `nan` is in the value, itself or in a list or record at any depth. -/
inductive HoldsNan : Value → Prop
  | nan : HoldsNan (.number .nan)
  | item {tag : Nat} {items : List Value} {item : Value} : item ∈ items → HoldsNan item →
      HoldsNan (.list tag items)
  | field {tag : Nat} {fields : Record Value} {entry : String × Value} :
      entry ∈ fields.entries → HoldsNan entry.2 → HoldsNan (.record tag fields)

theorem SameContents.typeName_eq {v w : Value} (h : v.SameContents w) :
    v.typeName = w.typeName := by
  cases h <;> rfl

theorem sameContents_list_iff {s t : Nat} {xs ys : List Value} :
    (list s xs).SameContents (.list t ys) ↔ Forall₂ SameContents xs ys := by
  constructor
  · intro h
    cases h with
    | list hlength hitems => exact List.forall₂_iff_zip.2 ⟨hlength, fun {x y} => hitems x y⟩
  · exact fun h => .list h.length_eq fun x y => List.forall₂_zip h

theorem sameContents_record_iff {s t : Nat} {r other : Record Value} :
    (record s r).SameContents (.record t other) ↔ r.Matches SameContents other := by
  constructor
  · intro h
    cases h with
    | record hnone hfields => exact Record.matches_of hnone fun {key x y} => hfields key x y
  · exact fun h => .record h.get?_eq_none_iff fun key x y => h.related

theorem strictEquals_self_of_not_holdsNan {v : Value} (h : ¬ v.HoldsNan) :
    v.strictEquals v = true :=
  (strictEquals_self_iff v).2 fun hv => h (hv ▸ .nan)

variable {σ : Storage}

/-! ### From contents to equality -/

theorem SameContents.strictEquals {v w : Value} (h : v.SameContents w) (hv : v.StoredIn σ)
    (hw : w.StoredIn σ) : v.strictEquals w = true := by
  induction h with
  | undefined | null | bool | string | closure | method => simp only [Value.strictEquals, BEq.rfl]
  | number hequal => rwa [Value.strictEquals]
  | @list s t xs ys hlength _ ih =>
    refine strictEquals_list_iff.2 (.inr (List.forall₂_iff_zip.2 ⟨hlength, fun {x y} hmem => ?_⟩))
    obtain ⟨hx, hy⟩ := List.of_mem_zip hmem
    exact ih x y hmem (hv.items x hx) (hw.items y hy)
  | @record s t r other hnone _ ih =>
    refine (strictEquals_record_iff hv.nodup_keys hw.nodup_keys).2 (.inr ?_)
    refine Record.matches_of hnone fun {key x y} hx hy => ?_
    rw [strictEquals_comm (hw.field hy) (hv.field hx)]
    exact ih key x y hx hy (hv.field hx) (hw.field hy)

/-- Contents that are compared down to the last item include no `nan`, which no number equals. -/
theorem SameContents.not_holdsNan {v w : Value} (h : v.SameContents w) (hv : v.StoredIn σ) :
    ¬ v.HoldsNan := by
  intro hnan
  induction hnan generalizing w with
  | nan =>
    cases h with
    | number hequal => cases hequal
  | @item tag items item hitem _ ih =>
    cases w with
    | list t ys =>
      obtain ⟨_, _, hsame⟩ := exists_mem_of_forall₂ (sameContents_list_iff.1 h) hitem
      exact ih hsame (hv.items item hitem)
    | undefined | null | bool | number | string | record | closure | method => cases h
  | @field tag fields entry hentry _ ih =>
    cases w with
    | record t other =>
      have hvalue : fields.get? entry.1 = some entry.2 :=
        (Record.get?_eq_some_iff hv.nodup_keys).2 hentry
      obtain ⟨y, _, hsame⟩ := (sameContents_record_iff.1 h).exists_right hvalue
      exact ih hsame (hv.fields entry hentry)
    | undefined | null | bool | number | string | list | closure | method => cases h

/-! ### From equality to contents -/

/-- Without `nan` it makes no difference that one and the same list is not looked into. -/
theorem EqualIn.items {s t : Nat} {xs ys : List Value} (h : EqualIn σ (.list s xs) (.list t ys))
    (hnan : ∀ x ∈ xs, ¬ x.HoldsNan) : Forall₂ (EqualIn σ) xs ys := by
  rcases (equalIn_list_iff h.left h.right).1 h with rfl | hitems
  · rw [← h.left.items_unique h.right]
    have hself (x : Value) (hx : x ∈ xs) : EqualIn σ x x :=
      ⟨h.left.items x hx, h.left.items x hx, strictEquals_self_of_not_holdsNan (hnan x hx)⟩
    exact List.forall₂_same.2 hself
  · exact hitems

/-- Without `nan` it makes no difference that one and the same record is not looked into. -/
theorem EqualIn.fields {s t : Nat} {r other : Record Value}
    (h : EqualIn σ (.record s r) (.record t other))
    (hnan : ∀ entry ∈ r.entries, ¬ entry.2.HoldsNan) : r.Matches (EqualIn σ) other := by
  rcases (equalIn_record_iff h.left h.right).1 h with rfl | hfields
  · rw [← h.left.fields_unique h.right]
    refine Record.matches_of (fun _ => Iff.rfl) fun {key x y} hx hy => ?_
    have hself : ¬ x.HoldsNan := hnan _ ((Record.get?_eq_some_iff h.left.nodup_keys).1 hx)
    rw [← Option.some.inj (hx.symm.trans hy)]
    exact ⟨h.left.field hx, h.left.field hx, strictEquals_self_of_not_holdsNan hself⟩
  · exact hfields

theorem EqualIn.sameContents {v w : Value} (h : EqualIn σ v w) (hnan : ¬ v.HoldsNan) :
    v.SameContents w := by
  induction v using Value.induct generalizing w with
  | list s xs ih =>
    cases w with
    | list t ys =>
      have hclean (x : Value) (hx : x ∈ xs) : ¬ x.HoldsNan := fun h => hnan (.item hx h)
      refine sameContents_list_iff.2 (forall₂_imp_of_mem (h.items hclean) fun x hx y _ hxy => ?_)
      exact ih x hx hxy (hclean x hx)
    | undefined | null | bool | number | string | record | closure | method =>
      exact absurd h.equal (by simp [strictEquals])
  | record s r ih =>
    cases w with
    | record t other =>
      have hclean (entry : String × Value) (hentry : entry ∈ r.entries) : ¬ entry.2.HoldsNan :=
        fun h => hnan (.field hentry h)
      refine sameContents_record_iff.2 ((h.fields hclean).imp fun {key x y} hx _ hxy => ?_)
      have hentry : (key, x) ∈ r.entries := (Record.get?_eq_some_iff h.left.nodup_keys).1 hx
      exact ih _ hentry hxy (hclean _ hentry)
    | undefined | null | bool | number | string | list | closure | method =>
      exact absurd h.equal (by simp [strictEquals])
  | undefined | null | bool | number | string | closure | method =>
    have hequal := h.equal
    cases w <;> simp only [strictEquals, beq_iff_eq, reduceCtorEq] at hequal
    first
    | exact .undefined
    | exact .null
    | exact .number hequal
    | subst hequal; first | exact .bool _ | exact .string _ | exact .closure | exact .method

/-- **Contents and sharing.** Values of one storage have the same contents exactly when they are
strictly equal and hold no `nan`. -/
theorem sameContents_iff {v w : Value} (hv : v.StoredIn σ) (hw : w.StoredIn σ) :
    v.SameContents w ↔ v.strictEquals w = true ∧ ¬ v.HoldsNan :=
  ⟨fun h => ⟨h.strictEquals hv hw, h.not_holdsNan hv⟩,
    fun h => EqualIn.sameContents ⟨hv, hw, h.1⟩ h.2⟩

section Sample

open Snippet (place)

/-- The two records hold one and the same list with `nan`: they are equal, and their contents are
not. -/
theorem sameContents_iff_sharedNan :
    nanFirst.strictEquals nanLast = true ∧ nanFirst.HoldsNan ∧ ¬ nanFirst.SameContents nanLast := by
  obtain ⟨σ, -, hfirst, hlast⟩ := exists_nan_stored
  have hequal : nanFirst.strictEquals nanLast = true := by decide +kernel
  have hnan : nanFirst.HoldsNan :=
    .field (List.mem_cons_self ..) (.item (List.mem_cons_self ..) .nan)
  exact ⟨hequal, hnan, fun h => ((sameContents_iff hfirst hlast).1 h).2 hnan⟩

/-- The body of an arrow function that compares its parameter with itself. -/
def selfEquality : ArrowBody :=
  .value (.binary (place 9 18) .strictEqual (.identifier ⟨"xs", place 9 11⟩)
    (.identifier ⟨"xs", place 16 18⟩))

/-- The expression `((xs) => xs === xs)`. -/
def selfComparer : Expr :=
  .wrapped (place 0 19) .parentheses (.arrow (place 1 18) false [.name "xs"] selfEquality)

/-- The expression `((xs) => xs === xs)([+undefined])`. -/
def selfComparison : Expr := .call (place 0 33) (.value selfComparer) [.plain nanArray]

/-- The array comes to a list that differs in contents from itself and from a list built like it.
The program finds the list equal to itself, and yet it is not equal to the other one. -/
theorem selfComparison_shared :
    (evaluate .none 4 4 .root (.expr nanArray)).run .start =
        (.ok (.list 0 [.number .nan]), ⟨[], 1⟩) ∧
      (∀ tag, ¬ (Value.list 0 [.number .nan]).SameContents (.list tag [.number .nan])) ∧
      (evaluate .none 4 4 .root (.expr selfComparison)).run .start = (.ok (.bool true), ⟨[], 2⟩) ∧
      (Value.list 0 [.number .nan]).strictEquals (.list 1 [.number .nan]) = false := by
  refine ⟨rfl, fun tag h => ?_, ?_, by decide +kernel⟩
  · cases sameContents_list_iff.1 h with
    | cons hnan _ =>
      cases hnan with
      | number hequal => cases hequal
  · have hcallee : (evaluate .none 4 3 .root (.expr selfComparer)).run ⟨[place 0 33], 0⟩ =
        (.ok (.closure 0 ⟨place 1 18, ["xs"], selfEquality⟩ .root), ⟨[place 0 33], 1⟩) := rfl
    have hargs : ([Argument.plain nanArray].mapM (evalArgument (evaluate .none 4 3) .root)).run
        ⟨[place 0 33], 1⟩ = (.ok [[.list 1 [.number .nan]]], ⟨[place 0 33], 2⟩) := rfl
    have hcall : (evalCall .none (evaluate .none 4 3) .root (place 0 33) (.value selfComparer)
        [.plain nanArray]).run ⟨[place 0 33], 0⟩ = (.ok (.bool true), ⟨[place 0 33], 2⟩) := by
      have hself : (list 1 [.number .nan]).strictEquals (.list 1 [.number .nan]) = true :=
        (strictEquals_self_iff _).2 nofun
      rw [run_evalCall hcallee hargs, call_closure, ← hself]
      rfl
    exact Eval.run_within_of hcall

end Sample

end Value

end StaticConfig
