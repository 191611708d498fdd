import Mathlib.Data.List.Forall2
import StaticConfig.Proofs.Evaluation.Stored
import StaticConfig.Proofs.Number.Equality
import StaticConfig.Proofs.Snippet
import StaticConfig.Value.Equality

/-!
# The laws of strict equality

Strict equality is symmetric and transitive, and every value but `nan` is equal to itself, a list
that holds `nan` too. All of it is by recursion on the values, where the identity of containers cuts
the recursion short, and on records it rests on distinct keys.

- `Value.EqualIn`: equality of stored values, with what it says of lists and records;
- `strictEquals_comm`, `EqualIn.trans`, `Value.strictEquals_self_iff`: the laws one by one;
- `Value.Reordered`: values that differ in nothing but the order of keys, at any depth, which no
  comparison tells apart;
- `Value.strictEquals_laws`: the laws together.
-/

namespace StaticConfig

open List (Forall₂)

namespace Value

/-! ### What comparisons of containers say -/

theorem equalItems_iff {xs ys : List Value} :
    equalItems xs ys = true ↔ Forall₂ (fun x y => x.strictEquals y = true) xs ys := by
  induction xs generalizing ys with
  | nil => cases ys <;> simp [equalItems]
  | cons x xs ih =>
    cases ys with
    | nil => simp [equalItems]
    | cons y ys => rw [equalItems, Bool.and_eq_true, ih, List.forall₂_cons]

theorem equalFields_iff {entries : List (String × Value)} {other : Record Value} :
    equalFields entries other = true ↔
      ∀ entry ∈ entries, ∃ theirs, other.get? entry.1 = some theirs ∧
        theirs.strictEquals entry.2 = true := by
  induction entries with
  | nil => simp [equalFields]
  | cons entry rest ih =>
    rw [equalFields, Bool.and_eq_true, ih, List.forall_mem_cons]
    refine and_congr_left fun _ => ?_
    cases other.get? entry.1 <;> simp

theorem strictEquals_list_iff {s t : Nat} {xs ys : List Value} :
    (list s xs).strictEquals (.list t ys) = true ↔
      s = t ∨ Forall₂ (fun x y => x.strictEquals y = true) xs ys := by
  rw [strictEquals, Bool.or_eq_true, beq_iff_eq, equalItems_iff]

theorem strictEquals_record_iff {s t : Nat} {r other : Record Value} (hr : r.keys.Nodup)
    (hother : other.keys.Nodup) :
    (record s r).strictEquals (.record t other) = true ↔
      s = t ∨ r.Matches (fun x y => y.strictEquals x = true) other := by
  rw [strictEquals, Bool.or_eq_true, Bool.and_eq_true, beq_iff_eq, beq_iff_eq, equalFields_iff,
    Record.matches_iff hr hother]

/-- Where two relations compose on the items of the first list, so they do on lists. -/
theorem forall₂_trans_of_mem {α β γ : Type} {R : α → β → Prop} {S : β → γ → Prop}
    {T : α → γ → Prop} {xs : List α} {ys : List β} {zs : List γ}
    (h : ∀ x ∈ xs, ∀ y z, R x y → S y z → T x z) (hxy : Forall₂ R xs ys) (hyz : Forall₂ S ys zs) :
    Forall₂ T xs zs := by
  induction hxy generalizing zs with
  | nil =>
    cases hyz
    exact .nil
  | cons hhead _ ih =>
    cases hyz with
    | cons hhead' htail' =>
      obtain ⟨hfirst, hrest⟩ := List.forall_mem_cons.1 h
      exact .cons (hfirst _ _ hhead hhead') (ih hrest htail')

/-- Lists are related item by item on no more than what their items stand for. -/
theorem forall₂_congr_of {α β α' β' : Type} {R : α → β → Prop} {R' : α' → β' → Prop}
    {A : α → α' → Prop} {B : β → β' → Prop} {xs : List α} {xs' : List α'} {ys : List β}
    {ys' : List β'} (hxs : Forall₂ A xs xs') (hys : Forall₂ B ys ys')
    (h : ∀ {x x' y y'}, A x x' → B y y' → (R x y ↔ R' x' y')) :
    Forall₂ R xs ys ↔ Forall₂ R' xs' ys' := by
  induction hxs generalizing ys ys' with
  | nil =>
    cases hys with
    | nil => exact iff_of_true .nil .nil
    | cons => exact iff_of_false nofun nofun
  | cons hhead _ ih =>
    cases hys with
    | nil => exact iff_of_false nofun nofun
    | cons hhead' htail' =>
      rw [List.forall₂_cons, List.forall₂_cons, h hhead hhead', ih htail']

/-! ### Equality of stored values -/

variable {σ : Storage}

/-- By induction on the left value. A comparison of records turns its values around, and distinct
keys let it be made from either record. -/
theorem strictEquals_comm {v w : Value} (hv : v.StoredIn σ) (hw : w.StoredIn σ) :
    v.strictEquals w = w.strictEquals v := by
  induction v using Value.induct generalizing w with
  | list s xs ih =>
    cases w with
    | list t ys =>
      have hsame (x : Value) (hx : x ∈ xs) (y : Value) (hy : y ∈ ys) :
          x.strictEquals y = y.strictEquals x := ih x hx (hv.items x hx) (hw.items y hy)
      rw [Bool.eq_iff_iff, strictEquals_list_iff, strictEquals_list_iff, eq_comm (a := s)]
      refine or_congr_right ⟨fun h => ?_, fun h => ?_⟩
      · exact (forall₂_imp_of_mem h fun x hx y hy hxy => (hsame x hx y hy).symm.trans hxy).flip
      · exact (forall₂_imp_of_mem h fun y hy x hx hyx => (hsame x hx y hy).trans hyx).flip
    | undefined | null | bool | number | string | record | closure | method =>
      simp only [strictEquals]
  | record s r ih =>
    cases w with
    | record t other =>
      have hsame {key : String} {x y : Value} (hx : r.get? key = some x)
          (hy : other.get? key = some y) : x.strictEquals y = y.strictEquals x :=
        ih _ ((Record.get?_eq_some_iff hv.nodup_keys).1 hx) (hv.field hx) (hw.field hy)
      rw [Bool.eq_iff_iff, strictEquals_record_iff hv.nodup_keys hw.nodup_keys,
        strictEquals_record_iff hw.nodup_keys hv.nodup_keys, eq_comm (a := s)]
      refine or_congr_right ⟨fun h => ?_, fun h => ?_⟩
      · exact (h.imp fun hx hy hyx => (hsame hx hy).trans hyx).flip
      · exact (h.imp fun hy hx hxy => (hsame hx hy).symm.trans hxy).flip
    | undefined | null | bool | number | string | list | closure | method =>
      simp only [strictEquals]
  | number m =>
    cases w with
    | number n =>
      rw [strictEquals, strictEquals, Bool.eq_iff_iff]
      exact ⟨Number.equals_symm, Number.equals_symm⟩
    | undefined | null | bool | string | list | record | closure | method =>
      simp only [strictEquals]
  | undefined | null | bool | string | closure | method =>
    cases w <;> simp only [strictEquals, Bool.beq_comm]

/-- Values of one storage that compare equal. -/
structure EqualIn (σ : Storage) (v w : Value) : Prop where
  left : v.StoredIn σ
  right : w.StoredIn σ
  equal : v.strictEquals w = true

theorem EqualIn.symm {v w : Value} (h : EqualIn σ v w) : EqualIn σ w v :=
  ⟨h.right, h.left, (strictEquals_comm h.right h.left).trans h.equal⟩

theorem equalIn_list_iff {s t : Nat} {xs ys : List Value} (hxs : (list s xs).StoredIn σ)
    (hys : (list t ys).StoredIn σ) :
    EqualIn σ (.list s xs) (.list t ys) ↔ s = t ∨ Forall₂ (EqualIn σ) xs ys := by
  constructor
  · intro h
    refine (strictEquals_list_iff.1 h.equal).imp_right fun hitems => ?_
    exact forall₂_imp_of_mem hitems fun x hx y hy hxy => ⟨hxs.items x hx, hys.items y hy, hxy⟩
  · intro h
    refine ⟨hxs, hys, strictEquals_list_iff.2 (h.imp_right fun hitems => ?_)⟩
    exact hitems.imp fun _ _ => EqualIn.equal

theorem equalIn_record_iff {s t : Nat} {r other : Record Value} (hr : (record s r).StoredIn σ)
    (hother : (record t other).StoredIn σ) :
    EqualIn σ (.record s r) (.record t other) ↔ s = t ∨ r.Matches (EqualIn σ) other := by
  have hiff := strictEquals_record_iff (s := s) (t := t) hr.nodup_keys hother.nodup_keys
  constructor
  · intro h
    refine (hiff.1 h.equal).imp_right fun hfields => hfields.imp fun hx hy hyx => ?_
    exact EqualIn.symm ⟨hother.field hy, hr.field hx, hyx⟩
  · intro h
    refine ⟨hr, hother, hiff.2 (h.imp_right fun hfields => hfields.imp ?_)⟩
    exact fun _ _ hxy => hxy.symm.equal

theorem exists_list_of_strictEquals {s : Nat} {xs : List Value} {v : Value}
    (h : (list s xs).strictEquals v = true) : ∃ t ys, v = .list t ys := by
  cases v with
  | list t ys => exact ⟨t, ys, rfl⟩
  | undefined | null | bool | number | string | record | closure | method =>
    simp [strictEquals] at h

theorem exists_record_of_strictEquals {s : Nat} {r : Record Value} {v : Value}
    (h : (record s r).strictEquals v = true) : ∃ t other, v = .record t other := by
  cases v with
  | record t other => exact ⟨t, other, rfl⟩
  | undefined | null | bool | number | string | list | closure | method =>
    simp [strictEquals] at h

theorem exists_number_of_strictEquals {m : Number} {v : Value}
    (h : (number m).strictEquals v = true) : ∃ n, v = .number n := by
  cases v with
  | number n => exact ⟨n, rfl⟩
  | undefined | null | bool | string | list | record | closure | method =>
    simp [strictEquals] at h

/-- By induction on the left value. Where two of the values are one and the same, what the third one
is equal to does not change. -/
theorem EqualIn.trans {u v w : Value} (h : EqualIn σ u v) (h' : EqualIn σ v w) :
    EqualIn σ u w := by
  induction u using Value.induct generalizing v w with
  | list s xs ih =>
    obtain ⟨t, ys, rfl⟩ := exists_list_of_strictEquals h.equal
    obtain ⟨t', zs, rfl⟩ := exists_list_of_strictEquals h'.equal
    refine (equalIn_list_iff h.left h'.right).2 ?_
    rcases (equalIn_list_iff h.left h.right).1 h with rfl | hxy
    · rw [h.left.items_unique h.right]
      exact (equalIn_list_iff h.right h'.right).1 h'
    · rcases (equalIn_list_iff h'.left h'.right).1 h' with rfl | hyz
      · rw [← h.right.items_unique h'.right]
        exact .inr hxy
      · have hstep (x : Value) (hx : x ∈ xs) (y z : Value) (hxy : EqualIn σ x y)
            (hyz : EqualIn σ y z) : EqualIn σ x z := ih x hx hxy hyz
        exact .inr (forall₂_trans_of_mem hstep hxy hyz)
  | record s r ih =>
    obtain ⟨t, other, rfl⟩ := exists_record_of_strictEquals h.equal
    obtain ⟨t', third, rfl⟩ := exists_record_of_strictEquals h'.equal
    refine (equalIn_record_iff h.left h'.right).2 ?_
    rcases (equalIn_record_iff h.left h.right).1 h with rfl | hxy
    · rw [h.left.fields_unique h.right]
      exact (equalIn_record_iff h.right h'.right).1 h'
    · rcases (equalIn_record_iff h'.left h'.right).1 h' with rfl | hyz
      · rw [← h.right.fields_unique h'.right]
        exact .inr hxy
      · refine .inr ((hxy.comp hyz).imp fun hx _ hxyz => ?_)
        obtain ⟨y, hxy, hyz⟩ := hxyz
        exact ih _ ((Record.get?_eq_some_iff h.left.nodup_keys).1 hx) hxy hyz
  | undefined | null =>
    obtain ⟨-, -, huv⟩ := h
    cases v <;> simp only [strictEquals, reduceCtorEq] at huv
    exact h'
  | number m =>
    obtain ⟨n, rfl⟩ := exists_number_of_strictEquals h.equal
    obtain ⟨o, rfl⟩ := exists_number_of_strictEquals h'.equal
    obtain ⟨hu, -, huv⟩ := h
    obtain ⟨-, hw, hvw⟩ := h'
    rw [strictEquals] at huv hvw
    exact ⟨hu, hw, by rw [strictEquals]; exact Number.equals_trans huv hvw⟩
  | bool | string | closure | method =>
    obtain ⟨hu, -, huv⟩ := h
    obtain ⟨-, hw, hvw⟩ := h'
    refine ⟨hu, hw, ?_⟩
    cases v <;> simp only [strictEquals, beq_iff_eq, reduceCtorEq] at huv
    cases w <;> simp only [strictEquals, beq_iff_eq, reduceCtorEq] at hvw ⊢
    exact huv.trans hvw

/-- One and the same container is equal to itself, whatever it holds. -/
theorem strictEquals_self_iff (v : Value) : v.strictEquals v = true ↔ v ≠ .number .nan := by
  cases v with
  | number n => rw [strictEquals, Number.equals_self_iff, ne_eq, ne_eq, number.injEq]
  | undefined | null | bool | string | list | record | closure | method =>
    simp [strictEquals]

/-! ### The order of keys -/

/-- Values that differ at most in the order in which their records, at any depth, list the keys. -/
inductive Reordered : Value → Value → Prop
  | same (v : Value) : Reordered v v
  | list {tag : Nat} {xs ys : List Value} : xs.length = ys.length →
      (∀ x y, (x, y) ∈ xs.zip ys → Reordered x y) → Reordered (.list tag xs) (.list tag ys)
  | record {tag : Nat} {r other : Record Value} : r.keys.Perm other.keys →
      (∀ key x y, r.get? key = some x → other.get? key = some y → Reordered x y) →
      Reordered (.record tag r) (.record tag other)

theorem reordered_list_iff {tag : Nat} {xs : List Value} {w : Value} :
    (list tag xs).Reordered w ↔ ∃ ys, w = .list tag ys ∧ Forall₂ Reordered xs ys := by
  constructor
  · intro h
    cases h with
    | same => exact ⟨xs, rfl, List.forall₂_same.2 fun x _ => .same x⟩
    | @list _ _ ys hlength hitems =>
      exact ⟨ys, rfl, List.forall₂_iff_zip.2 ⟨hlength, fun {x y} => hitems x y⟩⟩
  · rintro ⟨ys, rfl, hitems⟩
    exact .list hitems.length_eq fun x y => List.forall₂_zip hitems

theorem reordered_record_iff {tag : Nat} {r : Record Value} {w : Value} (hr : r.keys.Nodup) :
    (record tag r).Reordered w ↔
      ∃ other, w = .record tag other ∧ other.keys.Nodup ∧ r.Matches Reordered other := by
  constructor
  · intro h
    cases h with
    | same =>
      refine ⟨r, rfl, hr, Record.matches_of (fun _ => Iff.rfl) fun {key x y} hx hy => ?_⟩
      rw [Option.some.inj (hx.symm.trans hy)]
      exact .same y
    | @record _ _ other hperm hfields =>
      have hother : other.keys.Nodup := hperm.nodup_iff.1 hr
      exact ⟨other, rfl, hother, Record.matches_of
        (Record.get?_eq_none_iff_of_perm hr hother hperm) fun {key x y} => hfields key x y⟩
  · rintro ⟨other, rfl, hother, hfields⟩
    exact .record (hfields.perm_keys hr hother) fun key x y => hfields.related

/-- Whether the value, reordered, compares to other reordered values as it does as it is, on either
side. -/
def SameComparisons (σ : Storage) (x : Value) : Prop :=
  ∀ {x' y y' : Value}, x.Reordered x' → y.Reordered y' → y.StoredIn σ →
    x'.strictEquals y' = x.strictEquals y ∧ y'.strictEquals x' = y.strictEquals x

/-- No comparison depends on the order of keys. By induction on the value: the parts that are
compared are reordered parts. -/
theorem StoredIn.sameComparisons {v : Value} (hv : v.StoredIn σ) : SameComparisons σ v := by
  induction v using Value.induct with
  | list s xs ih =>
    intro v' w w' hvv hww hw
    obtain ⟨xs', rfl, hxs⟩ := reordered_list_iff.1 hvv
    cases w with
    | list t ys =>
      obtain ⟨ys', rfl, hys⟩ := reordered_list_iff.1 hww
      have hparts (x : Value) (hx : x ∈ xs) : SameComparisons σ x := ih x hx (hv.items x hx)
      have hleft := (List.forall₂_and_left xs xs').2 ⟨hparts, hxs⟩
      have hright := (List.forall₂_and_left ys ys').2 ⟨hw.items, hys⟩
      constructor
      · rw [Bool.eq_iff_iff, strictEquals_list_iff, strictEquals_list_iff]
        refine or_congr_right (forall₂_congr_of hleft hright fun hx hy => ?_).symm
        rw [(hx.1 hx.2 hy.2 hy.1).1]
      · rw [Bool.eq_iff_iff, strictEquals_list_iff, strictEquals_list_iff]
        refine or_congr_right (forall₂_congr_of hright hleft fun hy hx => ?_).symm
        rw [(hx.1 hx.2 hy.2 hy.1).2]
    | record t other =>
      obtain ⟨other', rfl, -⟩ := (reordered_record_iff hw.nodup_keys).1 hww
      simp only [strictEquals, and_self]
    | undefined | null | bool | number | string | closure | method =>
      cases hww
      simp only [strictEquals, and_self]
  | record s r ih =>
    intro v' w w' hvv hww hw
    obtain ⟨r', rfl, hr', hfields⟩ := (reordered_record_iff hv.nodup_keys).1 hvv
    cases w with
    | list t ys =>
      obtain ⟨ys', rfl, -⟩ := reordered_list_iff.1 hww
      simp only [strictEquals, and_self]
    | record t other =>
      obtain ⟨other', rfl, hother', hfields'⟩ := (reordered_record_iff hw.nodup_keys).1 hww
      have hleft : r.Matches (fun x x' => SameComparisons σ x ∧ Reordered x x') r' :=
        hfields.imp fun hx _ hxx =>
          ⟨ih _ ((Record.get?_eq_some_iff hv.nodup_keys).1 hx) (hv.field hx), hxx⟩
      have hright : other.Matches (fun y y' => y.StoredIn σ ∧ Reordered y y') other' :=
        hfields'.imp fun hy _ hyy => ⟨hw.field hy, hyy⟩
      constructor
      · rw [Bool.eq_iff_iff, strictEquals_record_iff hr' hother',
          strictEquals_record_iff hv.nodup_keys hw.nodup_keys]
        refine or_congr_right (Record.matches_congr hleft hright fun hx hy => ?_).symm
        rw [(hx.1 hx.2 hy.2 hy.1).2]
      · rw [Bool.eq_iff_iff, strictEquals_record_iff hother' hr',
          strictEquals_record_iff hw.nodup_keys hv.nodup_keys]
        refine or_congr_right (Record.matches_congr hright hleft fun hy hx => ?_).symm
        rw [(hx.1 hx.2 hy.2 hy.1).1]
    | undefined | null | bool | number | string | closure | method =>
      cases hww
      simp only [strictEquals, and_self]
  | undefined | null | bool | number | string | closure | method =>
    intro v' w w' hvv hww _
    cases hvv
    cases hww with
    | same => exact ⟨rfl, rfl⟩
    | list | record => simp only [strictEquals, and_self]

/-! ### The laws together -/

/-- **Strict equality is a partial equivalence.** Among values that exist together it is symmetric
and transitive, every value but `nan` itself is equal to itself, whatever it holds, and reordering
the keys of the records in either value, at any depth, does not change a comparison. -/
theorem strictEquals_laws {u v w : Value} (hu : u.StoredIn σ) (hv : v.StoredIn σ)
    (hw : w.StoredIn σ) :
    (v.strictEquals v = true ↔ v ≠ .number .nan) ∧
      u.strictEquals v = v.strictEquals u ∧
      (u.strictEquals v = true → v.strictEquals w = true → u.strictEquals w = true) ∧
      ∀ u' v', u.Reordered u' → v.Reordered v' → u'.strictEquals v' = u.strictEquals v := by
  refine ⟨strictEquals_self_iff v, strictEquals_comm hu hv, ?_, ?_⟩
  · exact fun huv hvw => ((EqualIn.mk hu hv huv).trans ⟨hv, hw, hvw⟩).equal
  · exact fun u' v' huu hvv => (hu.sameComparisons huu hvv hv).1

section Sample

open Snippet (evaluator place binding)

/-- What two expressions build around a value that was built before is stored with it. -/
theorem exists_stored (e first last : Expr) {v v₁ v₂ : Value}
    (h : session evaluator.answer [.expression .root e] .start = ([.ok v], ⟨[], 1⟩))
    (haround : (session evaluator.answer [.expression (binding v) first,
      .expression (binding v) last] ⟨[], 1⟩).1 = [.ok v₁, .ok v₂]) :
    ∃ σ, v.StoredIn σ ∧ v₁.StoredIn σ ∧ v₂.StoredIn σ := by
  obtain ⟨σ, -, hsupply, hvalues⟩ := evaluator.session_stored [.expression .root e]
    ⟨fun _ => .null, 0⟩ (List.forall_mem_singleton.2 (show Scope.root.StoredIn _ from nofun))
  have hrun : session evaluator.answer [.expression .root e] ⟨[], 0⟩ = ([.ok v], ⟨[], 1⟩) := h
  rw [hrun] at hsupply hvalues
  have hv : v.StoredIn σ := hvalues v List.mem_cons_self
  have hscope : (binding v).StoredIn σ :=
    List.forall_mem_singleton.2 (List.forall_mem_singleton.2 hv)
  obtain ⟨τ, hle, -, hvalues⟩ := evaluator.session_stored
    [.expression (binding v) first, .expression (binding v) last] σ
    (List.forall_mem_cons.2 ⟨hscope, List.forall_mem_singleton.2 hscope⟩)
  rw [← hsupply, haround] at hvalues
  exact ⟨τ, hv.mono hle, hvalues v₁ List.mem_cons_self,
    hvalues v₂ (List.mem_cons_of_mem _ List.mem_cons_self)⟩

/-- The expression `[+undefined]` from character 20 on. -/
def nanArray : Expr :=
  .array (place 20 32) [.item (.plain (.unary (place 21 31) .plus
    (.identifier ⟨"undefined", place 22 31⟩)))]

/-- The expression `{a: xs, b: null}`. -/
def xsFirst : Expr :=
  .object (place 0 16) [.entry (.fixed "a") (.identifier ⟨"xs", place 4 6⟩),
    .entry (.fixed "b") (.null (place 11 15))]

/-- The expression `{b: null, a: xs}`. -/
def xsLast : Expr :=
  .object (place 0 16) [.entry (.fixed "b") (.null (place 4 8)),
    .entry (.fixed "a") (.identifier ⟨"xs", place 13 15⟩)]

/-- A list that holds `nan`. -/
def nanList : Value := .list 0 [.number .nan]

/-- A record with the list first. -/
def nanFirst : Value := .record 1 ⟨[("a", nanList), ("b", .null)]⟩

/-- A record with the same list last. -/
def nanLast : Value := .record 2 ⟨[("b", .null), ("a", nanList)]⟩

/-- The list is built first, and then the records around it. -/
theorem exists_nan_stored :
    ∃ σ, nanList.StoredIn σ ∧ nanFirst.StoredIn σ ∧ nanLast.StoredIn σ :=
  exists_stored nanArray xsFirst xsLast rfl rfl

/-- The list is shared, so the two records are equal for all that it holds. -/
theorem strictEquals_laws_sharedNan :
    (nanList.strictEquals nanList = true ∧ nanList ≠ .number .nan) ∧
      nanFirst.strictEquals nanLast = true ∧ nanLast.strictEquals nanFirst = true := by
  obtain ⟨σ, hlist, hfirst, hlast⟩ := exists_nan_stored
  have hlaws := strictEquals_laws hfirst hlast hfirst
  have hlist := strictEquals_laws hlist hlist hlist
  have hequal : nanFirst.strictEquals nanLast = true := by decide +kernel
  exact ⟨⟨hlist.1.2 nofun, nofun⟩, hequal, hlaws.2.1 ▸ hequal⟩

end Sample

end Value

end StaticConfig
