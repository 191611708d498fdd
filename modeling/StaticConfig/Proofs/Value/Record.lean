import Mathlib.Data.List.Forall2
import Mathlib.Data.List.Induction
import Mathlib.Data.List.Nodup
import Mathlib.Data.List.Perm.Subperm
import Mathlib.Data.Option.Basic
import Mathlib.Logic.Relation
import StaticConfig.Record

/-!
# Records as finite maps

Comparing records looks the entries of one up in the other. That this is a comparison of finite maps
rests on the keys being distinct, which all records have that the operations build.

- `Record.built_iff`: the records that can be built are those that list no key twice;
- `Record.Matches`: the same keys with related values, in any order;
- `Record.matches_iff`: on built records, that is what equal sizes and the look-ups of one record's
  entries in the other tell.
-/

namespace StaticConfig

open List (Forall₂)

/-! ### Lists related item by item -/

section Related

variable {α β : Type} {R S : α → β → Prop} {xs : List α} {ys : List β}

theorem exists_mem_of_forall₂ (h : Forall₂ R xs ys) {x : α} (hx : x ∈ xs) : ∃ y ∈ ys, R x y := by
  obtain ⟨index, hindex, rfl⟩ := List.mem_iff_getElem.1 hx
  exact ⟨_, List.get_mem ys _, h.get hindex (h.length_eq ▸ hindex)⟩

theorem exists_forall₂ (h : ∀ x ∈ xs, ∃ y, R x y) : ∃ ys, Forall₂ R xs ys := by
  induction xs with
  | nil => exact ⟨[], .nil⟩
  | cons x xs ih =>
    obtain ⟨⟨y, hy⟩, hrest⟩ := List.forall_mem_cons.1 h
    obtain ⟨ys, hys⟩ := ih hrest
    exact ⟨y :: ys, .cons hy hys⟩

theorem forall₂_imp_of_mem (h : Forall₂ R xs ys) (hRS : ∀ x ∈ xs, ∀ y ∈ ys, R x y → S x y) :
    Forall₂ S xs ys := by
  refine List.forall₂_iff_zip.2 ⟨h.length_eq, fun {x y} hmem => ?_⟩
  obtain ⟨hx, hy⟩ := List.of_mem_zip hmem
  exact hRS x hx y hy (List.forall₂_zip h hmem)

theorem map_eq_map_of_forall₂ {γ : Type} {f : α → γ} {g : β → γ}
    (h : Forall₂ (fun x y => f x = g y) xs ys) : xs.map f = ys.map g := by
  have hsame : Forall₂ (· = ·) (xs.map f) (ys.map g) :=
    List.forall₂_map_left_iff.2 (List.forall₂_map_right_iff.2 h)
  rwa [List.forall₂_eq_eq_eq] at hsame

end Related

namespace Record

variable {α β : Type}

/-! ### Distinct keys -/

theorem lookup_eq_some_iff_mem {κ : Type} [BEq κ] [LawfulBEq κ] {entries : List (κ × α)}
    (hdistinct : (entries.map (·.1)).Nodup) {key : κ} {value : α} :
    entries.lookup key = some value ↔ (key, value) ∈ entries := by
  classical
  induction entries with
  | nil => exact iff_of_false nofun List.not_mem_nil
  | cons entry rest ih =>
    obtain ⟨first, held⟩ := entry
    obtain ⟨hfirst, hrest⟩ := List.nodup_cons.1 hdistinct
    rw [List.lookup_cons, List.mem_cons, ← ih hrest]
    by_cases hkey : key = first
    · subst hkey
      have hnone : rest.lookup key ≠ some value := fun hsome =>
        hfirst (List.mem_map.2 ⟨(key, value), (ih hrest).1 hsome, rfl⟩)
      simp [hnone, eq_comm]
    · simp [beq_eq_false_iff_ne.2 hkey, hkey]

theorem mem_of_lookup {κ : Type} [BEq κ] [LawfulBEq κ] {entries : List (κ × α)} {key : κ}
    {value : α} (h : entries.lookup key = some value) : (key, value) ∈ entries := by
  obtain ⟨before, after, rfl, -⟩ := List.lookup_eq_some_iff.1 h
  exact List.mem_append_right before List.mem_cons_self

theorem get?_eq_some_iff {r : Record α} (h : r.keys.Nodup) {key : String} {value : α} :
    r.get? key = some value ↔ (key, value) ∈ r.entries :=
  lookup_eq_some_iff_mem h

theorem get?_isSome_iff {r : Record α} (h : r.keys.Nodup) {key : String} :
    (r.get? key).isSome ↔ key ∈ r.keys := by
  rw [Option.isSome_iff_exists, keys, List.mem_map]
  constructor
  · rintro ⟨value, hvalue⟩
    exact ⟨(key, value), (get?_eq_some_iff h).1 hvalue, rfl⟩
  · rintro ⟨⟨_, value⟩, hentry, rfl⟩
    exact ⟨value, (get?_eq_some_iff h).2 hentry⟩

/-! ### Built records -/

/-- The records that come about by writing keys and by merging such records. -/
inductive Built : Record α → Prop
  | empty : Built .empty
  | insert {r : Record α} (key : String) (value : α) : Built r → Built (r.insert key value)
  | merge {r other : Record α} : Built r → Built other → Built (r.merge other)

theorem nodup_keys_merge {r : Record α} (other : Record α) (h : r.keys.Nodup) :
    (r.merge other).keys.Nodup := by
  unfold merge
  induction other.entries generalizing r with
  | nil => exact h
  | cons entry rest ih => exact ih (nodup_keys_insert entry.1 entry.2 h)

/-- Entries without repeated keys are what writing them one after the other leaves. -/
theorem ofList_of_nodup {entries : List (String × α)} (h : (entries.map (·.1)).Nodup) :
    ofList entries = ⟨entries⟩ := by
  induction entries using List.reverseRecOn with
  | nil => rfl
  | append_singleton entries entry ih =>
    rw [List.map_append, List.map_singleton, List.nodup_append] at h
    obtain ⟨hentries, -, hnew⟩ := h
    have hkey : entry.1 ∉ (⟨entries⟩ : Record α).keys := fun hmem =>
      hnew _ hmem _ (List.mem_singleton_self _) rfl
    have hwritten : (⟨entries⟩ : Record α).insert entry.1 entry.2 = ⟨entries ++ [entry]⟩ :=
      congrArg Record.mk (toList_insert_of_not_mem entry.2 hkey)
    rw [← hwritten, ← ih hentries, ofList, ofList, List.foldl_append]
    rfl

theorem built_iff {r : Record α} : r.Built ↔ r.keys.Nodup := by
  constructor
  · intro h
    induction h with
    | empty => exact List.nodup_nil
    | insert key value _ ih => exact nodup_keys_insert key value ih
    | @merge r other _ _ ih _ => exact nodup_keys_merge other ih
  · intro h
    rw [← show ofList r.entries = r from ofList_of_nodup h]
    exact List.foldlRecOn r.entries _ .empty fun _ hbuilt entry _ => hbuilt.insert entry.1 entry.2

/-- A merge writes one entry after the other, so what it merges may be any entries at all. -/
theorem Built.merge_left {r : Record α} (h : r.Built) (other : Record α) :
    (r.merge other).Built :=
  built_iff.2 (nodup_keys_merge other (built_iff.1 h))

/-! ### Matching records -/

/-- The same keys in both records, with related values, whatever the order. -/
def Matches (R : α → β → Prop) (r : Record α) (other : Record β) : Prop :=
  ∀ key, Option.Rel R (r.get? key) (other.get? key)

variable {γ : Type} {R : α → β → Prop} {S : β → γ → Prop}
variable {r : Record α} {other : Record β} {third : Record γ} {key : String}

theorem matches_of (hnone : ∀ key, r.get? key = none ↔ other.get? key = none)
    (hR : ∀ {key x y}, r.get? key = some x → other.get? key = some y → R x y) :
    r.Matches R other := by
  intro key
  cases hx : r.get? key with
  | none =>
    rw [(hnone key).1 hx]
    exact .none
  | some x =>
    cases hy : other.get? key with
    | none => cases hx.symm.trans ((hnone key).2 hy)
    | some y => exact .some (hR hx hy)

theorem Matches.get?_eq_none_iff (h : r.Matches R other) (key : String) :
    r.get? key = none ↔ other.get? key = none := by
  have hkey := h key
  generalize r.get? key = x, other.get? key = y at hkey
  cases hkey <;> simp

theorem Matches.related (h : r.Matches R other) {x : α} {y : β} (hx : r.get? key = some x)
    (hy : other.get? key = some y) : R x y := by
  have hkey := h key
  rw [hx, hy] at hkey
  cases hkey with
  | some hxy => exact hxy

theorem Matches.exists_right (h : r.Matches R other) {x : α} (hx : r.get? key = some x) :
    ∃ y, other.get? key = some y ∧ R x y := by
  cases hy : other.get? key with
  | none => cases hx.symm.trans ((h.get?_eq_none_iff key).2 hy)
  | some y => exact ⟨y, rfl, h.related hx hy⟩

theorem Matches.imp {R' : α → β → Prop} (h : r.Matches R other)
    (hR : ∀ {key x y}, r.get? key = some x → other.get? key = some y → R x y → R' x y) :
    r.Matches R' other :=
  matches_of h.get?_eq_none_iff fun hx hy => hR hx hy (h.related hx hy)

theorem Matches.flip (h : r.Matches R other) : other.Matches (flip R) r :=
  matches_of (fun key => (h.get?_eq_none_iff key).symm) fun hy hx => h.related hx hy

theorem Matches.comp (h : r.Matches R other) (h' : other.Matches S third) :
    r.Matches (Relation.Comp R S) third := by
  refine matches_of (fun key => (h.get?_eq_none_iff key).trans (h'.get?_eq_none_iff key)) ?_
  intro key x z hx hz
  obtain ⟨y, hy, hxy⟩ := h.exists_right hx
  exact ⟨y, hxy, h'.related hy hz⟩

/-- Whether two records match depends on no more than what their values stand for. -/
theorem matches_congr {α' β' : Type} {R' : α' → β' → Prop} {A : α → α' → Prop} {B : β → β' → Prop}
    {r' : Record α'} {other' : Record β'} (hr : r.Matches A r') (hother : other.Matches B other')
    (h : ∀ {x x' y y'}, A x x' → B y y' → (R x y ↔ R' x' y')) :
    r.Matches R other ↔ r'.Matches R' other' := by
  refine forall_congr' fun key => ?_
  have hleft := hr key
  have hright := hother key
  generalize r.get? key = x, r'.get? key = x' at hleft ⊢
  generalize other.get? key = y, other'.get? key = y' at hright ⊢
  cases hleft with
  | none =>
    cases hright with
    | none => exact iff_of_true .none .none
    | some => exact iff_of_false nofun nofun
  | some hx =>
    cases hright with
    | none => exact iff_of_false nofun nofun
    | some hy => simp only [Option.rel_some_some, h hx hy]

/-- Records with the same distinct keys miss the same ones. -/
theorem get?_eq_none_iff_of_perm (hr : r.keys.Nodup) (hother : other.keys.Nodup)
    (hperm : r.keys.Perm other.keys) (key : String) :
    r.get? key = none ↔ other.get? key = none := by
  rw [← Option.not_isSome_iff_eq_none, ← Option.not_isSome_iff_eq_none, get?_isSome_iff hr,
    get?_isSome_iff hother, hperm.mem_iff]

theorem Matches.perm_keys (h : r.Matches R other) (hr : r.keys.Nodup)
    (hother : other.keys.Nodup) : r.keys.Perm other.keys := by
  refine (List.perm_ext_iff_of_nodup hr hother).2 fun key => ?_
  rw [← get?_isSome_iff hr, ← get?_isSome_iff hother, Option.isSome_iff_ne_none,
    Option.isSome_iff_ne_none, ne_eq, ne_eq, h.get?_eq_none_iff key]

/-- No key of the second record is missed: there are as many as in the first one, whose keys are all
among them. -/
theorem matches_iff (hr : r.keys.Nodup) (hother : other.keys.Nodup) :
    r.Matches R other ↔
      r.size = other.size ∧
        ∀ entry ∈ r.entries, ∃ theirs, other.get? entry.1 = some theirs ∧ R entry.2 theirs := by
  constructor
  · intro h
    have hsize := (h.perm_keys hr hother).length_eq
    rw [keys, keys, List.length_map, List.length_map] at hsize
    exact ⟨hsize, fun entry hentry => h.exists_right ((get?_eq_some_iff hr).2 hentry)⟩
  · rintro ⟨hsize, hentries⟩
    have hfound {key : String} {x : α} (hx : r.get? key = some x) :
        ∃ y, other.get? key = some y ∧ R x y :=
      hentries _ ((get?_eq_some_iff hr).1 hx)
    -- Distinct keys that are all among as many others are the same keys.
    have hsub : r.keys ⊆ other.keys := by
      intro key hkey
      obtain ⟨x, hx⟩ := Option.isSome_iff_exists.1 ((get?_isSome_iff hr).2 hkey)
      obtain ⟨y, hy, -⟩ := hfound hx
      exact (get?_isSome_iff hother).1 (hy ▸ rfl)
    have hperm : r.keys.Perm other.keys := by
      refine (List.subperm_of_subset hr hsub).perm_of_length_le (Nat.le_of_eq ?_)
      rw [keys, keys, List.length_map, List.length_map]
      exact hsize.symm
    refine matches_of (get?_eq_none_iff_of_perm hr hother hperm) fun hx hy => ?_
    obtain ⟨y, hy', hxy⟩ := hfound hx
    rwa [Option.some.inj (hy.symm.trans hy')]

/-- Some order of the second record's entries goes with the order of the first one's. -/
theorem matches_iff_perm (hr : r.keys.Nodup) (hother : other.keys.Nodup) :
    r.Matches R other ↔
      ∃ ordered : List (String × β), ordered.Perm other.entries ∧
        Forall₂ (fun a b => a.1 = b.1 ∧ R a.2 b.2) r.entries ordered := by
  rw [matches_iff hr hother]
  constructor
  · rintro ⟨hsize, hentries⟩
    obtain ⟨ordered, hordered⟩ : ∃ ordered : List (String × β),
        Forall₂ (fun a b => (a.1 = b.1 ∧ R a.2 b.2) ∧ b ∈ other.entries) r.entries ordered := by
      refine exists_forall₂ fun entry hentry => ?_
      obtain ⟨theirs, hget, hvalue⟩ := hentries entry hentry
      exact ⟨(entry.1, theirs), ⟨rfl, hvalue⟩, (get?_eq_some_iff hother).1 hget⟩
    have hkeys : r.keys = ordered.map (·.1) :=
      map_eq_map_of_forall₂ (hordered.imp fun _ _ h => h.1.1)
    -- The picked entries have the keys of the first record, so none is picked twice.
    have hnodup : ordered.Nodup := List.Nodup.of_map _ (hkeys ▸ hr)
    have hsub : ordered ⊆ other.entries := fun entry hentry => by
      obtain ⟨_, _, _, hmem⟩ := exists_mem_of_forall₂ hordered.flip hentry
      exact hmem
    refine ⟨ordered, (List.subperm_of_subset hnodup hsub).perm_of_length_le ?_,
      hordered.imp fun _ _ h => h.1⟩
    exact Nat.le_of_eq (hsize.symm.trans hordered.length_eq)
  · rintro ⟨ordered, hperm, hordered⟩
    refine ⟨hordered.length_eq.trans hperm.length_eq, fun entry hentry => ?_⟩
    obtain ⟨⟨key, theirs⟩, hmem, rfl, hvalue⟩ := exists_mem_of_forall₂ hordered hentry
    exact ⟨theirs, (get?_eq_some_iff hother).2 (hperm.mem_iff.1 hmem), hvalue⟩

/-! ### Records with other values -/

/-- The record with a function applied to its values. -/
def map (f : α → β) (r : Record α) : Record β :=
  ⟨r.entries.map fun entry => (entry.1, f entry.2)⟩

theorem keys_map (f : α → β) (r : Record α) : (r.map f).keys = r.keys := by
  rw [keys, map, List.map_map]
  rfl

theorem get?_map (f : α → β) (r : Record α) (key : String) :
    (r.map f).get? key = (r.get? key).map f := by
  obtain ⟨entries⟩ := r
  unfold get? map
  induction entries with
  | nil => rfl
  | cons entry rest ih =>
    rw [List.map_cons, List.lookup_cons, List.lookup_cons]
    cases key == entry.1 with
    | true => rfl
    | false => exact ih

theorem matches_map_iff {α' β' : Type} {R' : α' → β' → Prop} {f : α → α'} {g : β → β'} :
    (r.map f).Matches R' (other.map g) ↔ r.Matches (fun x y => R' (f x) (g y)) other := by
  refine forall_congr' fun key => ?_
  rw [get?_map, get?_map]
  cases r.get? key <;> cases other.get? key <;> simp

end Record

end StaticConfig
