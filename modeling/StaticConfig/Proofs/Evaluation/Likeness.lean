import StaticConfig.Proofs.Evaluation.Resemblance
import StaticConfig.Proofs.Source.Marks

/-!
# Values that are alike

Two runs of the same code from different surroundings need not build the same values, since an arrow
function keeps the whole scope that it is made in. `Value.Alike` relates values that are built
alike: the same tags and data, and arrow functions of the same code whose scopes agree, up to
likeness again, on every name that occurs in the code.

- `Alike.resemblance`: such values resemble each other, so nothing but calls can tell them apart;
- `Alike.refl`: a value is like itself;
- `Alike.eq_of_exact`: if scopes are asked to be equal, then so are the values.
-/

namespace StaticConfig

/-! ### Likeness -/

/-- The names that occur in an arrow function. -/
def ArrowCode.names (code : ArrowCode) : List String := (Node.body code.span code.body).names

/-- Values that are built alike. Arrow functions have the same code, all of it in places that both
sides share, and scopes that agree on the names in the code; with `exact`, the scopes are equal. -/
inductive Value.Alike (exact : Prop) (shared : Span → Prop) : Value → Value → Prop
  | undefined : Alike exact shared .undefined .undefined
  | null : Alike exact shared .null .null
  | bool (b : Bool) : Alike exact shared (.bool b) (.bool b)
  | number (n : Number) : Alike exact shared (.number n) (.number n)
  | string (text : String) : Alike exact shared (.string text) (.string text)
  | list {tag : Nat} {xs ys : List Value} :
      xs.length = ys.length → (∀ x y, (x, y) ∈ xs.zip ys → Alike exact shared x y) →
      Alike exact shared (.list tag xs) (.list tag ys)
  | record {tag : Nat} {r other : Record Value} :
      r.size = other.size → (∀ a b, (a, b) ∈ r.entries.zip other.entries → a.1 = b.1) →
      (∀ a b, (a, b) ∈ r.entries.zip other.entries → Alike exact shared a.2 b.2) →
      Alike exact shared (.record tag r) (.record tag other)
  | closure {tag : Nat} {code : ArrowCode} {s t : Scope Value} :
      (exact → s = t) → (∀ mark ∈ code.marks, shared mark.span) →
      (∀ name ∈ code.names, (s.lookup? name).isSome = (t.lookup? name).isSome) →
      (∀ name ∈ code.names, ∀ x y, s.lookup? name = some x → t.lookup? name = some y →
        Alike exact shared x y) →
      Alike exact shared (.closure tag code s) (.closure tag code t)
  | method {tag : Nat} {receiver other : Value} (m : Method) :
      Alike exact shared receiver other →
      Alike exact shared (.method tag receiver m) (.method tag other m)

/-- Two scopes that give alike values to the names among some marks, which are all at shared
places; with `exact`, they are equal. -/
structure Scope.Alike (exact : Prop) (shared : Span → Prop) (marks : List Mark)
    (s t : Scope Value) : Prop where
  exactly : exact → s = t
  at_shared : ∀ mark ∈ marks, shared mark.span
  lookup : ∀ mark ∈ marks, ∀ name, mark.name? = some name →
    Option.Rel (Value.Alike exact shared) (s.lookup? name) (t.lookup? name)

section

variable {exact : Prop} {shared : Span → Prop}

/-! ### Likeness layer by layer -/

namespace Value.Alike

theorem of_items {tag : Nat} {xs ys : List Value}
    (h : List.Forall₂ (Value.Alike exact shared) xs ys) :
    Value.Alike exact shared (.list tag xs) (.list tag ys) :=
  .list h.length_eq fun _ _ hmem => List.forall₂_zip h hmem

theorem of_fields {tag : Nat} {r other : Record Value}
    (h : Record.Related (Value.Alike exact shared) r other) :
    Value.Alike exact shared (.record tag r) (.record tag other) :=
  .record h.size_eq (fun _ _ hmem => (List.forall₂_zip h hmem).1)
    fun _ _ hmem => (List.forall₂_zip h hmem).2

theorem of_scopes {tag : Nat} {code : ArrowCode} {s t : Scope Value}
    (h : Scope.Alike exact shared code.marks s t) :
    Value.Alike exact shared (.closure tag code s) (.closure tag code t) := by
  have hlookup (name : String) (hname : name ∈ code.names) :
      Option.Rel (Value.Alike exact shared) (s.lookup? name) (t.lookup? name) := by
    obtain ⟨mark, hmark, hoccurs⟩ := mem_names.1 hname
    exact h.lookup mark hmark name hoccurs
  refine .closure h.exactly h.at_shared (fun name hname => ?_) fun name hname x y hx hy => ?_
  · have hrel := hlookup name hname
    generalize s.lookup? name = a, t.lookup? name = b at hrel
    cases hrel <;> rfl
  · have hrel := hlookup name hname
    rw [hx, hy] at hrel
    cases hrel with
    | some h => exact h

theorem items {tag other : Nat} {xs ys : List Value}
    (h : Value.Alike exact shared (.list tag xs) (.list other ys)) :
    List.Forall₂ (Value.Alike exact shared) xs ys := by
  cases h with
  | list hlength hitems => exact List.forall₂_iff_zip.2 ⟨hlength, fun hmem => hitems _ _ hmem⟩

theorem fields {tag tag' : Nat} {r other : Record Value}
    (h : Value.Alike exact shared (.record tag r) (.record tag' other)) :
    Record.Related (Value.Alike exact shared) r other := by
  cases h with
  | record hsize hkeys hfields =>
    exact List.forall₂_iff_zip.2 ⟨hsize, fun hmem => ⟨hkeys _ _ hmem, hfields _ _ hmem⟩⟩

theorem scopes {tag tag' : Nat} {code code' : ArrowCode} {s t : Scope Value}
    (h : Value.Alike exact shared (.closure tag code s) (.closure tag' code' t)) :
    Scope.Alike exact shared code.marks s t := by
  cases h with
  | closure hexact hshared hbound hvalues =>
    refine ⟨hexact, hshared, fun mark hmark name hoccurs => ?_⟩
    have hname : name ∈ code.names := mem_names.2 ⟨mark, hmark, hoccurs⟩
    -- A name that occurs is bound in both scopes or in neither.
    have hisSome := hbound name hname
    have hrelated := hvalues name hname
    generalize s.lookup? name = a, t.lookup? name = b at hisSome hrelated
    match a, b with
    | none, none => exact .none
    | some x, some y => exact .some (hrelated x y rfl rfl)

/-- Induction on likeness, where what holds of the parts of lists and records is given item by item
and field by field. -/
@[elab_as_elim]
theorem induct {motive : ∀ v w, Value.Alike exact shared v w → Prop}
    (undefined : motive .undefined .undefined .undefined) (null : motive .null .null .null)
    (bool : ∀ b, motive (.bool b) (.bool b) (.bool b))
    (number : ∀ n, motive (.number n) (.number n) (.number n))
    (string : ∀ text, motive (.string text) (.string text) (.string text))
    (list : ∀ tag xs ys, List.Forall₂ (fun x y => ∃ h, motive x y h) xs ys →
      ∀ h, motive (.list tag xs) (.list tag ys) h)
    (record : ∀ tag r other, Record.Related (fun x y => ∃ h, motive x y h) r other →
      ∀ h, motive (.record tag r) (.record tag other) h)
    (closure : ∀ tag code s t, Scope.Alike exact shared code.marks s t →
      ∀ h, motive (.closure tag code s) (.closure tag code t) h)
    (method : ∀ tag receiver other m, (∃ h, motive receiver other h) →
      ∀ h, motive (.method tag receiver m) (.method tag other m) h)
    {v w : Value} (h : Value.Alike exact shared v w) : motive v w h := by
  induction h with
  | undefined => exact undefined
  | null => exact null
  | bool b => exact bool b
  | number n => exact number n
  | string text => exact string text
  | list hlength hitems ih =>
    exact list _ _ _ (List.forall₂_iff_zip.2 ⟨hlength, fun hmem => ⟨_, ih _ _ hmem⟩⟩) _
  | record hsize hkeys hfields ih =>
    exact record _ _ _ (List.forall₂_iff_zip.2
      ⟨hsize, fun hmem => ⟨hkeys _ _ hmem, _, ih _ _ hmem⟩⟩) _
  | @closure tag code s t hexact hshared hbound hvalues =>
    have hclosures : Value.Alike exact shared (.closure tag code s) (.closure tag code t) :=
      .closure hexact hshared hbound hvalues
    exact closure tag code s t hclosures.scopes hclosures
  | method m h ih => exact method _ _ _ m ⟨h, ih⟩ _

theorem resemblance : Value.Resemblance (· = ·) (Value.Alike exact shared) where
  form h := by
    have halike := h
    cases h with
    | undefined => exact .undefined
    | null => exact .null
    | bool b => exact .bool b
    | number n => exact .number n
    | string text => exact .string text
    | list => exact .list rfl halike.items
    | record => exact .record rfl halike.fields
    | closure => exact .closure rfl
    | method => exact .method rfl
  primitive h :=
    primitive_cases (motive := fun v => v.Alike exact shared v) .undefined .null .bool .number .string h
  tags_unique := by
    rintro s t _ _ rfl rfl
    exact Iff.rfl

end Value.Alike

/-! ### Equal values -/

/-- Where scopes have to be equal, so have the values. -/
theorem Value.Alike.eq_of_exact {v w : Value} (h : v.Alike exact shared w) (hexact : exact) :
    v = w := by
  induction h using induct with
  | undefined | null | bool | number | string => rfl
  | list tag xs ys hitems =>
    have hsame : List.Forall₂ (· = ·) xs ys := hitems.imp fun _ _ h => h.2
    rw [List.forall₂_eq_eq_eq] at hsame
    rw [hsame]
  | record tag r other hfields =>
    have hsame : List.Forall₂ (· = ·) r.entries other.entries :=
      hfields.imp fun _ _ h => Prod.ext h.1 h.2.2
    rw [List.forall₂_eq_eq_eq] at hsame
    obtain ⟨entries⟩ := r
    rw [show entries = other.entries from hsame]
  | closure tag code s t hscopes => rw [hscopes.exactly hexact]
  | method tag receiver other m hreceiver => rw [hreceiver.2]

theorem Scope.sizeOf_lt_of_lookup? {s : Scope Value} {name : String} {v : Value}
    (h : s.lookup? name = some v) : sizeOf v < sizeOf s := by
  obtain ⟨frames⟩ := s
  obtain ⟨frame, hframe, hbinding⟩ := List.exists_of_findSome?_eq_some h
  obtain ⟨before, after, hreverse, _⟩ := List.lookup_eq_some_iff.1 hbinding
  have hmem : (name, v) ∈ frame := by
    rw [← List.mem_reverse, hreverse]
    exact List.mem_append_right _ List.mem_cons_self
  have hlight := List.sizeOf_lt_of_mem hframe
  have hinner := List.sizeOf_lt_of_mem hmem
  simp only [Scope.mk.sizeOf_spec, Prod.mk.sizeOf_spec] at hlight hinner ⊢
  omega

/-- By induction on the size of the value, which also counts what its scopes hold. -/
theorem Value.Alike.refl (hshared : ∀ span, shared span) (v : Value) : v.Alike exact shared v := by
  match v with
  | .undefined => exact .undefined
  | .null => exact .null
  | .bool b => exact .bool b
  | .number n => exact .number n
  | .string text => exact .string text
  | .list tag items =>
    refine of_items (List.forall₂_same.2 fun item hitem => ?_)
    exact refl hshared item
  | .record tag fields =>
    refine of_fields (List.forall₂_same.2 fun entry hentry => ⟨rfl, ?_⟩)
    exact refl hshared entry.2
  | .closure tag code s =>
    refine .closure (fun _ => rfl) (fun _ _ => hshared _) (fun _ _ => rfl) ?_
    intro name _ x y hx hy
    rw [hx] at hy
    obtain rfl := Option.some.inj hy
    exact refl hshared x
  | .method tag receiver m => exact .method m (refl hshared receiver)
termination_by sizeOf v
decreasing_by
  · have hlight := List.sizeOf_lt_of_mem hitem
    simp only [Value.list.sizeOf_spec]
    omega
  · obtain ⟨entries⟩ := fields
    have hlight := List.sizeOf_lt_of_mem (show entry ∈ entries from hentry)
    obtain ⟨key, value⟩ := entry
    simp only [Value.record.sizeOf_spec, Record.mk.sizeOf_spec, Prod.mk.sizeOf_spec] at hlight ⊢
    omega
  · have hlight := Scope.sizeOf_lt_of_lookup? hx
    simp only [Value.closure.sizeOf_spec]
    omega
  · simp only [Value.method.sizeOf_spec]
    omega

/-! ### Scopes -/

namespace Scope

theorem Alike.mono {marks fewer : List Mark} {s t : Scope Value}
    (h : Scope.Alike exact shared marks s t) (hsub : fewer ⊆ marks) :
    Scope.Alike exact shared fewer s t :=
  ⟨h.exactly, fun mark hmark => h.at_shared mark (hsub hmark),
    fun mark hmark => h.lookup mark (hsub hmark)⟩

theorem alike_root {marks : List Mark} (h : ∀ mark ∈ marks, shared mark.span) :
    Scope.Alike exact shared marks .root .root :=
  ⟨fun _ => rfl, h, fun _ _ _ _ => .none⟩

/-- Where all places are shared, identical values are alike, so scopes that bind the same values to
the names among the marks are alike. -/
theorem alike_of_lookup_eq (hshared : ∀ span, shared span) {marks : List Mark} {s t : Scope Value}
    (hexact : exact → s = t)
    (h : ∀ mark ∈ marks, ∀ name, mark.name? = some name → s.lookup? name = t.lookup? name) :
    Scope.Alike exact shared marks s t := by
  refine ⟨hexact, fun _ _ => hshared _, fun mark hmark name hoccurs => ?_⟩
  rw [h mark hmark name hoccurs]
  cases t.lookup? name with
  | none => exact .none
  | some v => exact .some (.refl hshared v)

theorem alike_refl (hshared : ∀ span, shared span) (marks : List Mark) (s : Scope Value) :
    Scope.Alike exact shared marks s s :=
  alike_of_lookup_eq hshared (fun _ => rfl) fun _ _ _ _ => rfl

/-- Frames of alike values under the same names leave scopes alike. -/
theorem Alike.extend {marks : List Mark} {s t : Scope Value}
    (h : Scope.Alike exact shared marks s t) {frame other : List (String × Value)}
    (hframe : List.Forall₂ (fun a b => a.1 = b.1 ∧ a.2.Alike exact shared b.2) frame other) :
    Scope.Alike exact shared marks (s.extend frame) (t.extend other) := by
  refine ⟨fun hexact => ?_, h.at_shared, fun mark hmark name hname => ?_⟩
  · have hsame : List.Forall₂ (· = ·) frame other :=
      hframe.imp fun _ _ h => Prod.ext h.1 (h.2.eq_of_exact hexact)
    rw [List.forall₂_eq_eq_eq] at hsame
    rw [hsame, h.exactly hexact]
  · have hreversed : Record.Related (Value.Alike exact shared) ⟨frame.reverse⟩ ⟨other.reverse⟩ :=
      List.forall₂_reverse_iff.2 hframe
    have hbinding : Option.Rel (Value.Alike exact shared) (lastBinding? name frame)
        (lastBinding? name other) := hreversed.get? name
    have houter := h.lookup mark hmark name hname
    rw [lookup?_extend, lookup?_extend]
    generalize lastBinding? name frame = x, lastBinding? name other = y at hbinding
    cases hbinding with
    | none => exact houter
    | some hvalue => exact .some hvalue

end Scope

end

end StaticConfig
