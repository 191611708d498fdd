import StaticConfig.Proofs.Evaluation.Resemblance
import StaticConfig.Proofs.Source.Unwrap

/-!
# Paired values

Two runs may draw other tags for what they build, and may run code of which one has lost wrappers.
`Value.Paired P` relates the values of such runs in full: the same data, tags that stand for one
identity, arrow functions whose scopes are paired frame by frame, also where a name is shadowed.

- `Value.Everywhere`: what holds of every tag and of every bound method at any depth of a value;
- `Paired.refl`: a value is paired with itself if the pairing admits it throughout;
- `Paired.resemblance`: paired values resemble each other, so nothing but calls can tell them apart.
-/

namespace StaticConfig

open List (Forall₂)

/-! ### Values throughout -/

/-- Whether `onTag` holds of every tag in a value and `onMethod` of every bound method and its
receiver, at any depth and in the scopes that arrow functions keep. -/
inductive Value.Everywhere (onTag : Nat → Prop) (onMethod : Value → Method → Prop) : Value → Prop
  | undefined : Everywhere onTag onMethod .undefined
  | null : Everywhere onTag onMethod .null
  | bool (b : Bool) : Everywhere onTag onMethod (.bool b)
  | number (n : Number) : Everywhere onTag onMethod (.number n)
  | string (text : String) : Everywhere onTag onMethod (.string text)
  | list {tag : Nat} {items : List Value} : onTag tag →
      (∀ item ∈ items, Everywhere onTag onMethod item) →
      Everywhere onTag onMethod (.list tag items)
  | record {tag : Nat} {fields : Record Value} : onTag tag →
      (∀ entry ∈ fields.entries, Everywhere onTag onMethod entry.2) →
      Everywhere onTag onMethod (.record tag fields)
  | closure {tag : Nat} {code : ArrowCode} {scope : Scope Value} : onTag tag →
      (∀ frame ∈ scope.frames, ∀ binding ∈ frame, Everywhere onTag onMethod binding.2) →
      Everywhere onTag onMethod (.closure tag code scope)
  | method {tag : Nat} {receiver : Value} {m : Method} : onTag tag → onMethod receiver m →
      Everywhere onTag onMethod receiver → Everywhere onTag onMethod (.method tag receiver m)

/-- Whether `Everywhere` holds of every value that a scope binds, visibly or not. -/
def Scope.Everywhere (onTag : Nat → Prop) (onMethod : Value → Method → Prop) (s : Scope Value) :
    Prop :=
  ∀ frame ∈ s.frames, ∀ binding ∈ frame, binding.2.Everywhere onTag onMethod

theorem Value.Everywhere.mono {onTag onTag' : Nat → Prop} {onMethod : Value → Method → Prop}
    (h : ∀ tag, onTag tag → onTag' tag) {v : Value} (hv : v.Everywhere onTag onMethod) :
    v.Everywhere onTag' onMethod := by
  induction hv with
  | undefined => exact .undefined
  | null => exact .null
  | bool b => exact .bool b
  | number n => exact .number n
  | string text => exact .string text
  | list htag _ ih => exact .list (h _ htag) ih
  | record htag _ ih => exact .record (h _ htag) ih
  | closure htag _ ih => exact .closure (h _ htag) ih
  | method htag hm _ ih => exact .method (h _ htag) hm ih

/-- What holds of all tags and methods holds throughout every value. -/
theorem Value.everywhere_of_forall {onTag : Nat → Prop} {onMethod : Value → Method → Prop}
    (htag : ∀ tag, onTag tag) (hmethod : ∀ receiver m, onMethod receiver m) (v : Value) :
    v.Everywhere onTag onMethod := by
  induction v using Value.induct with
  | undefined => exact .undefined
  | null => exact .null
  | bool b => exact .bool b
  | number n => exact .number n
  | string text => exact .string text
  | list tag _ ih => exact .list (htag tag) ih
  | record tag _ ih => exact .record (htag tag) ih
  | closure tag _ _ ih => exact .closure (htag tag) ih
  | method tag receiver m ih => exact .method (htag tag) (hmethod receiver m) ih

/-! ### Pairings -/

/-- Arrow functions as they are written without the wrappers that `drop` picks. -/
def ArrowCode.unwrap (drop : Wrapper → Bool) (code : ArrowCode) : ArrowCode :=
  { code with body := code.body.unwrap drop }

/-- In what the values of two runs may differ, and what they must satisfy. -/
structure Pairing where
  /-- The tags that stand for one identity on both sides. -/
  tags : Nat → Nat → Prop
  /-- The wrappers that the code of the second side goes without. -/
  drop : Wrapper → Bool
  /-- The methods that may be bound to a receiver. -/
  admits : Value → Method → Prop
  tags_unique : ∀ {s t s' t' : Nat}, tags s s' → tags t t' → (s = t ↔ s' = t')
  /-- What reading a member may bind is admitted. -/
  admits_allowed : ∀ {receiver : Value} {name : String} {m : Method},
    receiver.allowedMethod? name = some m → admits receiver m

/-- Values that differ in nothing but what the pairing says. -/
inductive Value.Paired (P : Pairing) : Value → Value → Prop
  | undefined : Paired P .undefined .undefined
  | null : Paired P .null .null
  | bool (b : Bool) : Paired P (.bool b) (.bool b)
  | number (n : Number) : Paired P (.number n) (.number n)
  | string (text : String) : Paired P (.string text) (.string text)
  | list {tag tag' : Nat} {xs ys : List Value} : P.tags tag tag' →
      Forall₂ (Paired P) xs ys → Paired P (.list tag xs) (.list tag' ys)
  | record {tag tag' : Nat} {r other : Record Value} : P.tags tag tag' → r.keys = other.keys →
      Forall₂ (fun a b => Paired P a.2 b.2) r.entries other.entries →
      Paired P (.record tag r) (.record tag' other)
  | closure {tag tag' : Nat} {code : ArrowCode} {s t : Scope Value} : P.tags tag tag' →
      s.names = t.names →
      Forall₂ (fun frame other => Forall₂ (fun a b => Paired P a.2 b.2) frame other)
        s.frames t.frames →
      Paired P (.closure tag code s) (.closure tag' (code.unwrap P.drop) t)
  | method {tag tag' : Nat} {receiver other : Value} {m : Method} : P.tags tag tag' →
      P.admits receiver m → Paired P receiver other →
      Paired P (.method tag receiver m) (.method tag' other m)

/-- Frames that bind the same names, in the same order, to values related by `R`. -/
def FrameRelated (R : Value → Value → Prop) :
    List (String × Value) → List (String × Value) → Prop :=
  Forall₂ fun a b => a.1 = b.1 ∧ R a.2 b.2

/-- Scopes that bind, frame by frame, the same names to paired values. -/
def Scope.Paired (P : Pairing) (s t : Scope Value) : Prop :=
  Forall₂ (FrameRelated (Value.Paired P)) s.frames t.frames

/-! ### Related frames and records -/

/-- Equal keys and related values, taken apart. -/
theorem frameRelated_iff {R : Value → Value → Prop} {frame other : List (String × Value)} :
    FrameRelated R frame other ↔
      frame.map (·.1) = other.map (·.1) ∧ Forall₂ (fun a b => R a.2 b.2) frame other := by
  constructor
  · intro h
    refine ⟨?_, h.imp fun _ _ hab => hab.2⟩
    induction h with
    | nil => rfl
    | cons hhead _ ih => rw [List.map_cons, List.map_cons, hhead.1, ih]
  · rintro ⟨hkeys, h⟩
    induction h with
    | nil => exact .nil
    | cons hhead _ ih =>
      simp only [List.map_cons, List.cons.injEq] at hkeys
      exact .cons ⟨hkeys.1, hhead⟩ (ih hkeys.2)

theorem framesRelated_iff {R : Value → Value → Prop}
    {frames others : List (List (String × Value))} :
    Forall₂ (FrameRelated R) frames others ↔
      frames.map (·.map (·.1)) = others.map (·.map (·.1)) ∧
        Forall₂ (fun frame other => Forall₂ (fun a b => R a.2 b.2) frame other) frames others := by
  constructor
  · intro h
    refine ⟨?_, h.imp fun _ _ hframe => (frameRelated_iff.1 hframe).2⟩
    induction h with
    | nil => rfl
    | cons hhead _ ih => rw [List.map_cons, List.map_cons, (frameRelated_iff.1 hhead).1, ih]
  · rintro ⟨hnames, h⟩
    induction h with
    | nil => exact .nil
    | cons hhead _ ih =>
      simp only [List.map_cons, List.cons.injEq] at hnames
      exact .cons (frameRelated_iff.2 ⟨hnames.1, hhead⟩) (ih hnames.2)

theorem FrameRelated.eq {R : Value → Value → Prop} (hR : ∀ {v w}, R v w → v = w)
    {frame other : List (String × Value)} (h : FrameRelated R frame other) : frame = other := by
  have hsame : Forall₂ (· = ·) frame other :=
    List.Forall₂.imp (fun _ _ h => Prod.ext h.1 (hR h.2)) h
  rwa [List.forall₂_eq_eq_eq] at hsame

theorem Scope.eq_of_framesRelated {R : Value → Value → Prop} (hR : ∀ {v w}, R v w → v = w)
    {s t : Scope Value} (h : Forall₂ (FrameRelated R) s.frames t.frames) : s = t := by
  have hsame : Forall₂ (· = ·) s.frames t.frames := h.imp fun _ _ hframe => hframe.eq hR
  rw [List.forall₂_eq_eq_eq] at hsame
  obtain ⟨frames⟩ := s
  rw [show frames = t.frames from hsame]

/-- What relates the members of two lists and only depends on the first ones. -/
theorem forall_of_forall₂ {α β : Type} {p : α → Prop} {as : List α} {bs : List β}
    (h : Forall₂ (fun a _ => p a) as bs) : ∀ a ∈ as, p a :=
  have hboth : Forall₂ (fun a (_ : β) => p a ∧ True) as bs := h.imp fun _ _ ha => ⟨ha, trivial⟩
  ((List.forall₂_and_left as bs).1 hboth).1

section

variable {P : Pairing}

/-! ### Pairing layer by layer -/

namespace Value.Paired

theorem of_fields {tag tag' : Nat} {r other : Record Value} (htag : P.tags tag tag')
    (h : Record.Related (Value.Paired P) r other) :
    Value.Paired P (.record tag r) (.record tag' other) :=
  have hfields := frameRelated_iff.1 h
  .record htag hfields.1 hfields.2

theorem of_scopes {tag tag' : Nat} {code : ArrowCode} {s t : Scope Value}
    (htag : P.tags tag tag') (h : Scope.Paired P s t) :
    Value.Paired P (.closure tag code s) (.closure tag' (code.unwrap P.drop) t) :=
  have hframes := framesRelated_iff.1 h
  .closure htag hframes.1 hframes.2

theorem fields {tag tag' : Nat} {r other : Record Value}
    (h : Value.Paired P (.record tag r) (.record tag' other)) :
    Record.Related (Value.Paired P) r other := by
  cases h with
  | record _ hkeys hfields => exact frameRelated_iff.2 ⟨hkeys, hfields⟩

/-- Induction on paired values, where what holds of the parts is given item by item, field by field
and binding by binding. -/
@[elab_as_elim]
theorem induct {motive : ∀ v w, Value.Paired P v w → Prop}
    (undefined : motive .undefined .undefined .undefined) (null : motive .null .null .null)
    (bool : ∀ b, motive (.bool b) (.bool b) (.bool b))
    (number : ∀ n, motive (.number n) (.number n) (.number n))
    (string : ∀ text, motive (.string text) (.string text) (.string text))
    (list : ∀ tag tag' xs ys, P.tags tag tag' → Forall₂ (fun x y => ∃ h, motive x y h) xs ys →
      ∀ h, motive (.list tag xs) (.list tag' ys) h)
    (record : ∀ tag tag' r other, P.tags tag tag' →
      Record.Related (fun x y => ∃ h, motive x y h) r other →
      ∀ h, motive (.record tag r) (.record tag' other) h)
    (closure : ∀ tag tag' code (s t : Scope Value), P.tags tag tag' →
      Forall₂ (FrameRelated fun x y => ∃ h, motive x y h) s.frames t.frames →
      ∀ h, motive (.closure tag code s) (.closure tag' (code.unwrap P.drop) t) h)
    (method : ∀ tag tag' receiver other m, P.tags tag tag' → P.admits receiver m →
      (∃ h, motive receiver other h) →
      ∀ h, motive (.method tag receiver m) (.method tag' other m) h)
    {v w : Value} (h : Value.Paired P v w) : motive v w h := by
  -- The lists inside a value are cases of the recursion of their own.
  refine @Value.Paired.rec P motive (fun xs ys _ => Forall₂ (fun x y => ∃ h, motive x y h) xs ys)
    (fun xs ys _ => Forall₂ (fun x y => ∃ h, motive x.2 y.2 h) xs ys)
    (fun xs ys _ => Forall₂ (fun frame other =>
      Forall₂ (fun x y => ∃ h, motive x.2 y.2 h) frame other) xs ys)
    undefined null bool number string ?list ?record ?closure ?method .nil ?item .nil ?entry .nil
    ?frame v w h
  case list => exact fun htag _ ih => list _ _ _ _ htag ih _
  case record =>
    intro tag tag' r other htag hkeys _ ih
    have hfields : FrameRelated (fun x y => ∃ h, motive x y h) r.entries other.entries :=
      frameRelated_iff.2 ⟨hkeys, ih⟩
    exact record _ _ _ _ htag hfields _
  case closure =>
    exact fun htag hnames _ ih => closure _ _ _ _ _ htag (framesRelated_iff.2 ⟨hnames, ih⟩) _
  case method => exact fun htag hm _ ih => method _ _ _ _ _ htag hm ⟨_, ih⟩ _
  case item => exact fun hhead _ ihhead ihtail => .cons ⟨hhead, ihhead⟩ ihtail
  case entry => exact fun hhead _ ihhead ihtail => .cons ⟨hhead, ihhead⟩ ihtail
  case frame => exact fun _ _ ihhead ihtail => .cons ihhead ihtail

/-- A value is paired with itself if its tags and methods are admitted throughout and its code
loses no wrappers. -/
theorem refl {v : Value} (hdrop : P.drop = fun _ => false)
    (h : v.Everywhere (fun tag => P.tags tag tag) P.admits) : Value.Paired P v v := by
  induction h with
  | undefined => exact .undefined
  | null => exact .null
  | bool b => exact .bool b
  | number n => exact .number n
  | string text => exact .string text
  | list htag _ ih => exact .list htag (List.forall₂_same.2 ih)
  | record htag _ ih => exact .record htag rfl (List.forall₂_same.2 ih)
  | @closure tag code scope htag _ ih =>
    have hcode : code.unwrap P.drop = code := by
      rw [ArrowCode.unwrap, hdrop, code.body.unwrap_none]
    have hframes : Forall₂ (fun frame other =>
        Forall₂ (fun a b => Value.Paired P a.2 b.2) frame other) scope.frames scope.frames :=
      List.forall₂_same.2 fun frame hframe => List.forall₂_same.2 (ih frame hframe)
    have hclosures : Value.Paired P (.closure tag code scope)
        (.closure tag (code.unwrap P.drop) scope) := .closure htag rfl hframes
    rwa [hcode] at hclosures
  | method htag hm _ ih => exact .method htag hm ih

/-- Where tags must be equal and the code loses no wrappers, so are the values. -/
theorem eq (htags : ∀ {tag tag'}, P.tags tag tag' → tag = tag') (hdrop : P.drop = fun _ => false)
    {v w : Value} (h : Value.Paired P v w) : v = w := by
  induction h using induct with
  | undefined | null | bool | number | string => rfl
  | list tag tag' xs ys htag hitems =>
    have hsame : Forall₂ (· = ·) xs ys := hitems.imp fun _ _ h => h.2
    rw [List.forall₂_eq_eq_eq] at hsame
    rw [htags htag, hsame]
  | record tag tag' r other htag hfields =>
    have hentries : FrameRelated (fun x y => ∃ _ : Value.Paired P x y, x = y) r.entries
        other.entries := hfields
    obtain ⟨entries⟩ := r
    rw [htags htag, show entries = other.entries from hentries.eq fun h => h.2]
  | closure tag tag' code s t htag hframes =>
    rw [htags htag, ArrowCode.unwrap, hdrop, code.body.unwrap_none,
      Scope.eq_of_framesRelated (fun h => h.2) hframes]
  | method tag tag' receiver other m htag _ hreceiver => rw [htags htag, hreceiver.2]

/-- What the pairing asks of the values of the first side. -/
theorem everywhere {v w : Value} (h : Value.Paired P v w) :
    v.Everywhere (fun tag => ∃ tag', P.tags tag tag') P.admits := by
  induction h using induct with
  | undefined => exact .undefined
  | null => exact .null
  | bool b => exact .bool b
  | number n => exact .number n
  | string text => exact .string text
  | list tag tag' xs ys htag hitems =>
    exact .list ⟨tag', htag⟩ (forall_of_forall₂ (hitems.imp fun _ _ h => h.2))
  | record tag tag' r other htag hfields =>
    exact .record ⟨tag', htag⟩ (forall_of_forall₂ (hfields.imp fun _ _ h => h.2.2))
  | closure tag tag' code s t htag hframes =>
    refine .closure ⟨tag', htag⟩ (forall_of_forall₂ (hframes.imp fun _ _ hframe => ?_))
    exact forall_of_forall₂ (hframe.imp fun _ _ h => h.2.2)
  | method tag tag' receiver other m htag hm hreceiver =>
    exact .method ⟨tag', htag⟩ hm hreceiver.2

/-- Tags of one identity are equal on one side exactly when they are on the other. -/
theorem resemblance : Value.Resemblance P.tags (Value.Paired P) where
  form h := by
    have hpaired := h
    cases h with
    | undefined => exact .undefined
    | null => exact .null
    | bool b => exact .bool b
    | number n => exact .number n
    | string text => exact .string text
    | list htag hitems => exact .list htag hitems
    | record htag => exact .record htag hpaired.fields
    | closure htag => exact .closure htag
    | method htag => exact .method htag
  primitive h :=
    primitive_cases (motive := fun v => v.Paired P v) .undefined .null .bool .number .string h
  tags_unique := P.tags_unique

end Value.Paired

/-! ### Scopes -/

namespace Scope

theorem paired_root : Scope.Paired P .root .root := .nil

theorem Paired.extend {s t : Scope Value} (h : Scope.Paired P s t)
    {frame other : List (String × Value)} (hframe : FrameRelated (Value.Paired P) frame other) :
    Scope.Paired P (s.extend frame) (t.extend other) := .cons hframe h

theorem lastBinding?_related {R : Value → Value → Prop} {frame other : List (String × Value)}
    (h : FrameRelated R frame other) (name : String) :
    Option.Rel R (lastBinding? name frame) (lastBinding? name other) := by
  have hreversed : Record.Related R ⟨frame.reverse⟩ ⟨other.reverse⟩ :=
    List.forall₂_reverse_iff.2 h
  exact hreversed.get? name

/-- A name is bound in both scopes or in none, and to paired values. -/
theorem Paired.lookup? {s t : Scope Value} (h : Scope.Paired P s t) (name : String) :
    Option.Rel (Value.Paired P) (s.lookup? name) (t.lookup? name) := by
  obtain ⟨frames⟩ := s
  obtain ⟨others⟩ := t
  have hframes : Forall₂ (FrameRelated (Value.Paired P)) frames others := h
  clear h
  unfold Scope.lookup?
  induction hframes with
  | nil => exact .none
  | @cons frame other _ _ hhead _ ih =>
    have hbinding := lastBinding?_related hhead name
    rw [List.findSome?_cons, List.findSome?_cons]
    generalize lastBinding? name frame = x, lastBinding? name other = y at hbinding
    cases hbinding with
    | none => exact ih
    | some hvalue => exact .some hvalue

theorem Paired.eq (htags : ∀ {tag tag'}, P.tags tag tag' → tag = tag')
    (hdrop : P.drop = fun _ => false) {s t : Scope Value} (h : Scope.Paired P s t) : s = t :=
  eq_of_framesRelated (fun h => h.eq htags hdrop) h

theorem Paired.everywhere {s t : Scope Value} (h : Scope.Paired P s t) :
    s.Everywhere (fun tag => ∃ tag', P.tags tag tag') P.admits :=
  forall_of_forall₂ (List.Forall₂.imp
    (fun _ _ hframe => forall_of_forall₂ (List.Forall₂.imp (fun _ _ h => h.2.everywhere) hframe)) h)

theorem paired_refl {s : Scope Value} (hdrop : P.drop = fun _ => false)
    (h : s.Everywhere (fun tag => P.tags tag tag) P.admits) : Scope.Paired P s s :=
  List.forall₂_same.2 fun frame hframe => List.forall₂_same.2 fun binding hbinding =>
    ⟨rfl, .refl hdrop (h frame hframe binding hbinding)⟩

end Scope

end

end StaticConfig
