import StaticConfig.Proofs.Evaluation.Coupling.Rules

/-!
# Runs that come to equal values

Two runs of the same code in the same scopes, over the same surroundings: as long as the steps
inside come to equal values, so do the rules. The runs draw the same tags, but they may be on
different trails, stop for different reasons and word faults differently. What holds of all the
values that come up can be told along the way; it may be a statement about what has been built so
far.

- `Knowledge`: what is known of the values in two such runs, and of what is built from them;
- `Knowledge.coupling`: two such runs are coupled;
- `Knowledge.Uniform`: knowledge that does not distinguish what is built from what is there, which
  therefore holds of whole rules and calls (`Uniform.evalNode_same`, `Uniform.call_same`).
-/

namespace StaticConfig

open List (Forall₂)

/-! ### The same things -/

/-- One thing on both sides, of which a property holds. -/
def Same {W α : Type} (p : W → α → Prop) (w : W) (a b : α) : Prop := a = b ∧ p w a

section

variable {W α : Type} {p : W → α → Prop} {w : W}

theorem forall₂_same_iff {as bs : List α} :
    Forall₂ (Same p w) as bs ↔ as = bs ∧ ∀ a ∈ as, p w a := by
  constructor
  · intro h
    induction h with
    | nil => exact ⟨rfl, nofun⟩
    | cons hhead _ ih => exact ⟨congrArg₂ _ hhead.1 ih.1, List.forall_mem_cons.2 ⟨hhead.2, ih.2⟩⟩
  · rintro ⟨rfl, h⟩
    exact List.forall₂_same.2 fun a ha => ⟨rfl, h a ha⟩

theorem related_same_iff {r other : Record α} :
    Record.Related (Same p w) r other ↔ r = other ∧ ∀ entry ∈ r.entries, p w entry.2 := by
  obtain ⟨entries⟩ := r
  obtain ⟨others⟩ := other
  constructor
  · intro h
    have hentries : Forall₂ (Same (fun w entry => p w entry.2) w) entries others :=
      List.Forall₂.imp (fun _ _ hentry => ⟨Prod.ext hentry.1 hentry.2.1, hentry.2.2⟩) h
    obtain ⟨rfl, hall⟩ := forall₂_same_iff.1 hentries
    exact ⟨rfl, hall⟩
  · rintro ⟨heq, h⟩
    cases heq
    exact List.forall₂_same.2 fun entry hentry => ⟨rfl, rfl, h entry hentry⟩

end

/-! ### Knowledge of values -/

/-- What is known of the values of a run, of those that the steps inside come to and of those that
are built from them. -/
structure Knowledge (W : Type) [Preorder W] where
  /-- Whether the machine may draw this tag next in the world. -/
  fits : W → Nat → Prop
  /-- What is known of the values that the steps inside come to. -/
  inner : W → Value → Prop
  /-- What is known of the values that are built from these. -/
  outer : W → Value → Prop
  inner_mono : ∀ {w w' : W} {v : Value}, w ≤ w' → inner w v → inner w' v
  outer_of_inner : ∀ {w : W} {v : Value}, inner w v → outer w v
  inner_primitive : ∀ (w : W) {v : Value}, v.isPrimitive = true → inner w v
  inner_items : ∀ {w : W} {tag : Nat} {items : List Value}, inner w (.list tag items) →
    ∀ item ∈ items, inner w item
  inner_fields : ∀ {w : W} {tag : Nat} {fields : Record Value}, inner w (.record tag fields) →
    ∀ entry ∈ fields.entries, inner w entry.2
  new_list : ∀ {w : W} {supply : Nat} {items : List Value}, fits w supply →
    (∀ item ∈ items, inner w item) →
      ∃ w', w ≤ w' ∧ fits w' (supply + 1) ∧ outer w' (.list supply items)
  new_record : ∀ {w : W} {supply : Nat} {fields : Record Value}, fits w supply → fields.Built →
    (∀ entry ∈ fields.entries, inner w entry.2) →
      ∃ w', w ≤ w' ∧ fits w' (supply + 1) ∧ outer w' (.record supply fields)
  new_method : ∀ {w : W} {supply : Nat} {receiver : Value} (m : Method), fits w supply →
    inner w receiver → ∃ w', w ≤ w' ∧ fits w' (supply + 1) ∧ outer w' (.method supply receiver m)

namespace Knowledge

variable {W : Type} [Preorder W]

/-- The terms of two runs with the same values. -/
def terms (K : Knowledge W) (faults : Fault → Fault → Prop) (excuses : Fault → Prop) : Terms W where
  supplies w supply supply' := supply = supply' ∧ K.fits w supply
  faults := faults
  excuses := excuses

/-- What is known of several values that the steps inside come to. -/
def OfValues (K : Knowledge W) (w : W) (values : List Value) : Prop := ∀ v ∈ values, K.inner w v

/-- What is known of a scope, if the same is known of what it binds. -/
def OfScope (K : Knowledge W) (w : W) (scope : Scope Value) : Prop :=
  ∀ frame ∈ scope.frames, ∀ binding ∈ frame, K.inner w binding.2

variable {K : Knowledge W} {w : W} {faults : Fault → Fault → Prop} {excuses : Fault → Prop}

theorem OfScope.mono {w' : W} {scope : Scope Value} (h : K.OfScope w scope) (hle : w ≤ w') :
    K.OfScope w' scope :=
  fun frame hframe binding hbinding => K.inner_mono hle (h frame hframe binding hbinding)

theorem resemblance (w : W) : Value.Resemblance (· = ·) (Same K.inner w) where
  form {v _} h := by
    obtain ⟨rfl, hv⟩ := h
    cases v with
    | undefined => exact .undefined
    | null => exact .null
    | bool b => exact .bool b
    | number n => exact .number n
    | string text => exact .string text
    | list => exact .list rfl (forall₂_same_iff.2 ⟨rfl, K.inner_items hv⟩)
    | record => exact .record rfl (related_same_iff.2 ⟨rfl, K.inner_fields hv⟩)
    | closure => exact .closure rfl
    | method => exact .method rfl
  primitive h := ⟨rfl, K.inner_primitive w h⟩
  tags_unique := by
    rintro s t _ _ rfl rfl
    exact Iff.rfl

/-- The same thing made on both sides, with the same tag. -/
theorem makes_same {Q : W → Value → Prop} {make : Nat → Value}
    (h : ∀ supply, K.fits w supply → ∃ w', w ≤ w' ∧ K.fits w' (supply + 1) ∧ Q w' (make supply)) :
    (K.terms faults excuses).Makes w (Same Q) make make := by
  rintro supply _ ⟨rfl, hfits⟩
  obtain ⟨w', hle, hfits', hvalue⟩ := h supply hfits
  exact ⟨w', hle, ⟨rfl, hfits'⟩, rfl, hvalue⟩

/-- Two runs with the same values. -/
def coupling (K : Knowledge W) (faults : Fault → Fault → Prop)
    (hself : ∀ {fault : Fault}, fault.isLocal = true → faults fault fault)
    (excuses : Fault → Prop) (definitions : Definitions)
    (visit visit' : Scope Value → Node → Eval Value) (trail trail' : List Span) : Coupling W where
  toTerms := K.terms faults excuses
  left := definitions
  right := definitions
  drop _ := false
  observer := .silent
  visit := visit
  visit' := visit'
  trail := trail
  trail' := trail'
  tags := (· = ·)
  inner := Same K.inner
  outer := Same K.outer
  resemblance := K.resemblance
  inner_mono hle h := ⟨h.1, K.inner_mono hle h.2⟩
  outer_of_inner h := ⟨h.1, K.outer_of_inner h.2⟩
  faults_self hlocal _ := hself hlocal
  faults_rejected _ _ := hself rfl
  new_list h := by
    obtain ⟨rfl, hitems⟩ := forall₂_same_iff.1 h
    exact K.makes_same fun supply hfits => K.new_list hfits hitems
  new_record hbuilt h := by
    obtain ⟨rfl, hfields⟩ := related_same_iff.1 h
    exact K.makes_same fun supply hfits => K.new_record hfits hbuilt hfields
  new_method h _ := by
    obtain ⟨rfl, hreceiver⟩ := h
    exact K.makes_same fun supply hfits => K.new_method _ hfits hreceiver

section

variable (hself : ∀ {fault : Fault}, fault.isLocal = true → faults fault fault)
variable {definitions : Definitions} {visit visit' : Scope Value → Node → Eval Value}
variable {trail trail' : List Span}

theorem plain_coupling :
    (K.coupling faults hself excuses definitions visit visit' trail trail').Plain := ⟨rfl, rfl⟩

/-- Calls come to equal values if the bodies of functions do. -/
theorem calls_coupling (hinner : ∀ {w : W} {v : Value}, K.outer w v → K.inner w v)
    (hreceiver : ∀ {w : W} {tag : Nat} {receiver : Value} {m : Method},
      K.inner w (.method tag receiver m) → K.inner w receiver)
    (hbody : ∀ {w : W} {tag : Nat} {code : ArrowCode} {scope : Scope Value} {args : List Value},
      K.inner w (.closure tag code scope) → K.OfValues w args →
        Eval.Coupled (K.terms faults excuses) trail trail' w (Same K.outer)
          (visit (scope.extend (bindParams code.params args)) (.body code.span code.body))
          (visit' (scope.extend (bindParams code.params args)) (.body code.span code.body))) :
    (K.coupling faults hself excuses definitions visit visit' trail trail').Calls := by
  refine .of_silent rfl (fun h => ⟨h.1, hinner h.2⟩) (fun hcallee hargs => ?_) fun hcallee => ?_
  · obtain ⟨heq, hcallee⟩ := hcallee
    cases heq
    obtain ⟨rfl, hknown⟩ := forall₂_same_iff.1 hargs
    exact hbody hcallee hknown
  · obtain ⟨heq, hcallee⟩ := hcallee
    cases heq
    exact ⟨rfl, hreceiver hcallee⟩

end

/-! ### Uniform knowledge -/

/-- The same is known of all values of a run, whatever they were built from and whatever is built
from them, and of what functions keep. -/
structure Uniform (K : Knowledge W) : Prop where
  inner_of_outer : ∀ {w : W} {v : Value}, K.outer w v → K.inner w v
  scope : ∀ {w : W} {tag : Nat} {code : ArrowCode} {scope : Scope Value},
    K.inner w (.closure tag code scope) → K.OfScope w scope
  receiver : ∀ {w : W} {tag : Nat} {receiver : Value} {m : Method},
    K.inner w (.method tag receiver m) → K.inner w receiver
  new_closure : ∀ {w : W} {supply : Nat} {scope : Scope Value} (code : ArrowCode),
    K.fits w supply → K.OfScope w scope →
      ∃ w', w ≤ w' ∧ K.fits w' (supply + 1) ∧ K.outer w' (.closure supply code scope)

/-- Frames and scopes of which something is known. -/
theorem OfScope.lookup? {scope : Scope Value} (h : K.OfScope w scope) (name : String) :
    Option.Rel (Same K.inner w) (scope.lookup? name) (scope.lookup? name) := by
  cases hv : scope.lookup? name with
  | none => exact .none
  | some v =>
    obtain ⟨frame, hframe, hbinding⟩ := List.exists_of_findSome?_eq_some hv
    exact .some ⟨rfl, h frame hframe (name, v) (List.mem_reverse.1 (Record.mem_of_lookup hbinding))⟩

end Knowledge

theorem forall_mem_bindParams {p : Value → Prop} {args : List Value} (hundefined : p .undefined)
    (hargs : ∀ arg ∈ args, p arg) (params : List String) :
    ∀ binding ∈ bindParams params args, p binding.2 := by
  induction params generalizing args with
  | nil => exact nofun
  | cons param params ih =>
    cases args with
    | nil => exact List.forall_mem_cons.2 ⟨hundefined, ih nofun⟩
    | cons arg rest =>
      obtain ⟨harg, hrest⟩ := List.forall_mem_cons.1 hargs
      exact List.forall_mem_cons.2 ⟨harg, ih hrest⟩

namespace Knowledge.Uniform

variable {W : Type} [Preorder W] {K : Knowledge W} (hK : K.Uniform) {w : W}
variable {faults : Fault → Fault → Prop} {excuses : Fault → Prop} {definitions : Definitions}
variable {visit visit' : Scope Value → Node → Eval Value} {trail trail' : List Span}
variable (hself : ∀ {fault : Fault}, fault.isLocal = true → faults fault fault)
variable (hvisit : ∀ {w : W} {scope : Scope Value} {node : Node}, K.OfScope w scope →
  Eval.Coupled (K.terms faults excuses) trail trail' w (Same K.outer) (visit scope node)
    (visit' scope node))

include hK hself hvisit

theorem calls (definitions : Definitions) :
    (K.coupling faults hself excuses definitions visit visit' trail trail').Calls := by
  refine calls_coupling hself hK.inner_of_outer hK.receiver
    fun {w _ code _ _} hcallee hargs => hvisit ?_
  exact List.forall_mem_cons.2 ⟨forall_mem_bindParams (K.inner_primitive w rfl) hargs code.params,
    hK.scope hcallee⟩

/-- What is called and what it is called with are the same on both sides. -/
theorem call_same {callee : Value} {args : List Value} (hcallee : K.inner w callee)
    (hargs : K.OfValues w args) :
    Eval.Coupled (K.terms faults excuses) trail trail' w (Same K.outer) (callee.call visit args)
      (callee.call visit' args) :=
  (plain_coupling hself).call_coupled (hK.calls hself hvisit .none) ⟨rfl, hcallee⟩
    (forall₂_same_iff.2 ⟨rfl, hargs⟩)

/-- Whatever comes of a piece in a scope of which something is known comes to the same. -/
theorem settlesFrom {scope : Scope Value} (hscope : K.OfScope w scope) {piece : Piece}
    (hother : ∀ kind span, piece ≠ .stop kind span) :
    (K.coupling faults hself excuses definitions visit visit' trail trail').SettlesFrom w scope
      scope piece := by
  let C := K.coupling faults hself excuses definitions visit visit' trail trail'
  have hplain : C.Plain := plain_coupling hself
  have hinner {w : W} {scope : Scope Value} (node : Node) (hscope : K.OfScope w scope) :
      C.Coupled w C.inner (visit scope node) (visit' scope node) :=
    (hvisit hscope).imp fun _ _ _ _ h => ⟨h.1, hK.inner_of_outer h.2⟩
  intro w' hle
  cases piece with
  | part inner => exact hplain.part (hinner inner (hscope.mono hle))
  | name ident =>
    refine hplain.name rfl ((hscope.mono hle).lookup? ident.name) fun node _ => ?_
    exact hinner node nofun
  | function body =>
    refine hplain.function fun span inner params _ => ?_
    exact makes_same fun supply hfits => hK.new_closure _ hfits (hscope.mono hle)
  | call => exact Coupling.settles_call (hK.calls hself hvisit definitions)
  | stop kind span => exact absurd rfl (hother kind span)

/-- The rule of a node comes to the same on both sides, if the steps inside do and forms that cannot
be evaluated are worded alike. -/
theorem evalNode_same
    (hstop : ∀ kind span, faults (definitions.constructFault kind span trail)
      (definitions.constructFault kind span trail'))
    {scope : Scope Value} (hscope : K.OfScope w scope) (node : Node) :
    Eval.Coupled (K.terms faults excuses) trail trail' w (Same K.outer)
      (evalNode definitions visit scope node) (evalNode definitions visit' scope node) := by
  have hplain : (K.coupling faults hself excuses definitions visit visit' trail trail').Plain :=
    plain_coupling hself
  exact hplain.evalNode_coupled (fun kind span _ _ _ => hstop kind span) fun _ _ =>
    hK.settlesFrom hself hvisit hscope

/-- Arguments stand for the same values on both sides. -/
theorem arguments_same {scope : Scope Value} (hscope : K.OfScope w scope) (args : List Argument) :
    Eval.Coupled (K.terms faults excuses) trail trail' w
      (fun w' groups others => groups.flatten = others.flatten ∧ K.OfValues w' groups.flatten)
      (args.mapM (evalArgument visit scope)) (args.mapM (evalArgument visit' scope)) := by
  have hpieces : (K.coupling faults hself excuses .none visit visit' trail trail').SettlesAll w
      scope scope (args.flatMap Argument.pieces) := by
    intro piece hpiece
    refine hK.settlesFrom hself hvisit hscope fun kind span hstop => ?_
    obtain ⟨argument, -, hmem⟩ := List.mem_flatMap.1 hpiece
    cases argument <;> cases List.mem_singleton.1 (hstop ▸ hmem)
  exact ((plain_coupling hself).arguments_coupled hpieces).imp fun _ _ _ _ h => forall₂_same_iff.1 h

end Knowledge.Uniform

/-! ### Nothing else known -/

namespace Knowledge

/-- Nothing is known but that the values are the same. -/
def nothing : Knowledge Timeless where
  fits _ _ := True
  inner _ _ := True
  outer _ _ := True
  inner_mono _ _ := trivial
  outer_of_inner _ := trivial
  inner_primitive _ _ _ := trivial
  inner_items _ _ _ := trivial
  inner_fields _ _ _ := trivial
  new_list _ _ := ⟨.always, trivial, trivial, trivial⟩
  new_record _ _ _ := ⟨.always, trivial, trivial, trivial⟩
  new_method _ _ _ := ⟨.always, trivial, trivial, trivial⟩

theorem uniform_nothing : nothing.Uniform where
  inner_of_outer _ := trivial
  scope _ _ _ _ _ := trivial
  receiver _ := trivial
  new_closure _ _ _ := ⟨.always, trivial, trivial, trivial⟩

/-- What two runs do of which nothing is known but that their values are the same. -/
theorem run_of_same {α : Type} {faults : Fault → Fault → Prop} {excuses : Fault → Prop}
    {trail trail' : List Span} {Q : Timeless → α → α → Prop} {step other : Eval α}
    (h : Eval.Coupled (nothing.terms faults excuses) trail trail' .always Q step other)
    (supply : Nat) :
    ∃ result after, step.run ⟨trail, supply⟩ = (result, ⟨trail, after⟩) ∧
      ((∃ fault, excuses fault ∧ result = .error fault) ∨
        ∃ outcome, other.run ⟨trail', supply⟩ = (outcome, ⟨trail', after⟩) ∧
          Outcome.Coupled faults (Q .always) result outcome) := by
  obtain ⟨result, after, hstep, hother⟩ := h supply supply ⟨rfl, trivial⟩
  refine ⟨result, after, hstep, hother.imp id ?_⟩
  rintro ⟨outcome, _, _, hother, -, ⟨rfl, -⟩, houtcome⟩
  exact ⟨outcome, hother, houtcome⟩

end Knowledge

end StaticConfig
