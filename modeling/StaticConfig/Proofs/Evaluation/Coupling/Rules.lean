import StaticConfig.Proofs.Evaluation.Coupling.Calls
import StaticConfig.Proofs.Source.Pieces

/-!
# Coupled rules

One lemma for every rule of the evaluator: if whatever comes of the pieces of a form is coupled, so
is what the rule makes of them. How the scopes of the two runs correspond is left to the proofs that
use this; they only have to say it of each piece (`Coupling.Settles`).

- `Coupling.evalNode_coupled`: the rule of a node;
- `Coupling.Plain.evalNode_coupled`: the same for runs of the same code, neither of them observed.
-/

namespace StaticConfig

open List (Forall₂)

namespace Coupling

variable {W : Type} [Preorder W] (C : Coupling W)

/-! ### Pieces -/

/-- Whether whatever comes of a piece in two scopes is coupled. -/
def Settles (w : W) (s t : Scope Value) : Piece → Prop
  | .part node => C.Coupled w C.inner (C.visit s node) (C.visit' t (node.unwrap C.drop))
  | .name ident =>
    C.right.candidates ident = (C.left.candidates ident).map (Node.unwrap C.drop) ∧
      Option.Rel (C.inner w) (s.lookup? ident.name) (t.lookup? ident.name) ∧
      ∀ node ∈ (C.left.candidates ident).head?,
        C.Coupled w C.inner (C.visit .root node) (C.visit' .root (node.unwrap C.drop))
  | .function (.body span body) => ∀ params : List String,
    C.toTerms.Makes w C.outer (.closure · ⟨span, params, body⟩ s)
      (.closure · ⟨span, params, body.unwrap C.drop⟩ t)
  | .function _ => True
  | .call => ∀ (callee called : Value) (args others : List Value), C.inner w callee called →
    Forall₂ (C.inner w) args others →
      C.Coupled w C.outer (callee.call C.visit args) (C.observer.call C.visit' called others)
  | .stop kind span =>
    C.faults (C.left.constructFault kind span C.trail) (C.right.constructFault kind span C.trail')

/-- Whether whatever comes of a piece from a world on is coupled. -/
def SettlesFrom (w : W) (s t : Scope Value) (piece : Piece) : Prop :=
  ∀ w', w ≤ w' → C.Settles w' s t piece

/-- Whether whatever comes of pieces from a world on is coupled. -/
abbrev SettlesAll (w : W) (s t : Scope Value) (pieces : List Piece) : Prop :=
  ∀ piece ∈ pieces, C.SettlesFrom w s t piece

variable {C} {w : W} {s t : Scope Value}

theorem SettlesFrom.mono {w' : W} {piece : Piece} (h : C.SettlesFrom w s t piece) (hle : w ≤ w') :
    C.SettlesFrom w' s t piece :=
  fun v hle' => h v (le_trans hle hle')

theorem SettlesAll.mono {w' : W} {pieces : List Piece} (h : C.SettlesAll w s t pieces)
    (hle : w ≤ w') : C.SettlesAll w' s t pieces :=
  fun piece hpiece => (h piece hpiece).mono hle

/-- The pieces of one of several things. -/
theorem SettlesAll.of_mem {α : Type} {things : List α} {pieces : α → List Piece}
    (h : C.SettlesAll w s t (things.flatMap pieces)) {thing : α} (hthing : thing ∈ things) :
    C.SettlesAll w s t (pieces thing) :=
  fun piece hpiece => h piece (List.mem_flatMap_of_mem hthing hpiece)

/-- A settled expression is evaluated alike. -/
theorem visitExpr_coupled {e : Expr} (h : C.SettlesFrom w s t e.piece) :
    C.Coupled w C.inner (visitExpr C.visit s e) (visitExpr C.visit' t (e.unwrap C.drop)) :=
  h w le_rfl

/-- A settled form is stopped at alike. -/
theorem unsupported_coupled {α β : Type} {Q : W → α → β → Prop} {kind : Kind} {span : Span}
    (h : C.SettlesFrom w s t (.stop kind span)) :
    C.Coupled w Q (C.left.unsupported kind span) (C.right.unsupported kind span) :=
  .unsupported (h w le_rfl)

/-! ### Names and members -/

theorem evalName_coupled {ident : Ident} (h : C.SettlesFrom w s t (.name ident)) :
    C.Coupled w C.inner (evalName C.left C.visit s ident) (evalName C.right C.visit' t ident) := by
  obtain ⟨hcandidates, hlookup, hfirst⟩ := h w le_rfl
  unfold evalName
  rw [hcandidates]
  split
  · exact .pure (inner_undefined w)
  · generalize s.lookup? ident.name = found, t.lookup? ident.name = found' at hlookup
    cases hlookup with
    | some hvalue => exact .pure hvalue
    | none =>
      -- Unbound in one run is unbound in the other, and the first declaration counts in both.
      generalize C.left.candidates ident = nodes at hfirst
      cases nodes with
      | nil => exact fail_coupled rfl rfl
      | cons first rest => exact hfirst first rfl

theorem evalAccess_coupled {target : Expr} {key : AccessKey}
    (htarget : C.SettlesFrom w s t target.piece) (hkey : C.SettlesAll w s t key.pieces) :
    C.Coupled w C.outer (evalAccess C.left C.visit s target key)
      (evalAccessVia C.right C.visit' C.observer.readMember t (target.unwrap C.drop)
        (key.unwrap C.drop)) := by
  refine (visitExpr_coupled htarget).bind fun w' v v' hle hvalue => ?_
  cases key with
  | name name => exact readMember_coupled hvalue name
  | computed key =>
    have hname := (List.forall_mem_singleton.1 hkey).mono hle
    refine (visitExpr_coupled hname).bind fun w'' name name' hle' hname => ?_
    rw [(C.resemblance w'').display_eq hname]
    exact readMember_coupled (C.inner_mono hle' hvalue) _
  | hidden span => exact unsupported_coupled ((List.forall_mem_singleton.1 hkey).mono hle)

/-! ### Containers -/

/-- A fault that an item of the wrong form gives. -/
theorem mismatch_coupled {α β : Type} {Q : W → α → β → Prop} (expected : String) {v v' : Value}
    (h : C.inner w v v') :
    C.Coupled w Q (Eval.fail (.typeMismatch expected v.typeName))
      (Eval.fail (.typeMismatch expected v'.typeName)) := by
  rw [(C.resemblance w).typeName_eq h]
  exact fail_coupled rfl rfl

theorem evalArgument_coupled {argument : Argument} (h : C.SettlesAll w s t argument.pieces) :
    C.Coupled w (fun w' => Forall₂ (C.inner w')) (evalArgument C.visit s argument)
      (evalArgument C.visit' t (argument.unwrap C.drop)) := by
  cases argument with
  | plain e =>
    exact (visitExpr_coupled (List.forall_mem_singleton.1 h)).bind fun _ _ _ _ hvalue =>
      .pure (.cons hvalue .nil)
  | spread e =>
    refine (visitExpr_coupled (List.forall_mem_singleton.1 h)).bind fun w' v v' _ hvalue => ?_
    have hmismatch := mismatch_coupled (Q := fun w' => Forall₂ (C.inner w')) "list" hvalue
    cases (C.resemblance w').form hvalue with
    | list _ hitems => exact .pure hitems
    | _ => exact hmismatch

theorem evalElement_coupled {element : Element} (h : C.SettlesAll w s t element.pieces) :
    C.Coupled w (fun w' => Forall₂ (C.inner w')) (evalElement C.visit s element)
      (evalElement C.visit' t (element.unwrap C.drop)) := by
  cases element with
  | hole => exact .pure (.cons (inner_undefined w) .nil)
  | item argument => exact evalArgument_coupled h

/-- What several arguments or elements stand for. -/
theorem mapM_coupled {α : Type} {pieces : α → List Piece} {change : α → α}
    {rule rule' : α → Eval (List Value)} {things : List α}
    (h : C.SettlesAll w s t (things.flatMap pieces))
    (hrule : ∀ {thing w'}, C.SettlesAll w' s t (pieces thing) →
      C.Coupled w' (fun v => Forall₂ (C.inner v)) (rule thing) (rule' (change thing))) :
    C.Coupled w (fun w' groups others => Forall₂ (C.inner w') groups.flatten others.flatten)
      (things.mapM rule) ((things.map change).mapM rule') := by
  have hrules : Forall₂ (fun thing changed => ∀ w', w ≤ w' →
      C.Coupled w' (fun v => Forall₂ (C.inner v)) (rule thing) (rule' changed))
      things (things.map change) :=
    List.forall₂_map_right_iff.2 (List.forall₂_same.2 fun thing hthing w' hle =>
      hrule ((h.of_mem hthing).mono hle))
  have hgroups := Eval.Coupled.mapM (R := fun v => Forall₂ (C.inner v))
    (fun hle => forall₂_inner_mono hle) hrules le_rfl
  exact hgroups.imp fun w' groups others _ hgroups => List.rel_flatten hgroups

theorem evalKey_coupled {key : PropertyKey} (h : C.SettlesAll w s t key.pieces) :
    C.Coupled w (fun _ => (· = ·)) (evalKey C.left C.visit s key)
      (evalKey C.right C.visit' t (key.unwrap C.drop)) := by
  cases key with
  | fixed name => exact .pure rfl
  | number value => exact .pure rfl
  | computed key =>
    exact (visitExpr_coupled (List.forall_mem_singleton.1 h)).bind fun w' _ _ _ hname =>
      .pure ((C.resemblance w').display_eq hname)
  | bigInt span => exact unsupported_coupled (List.forall_mem_singleton.1 h)

/-- The fields of a record that is being built. -/
def Fields (C : Coupling W) (w : W) (fields others : Record Value) : Prop :=
  fields.Built ∧ Record.Related (C.inner w) fields others

theorem Fields.mono {w' : W} {fields others : Record Value} (h : C.Fields w fields others)
    (hle : w ≤ w') : C.Fields w' fields others :=
  ⟨h.1, List.Forall₂.imp (fun _ _ hentry => ⟨hentry.1, C.inner_mono hle hentry.2⟩) h.2⟩

theorem Fields.insert {fields others : Record Value} (h : C.Fields w fields others) (key : String)
    {v v' : Value} (hvalue : C.inner w v v') :
    C.Fields w (fields.insert key v) (others.insert key v') :=
  ⟨.insert key v h.1, h.2.insert key hvalue⟩

theorem evalMember_coupled {member : Member} (h : C.SettlesAll w s t member.pieces)
    {fields others : Record Value} (hfields : C.Fields w fields others) :
    C.Coupled w C.Fields (evalMember C.left C.visit s fields member)
      (evalMember C.right C.visit' t others (member.unwrap C.drop)) := by
  cases member with
  | entry key e =>
    obtain ⟨hkey, he⟩ := List.forall_mem_append.1 h
    refine (evalKey_coupled hkey).bind fun w' key key' hle hsame => ?_
    subst hsame
    have he := (List.forall_mem_singleton.1 he).mono hle
    exact (visitExpr_coupled he).bind fun w'' _ _ hle' hvalue =>
      .pure ((hfields.mono (le_trans hle hle')).insert key hvalue)
  | shorthand ident =>
    exact (evalName_coupled (List.forall_mem_singleton.1 h)).bind fun w' _ _ hle hvalue =>
      .pure ((hfields.mono hle).insert ident.name hvalue)
  | spread e =>
    refine (visitExpr_coupled (List.forall_mem_singleton.1 h)).bind fun w' v v' hle hvalue => ?_
    have hmismatch := mismatch_coupled (Q := C.Fields) "record" hvalue
    cases (C.resemblance w').form hvalue with
    | record _ hwritten =>
      exact .pure ⟨hfields.1.merge_left _, (hfields.mono hle).2.merge hwritten⟩
    | _ => exact hmismatch
  | other span kind => exact unsupported_coupled (List.forall_mem_singleton.1 h)

theorem evalChunks_coupled {chunks : List Chunk}
    (h : C.SettlesAll w s t (chunks.flatMap Chunk.pieces)) (text : String) :
    C.Coupled w (fun _ => (· = ·)) (evalChunks C.visit s text chunks)
      (evalChunks C.visit' t text (unwrapChunks C.drop chunks)) := by
  induction chunks generalizing w text with
  | nil => exact .pure rfl
  | cons chunk rest ih =>
    obtain ⟨e, next⟩ := chunk
    rw [List.flatMap_cons] at h
    obtain ⟨he, hrest⟩ := List.forall_mem_append.1 h
    refine (visitExpr_coupled (List.forall_mem_singleton.1 he)).bind fun w' v v' hle hvalue => ?_
    rw [(C.resemblance w').display_eq hvalue]
    exact ih (SettlesAll.mono hrest hle) _

/-! ### Functions -/

theorem paramNames_coupled {params : List Param}
    (h : C.SettlesAll w s t (params.flatMap Param.pieces)) :
    C.Coupled w (fun _ => (· = ·)) (paramNames C.left params) (paramNames C.right params) := by
  induction params with
  | nil => exact .pure rfl
  | cons param rest ih =>
    rw [List.flatMap_cons] at h
    obtain ⟨hparam, hrest⟩ := List.forall_mem_append.1 h
    cases param with
    | name name =>
      refine (ih hrest).bind fun _ names names' _ hsame => .pure ?_
      rw [hsame]
    | pattern span kind => exact unsupported_coupled (List.forall_mem_singleton.1 hparam)

theorem evalArrow_coupled {span : Span} {params : List Param} {body : ArrowBody}
    (hbody : C.SettlesFrom w s t (.function (.body span body)))
    (hparams : C.SettlesAll w s t (params.flatMap Param.pieces)) :
    C.Coupled w C.outer (evalArrow C.left s span false params body)
      (evalArrow C.right t span false params (body.unwrap C.drop)) := by
  refine (paramNames_coupled hparams).bind fun w' names names' hle hsame => ?_
  subst hsame
  exact .make (hbody w' hle names)

theorem evalCall_coupled (span : Span) {callee : Expr} {args : List Argument}
    (hcall : C.SettlesFrom w s t .call) (hcallee : C.SettlesFrom w s t callee.piece)
    (hargs : C.SettlesAll w s t (args.flatMap Argument.pieces)) :
    C.Coupled w C.outer (evalCall C.left C.visit s span (.value callee) args)
      (evalCallVia C.right C.visit' (C.observer.call C.visit') t span
        (.value (callee.unwrap C.drop)) (unwrapArguments C.drop args)) := by
  refine (visitExpr_coupled hcallee).bind fun w' callee called hle hcallee => ?_
  rw [unwrapArguments_eq]
  refine (mapM_coupled (SettlesAll.mono hargs hle) evalArgument_coupled).bind
    fun w'' groups others hle' hgroups => ?_
  exact hcall w'' (le_trans hle hle') callee called _ _ (C.inner_mono hle' hcallee) hgroups

/-! ### Operators -/

theorem form_coupled (op : BinaryOp) :
    C.Coupled w (fun _ => (· = ·)) (liftExcept op.form) (liftExcept op.form) := by
  cases op with
  | strictEqual | logicalOr => exact .pure rfl
  | _ => exact fail_coupled rfl rfl

theorem evalBinary_coupled (op : BinaryOp) {left right : Expr}
    (hleft : C.SettlesFrom w s t left.piece) (hright : C.SettlesFrom w s t right.piece) :
    C.Coupled w C.inner (evalBinary C.visit s op left right)
      (evalBinary C.visit' t op (left.unwrap C.drop) (right.unwrap C.drop)) := by
  refine (form_coupled op).bind fun w' form form' hle hsame => ?_
  subst hsame
  cases form with
  | strictEqual =>
    refine (visitExpr_coupled (hleft.mono hle)).bind fun w'' a a' hle' hfirst => ?_
    refine (visitExpr_coupled (hright.mono (le_trans hle hle'))).bind fun v b b' hle'' hsecond => ?_
    rw [(C.resemblance v).strictEquals_eq (C.inner_mono hle'' hfirst) hsecond]
    exact .pure ((C.resemblance v).primitive rfl)
  | logicalOr =>
    refine (visitExpr_coupled (hleft.mono hle)).bind fun w'' a a' hle' hvalue => ?_
    rw [(C.resemblance w'').isTruthy_eq hvalue]
    cases a'.isTruthy with
    | true => exact .pure hvalue
    | false => exact visitExpr_coupled (hright.mono (le_trans hle hle'))

theorem apply_coupled (op : UnaryOp) {v v' : Value} (h : C.inner w v v') :
    C.Coupled w C.inner (liftExcept (op.apply v)) (liftExcept (op.apply v')) := by
  cases op with
  | minus | plus | complement =>
    simp only [UnaryOp.apply, (C.resemblance w).toNumber_eq h]
    exact .pure ((C.resemblance w).primitive rfl)
  | not =>
    simp only [UnaryOp.apply, (C.resemblance w).isTruthy_eq h]
    exact .pure ((C.resemblance w).primitive rfl)
  | typeOf | void | delete => exact fail_coupled rfl rfl

theorem evalUnary_coupled (op : UnaryOp) {operand : Expr}
    (h : C.SettlesFrom w s t operand.piece) :
    C.Coupled w C.inner (evalUnary C.visit s op operand)
      (evalUnary C.visit' t op (operand.unwrap C.drop)) := by
  unfold evalUnary
  split
  · exact (visitExpr_coupled h).bind fun _ _ _ _ => apply_coupled op
  · exact fail_coupled rfl rfl

theorem evalConditional_coupled {test yes no : Expr} (htest : C.SettlesFrom w s t test.piece)
    (hyes : C.SettlesFrom w s t yes.piece) (hno : C.SettlesFrom w s t no.piece) :
    C.Coupled w C.inner (evalConditional C.visit s test yes no)
      (evalConditional C.visit' t (test.unwrap C.drop) (yes.unwrap C.drop) (no.unwrap C.drop)) := by
  refine (visitExpr_coupled htest).bind fun w' v v' hle hvalue => ?_
  rw [(C.resemblance w').isTruthy_eq hvalue]
  cases v'.isTruthy with
  | true => exact visitExpr_coupled (hyes.mono hle)
  | false => exact visitExpr_coupled (hno.mono hle)

/-! ### Statements -/

theorem evalBlock_coupled {statements : List Stmt}
    (h : C.SettlesAll w s t (statements.map Stmt.piece)) :
    C.Coupled w C.inner (evalBlock C.visit s statements)
      (evalBlock C.visit' t (unwrapStatements C.drop statements)) := by
  cases statements with
  | nil => exact .pure (inner_undefined w)
  | cons first _ => exact h first.piece List.mem_cons_self w le_rfl

theorem evalInit_coupled {init : Option Expr} (h : C.SettlesAll w s t (piecesOfInit init)) :
    C.Coupled w C.inner (evalInit C.visit s init)
      (evalInit C.visit' t (unwrapInit C.drop init)) := by
  cases init with
  | none => exact .pure (inner_undefined w)
  | some e => exact visitExpr_coupled (List.forall_mem_singleton.1 h)

theorem evalVariables_coupled {declarators : List Declarator}
    (h : C.SettlesAll w s t (declarators.flatMap Declarator.pieces)) :
    C.Coupled w C.inner (evalVariables C.visit s declarators)
      (evalVariables C.visit' t (declarators.map (Declarator.unwrap C.drop))) := by
  match declarators with
  | [] => exact fail_coupled rfl rfl
  | [.mk _ _ init] =>
    rw [List.flatMap_singleton] at h
    exact evalInit_coupled h
  | _ :: _ :: rest =>
    simp only [List.map_cons, evalVariables, List.length_cons, List.length_map]
    exact fail_coupled rfl rfl

theorem evalClauseBody_coupled {body : List Stmt}
    (h : C.SettlesAll w s t (body.map Stmt.piece)) :
    C.Coupled w C.inner (evalClauseBody C.visit s body)
      (evalClauseBody C.visit' t (unwrapStatements C.drop body)) := by
  match body with
  | [] => exact fail_coupled rfl rfl
  | [statement] => exact h statement.piece List.mem_cons_self w le_rfl
  | _ :: _ :: rest =>
    simp only [unwrapStatements, evalClauseBody, unwrapStatements_eq, List.length_cons,
      List.length_map]
    exact fail_coupled rfl rfl

theorem evalClauses_coupled {clauses : List Clause}
    (h : C.SettlesAll w s t (clauses.flatMap Clause.pieces)) {discriminant wanted : Value}
    (hdiscriminant : C.inner w discriminant wanted) (matched : Bool) :
    C.Coupled w C.inner (evalClauses C.visit s discriminant matched clauses)
      (evalClauses C.visit' t wanted matched (unwrapClauses C.drop clauses)) := by
  induction clauses generalizing w matched with
  | nil => exact .pure (inner_undefined w)
  | cons clause rest ih =>
    obtain ⟨test, body⟩ := clause
    rw [List.flatMap_cons] at h
    obtain ⟨hclause, hrest⟩ := List.forall_mem_append.1 h
    obtain ⟨htest, hbody⟩ := List.forall_mem_append.1 hclause
    have hempty : (unwrapStatements C.drop body).isEmpty = body.isEmpty := by
      cases body <;> rfl
    -- Past the test: both runs have matched, or neither has.
    have hafter (w' : W) (matched now : Bool) (hle : w ≤ w') (hsame : matched = now) :
        C.Coupled w' C.inner
          (if matched && !body.isEmpty then evalClauseBody C.visit s body
            else evalClauses C.visit s discriminant matched rest)
          (if now && !(unwrapStatements C.drop body).isEmpty then
              evalClauseBody C.visit' t (unwrapStatements C.drop body)
            else evalClauses C.visit' t wanted now (unwrapClauses C.drop rest)) := by
      subst hsame
      rw [hempty]
      split
      · exact evalClauseBody_coupled (SettlesAll.mono hbody hle)
      · exact ih (SettlesAll.mono hrest hle) (C.inner_mono hle hdiscriminant) matched
    cases test with
    | none => exact (Eval.Coupled.pure (Q := fun _ => (· = ·)) rfl).bind hafter
    | some test =>
      cases matched with
      | true => exact (Eval.Coupled.pure (Q := fun _ => (· = ·)) rfl).bind hafter
      | false =>
        refine (visitExpr_coupled (List.forall_mem_singleton.1 htest)).bind
          fun w' v v' hle hvalue => hafter w' _ _ hle ?_
        exact (C.resemblance w').strictEquals_eq hvalue (C.inner_mono hle hdiscriminant)

/-! ### Nodes -/

/-- Entering an arrow function builds nothing by itself. -/
theorem evalBody_coupled {body : ArrowBody} (h : C.SettlesAll w s t body.pieces) (span : Span) :
    C.Coupled w C.inner (evalNode C.left C.visit s (.body span body))
      (evalNode C.right C.visit' t (.body span (body.unwrap C.drop))) := by
  cases body with
  | value result => exact visitExpr_coupled (List.forall_mem_singleton.1 h)
  | block statements => exact evalBlock_coupled h

theorem outer_coupled {step other : Eval Value} (h : C.Coupled w C.inner step other) :
    C.Coupled w C.outer step other :=
  h.imp fun _ _ _ _ => C.outer_of_inner

/-- The rule of an expression that as a whole is no form to stop at, and no wrapper that the second
run goes without. -/
theorem evalExpr_coupled {e : Expr}
    (hkept : ∀ {span wrapper inner}, e = .wrapped span wrapper inner → C.drop wrapper = false)
    (hsupported : (Node.expr e).rejection? = none) (h : C.SettlesAll w s t e.pieces) :
    C.Coupled w C.outer (evalExpr C.left C.visit s e)
      (evalNodeVia C.right C.visit' C.observer.readMember (C.observer.call C.visit') t
        (.expr (e.unwrap C.drop))) := by
  have hprimitive (v : Value) (hv : v.isPrimitive = true) : C.outer w v v :=
    C.outer_of_inner ((C.resemblance w).primitive hv)
  cases e with
  | string _ text => exact .pure (hprimitive (.string text) rfl)
  | number _ n => exact .pure (hprimitive (.number n) rfl)
  | bool _ b => exact .pure (hprimitive (.bool b) rfl)
  | null => exact .pure (hprimitive .null rfl)
  | template _ head chunks =>
    refine (evalChunks_coupled h head).bind fun w' text text' _ hsame => .pure ?_
    subst hsame
    exact C.outer_of_inner ((C.resemblance w').primitive rfl)
  | array _ elements =>
    have hitems := mapM_coupled h evalElement_coupled
    rw [← unwrapElements_eq] at hitems
    exact hitems.bind fun _ _ _ _ => newList_coupled
  | object _ members =>
    have hfields : C.Coupled w C.Fields (members.foldlM (evalMember C.left C.visit s) .empty)
        ((unwrapMembers C.drop members).foldlM (evalMember C.right C.visit' t) .empty) := by
      rw [unwrapMembers_eq]
      refine .foldlM (fun member hmember w' fields others hle hfields => ?_)
        ⟨.empty, Record.related_empty⟩
      exact evalMember_coupled ((SettlesAll.of_mem h hmember).mono hle) hfields
    exact hfields.bind fun _ _ _ _ hfields => .make (C.new_record hfields.1 hfields.2)
  | identifier ident => exact outer_coupled (evalName_coupled (List.forall_mem_singleton.1 h))
  | access _ target key =>
    obtain ⟨htarget, hkey⟩ := List.forall_mem_cons.1 h
    exact evalAccess_coupled htarget hkey
  | call span callee args =>
    cases callee with
    | value callee =>
      obtain ⟨hcall, hrest⟩ := List.forall_mem_cons.1 h
      obtain ⟨hcallee, hargs⟩ := List.forall_mem_cons.1 hrest
      exact evalCall_coupled span hcall hcallee hargs
    | super | module => cases hsupported
  | arrow span isAsync params body =>
    obtain ⟨hbody, hparams⟩ := List.forall_mem_cons.1 h
    cases isAsync with
    | true => cases hsupported
    | false => exact evalArrow_coupled hbody hparams
  | conditional _ test yes no =>
    simp only [Expr.pieces, List.forall_mem_cons] at h
    exact outer_coupled (evalConditional_coupled h.1 h.2.1 h.2.2.1)
  | binary _ op left right =>
    simp only [Expr.pieces, List.forall_mem_cons] at h
    exact outer_coupled (evalBinary_coupled op h.1 h.2.1)
  | unary _ op operand =>
    exact outer_coupled (evalUnary_coupled op (List.forall_mem_singleton.1 h))
  | wrapped _ wrapper inner =>
    rw [Expr.unwrap, hkept rfl]
    exact outer_coupled (visitExpr_coupled (List.forall_mem_singleton.1 h))
  | other => cases hsupported

theorem evalStmt_coupled {statement : Stmt} (hsupported : (Node.stmt statement).rejection? = none)
    (h : C.SettlesAll w s t statement.pieces) :
    C.Coupled w C.inner (evalStmt C.left C.visit s statement)
      (evalStmt C.right C.visit' t (statement.unwrap C.drop)) := by
  cases statement with
  | block _ statements => exact evalBlock_coupled h
  | empty => exact .pure (inner_undefined w)
  | result _ value => exact evalInit_coupled h
  | expression _ e => exact visitExpr_coupled (List.forall_mem_singleton.1 h)
  | switch _ discriminant clauses =>
    obtain ⟨hdiscriminant, hclauses⟩ := List.forall_mem_cons.1 h
    exact (visitExpr_coupled hdiscriminant).bind fun w' _ _ hle hvalue =>
      evalClauses_coupled (SettlesAll.mono hclauses hle) hvalue false
  | declares _ declarators =>
    rw [Stmt.unwrap, unwrapDeclarators_eq]
    exact evalVariables_coupled h
  | declaration | other => cases hsupported

/-- The rule of a node that as a whole is a form to stop at. -/
theorem evalNode_coupled_of_rejection? {node : Node} {kind : Kind} (h : node.rejection? = some kind)
    (hstop : C.SettlesFrom w s t (.stop kind node.span)) :
    C.Coupled w C.outer (evalNode C.left C.visit s node)
      (evalNodeVia C.right C.visit' C.observer.readMember (C.observer.call C.visit') t
        (node.unwrap C.drop)) := by
  unfold Node.rejection? at h
  split at h
  case h_8 => cases h
  all_goals
    cases h
    exact unsupported_coupled hstop

/-- The rule of a node. Whatever its pieces come to, the two runs make the same of them. -/
theorem evalNode_coupled {node : Node}
    (hkept : ∀ {span wrapper inner}, node = .expr (.wrapped span wrapper inner) →
      C.drop wrapper = false)
    (hstop : ∀ kind span, node.Rejects kind span → C.SettlesFrom w s t (.stop kind span))
    (h : ∀ piece ∈ node.pieces, (∀ kind span, piece ≠ .stop kind span) →
      C.SettlesFrom w s t piece) :
    C.Coupled w C.outer (evalNode C.left C.visit s node)
      (evalNodeVia C.right C.visit' C.observer.readMember (C.observer.call C.visit') t
        (node.unwrap C.drop)) := by
  cases hrejection : node.rejection? with
  | some kind =>
    exact evalNode_coupled_of_rejection? hrejection
      (hstop kind node.span (Node.rejects_of_rejection? hrejection))
  | none =>
    have hpieces : C.SettlesAll w s t node.pieces := by
      intro piece hpiece
      cases piece with
      | stop kind span => exact hstop kind span (Node.rejects_of_stop hrejection hpiece)
      | part | name | function | call => exact h _ hpiece nofun
    cases node with
    | expr e => exact evalExpr_coupled (fun heq => hkept (congrArg _ heq)) hrejection hpieces
    | stmt statement => exact outer_coupled (evalStmt_coupled hrejection hpieces)
    | declares _ declarators => exact outer_coupled (evalVariables_coupled hpieces)
    | declarator d =>
      cases d with
      | mk _ _ init => exact outer_coupled (evalInit_coupled hpieces)
    | body span body =>
      exact outer_coupled (evalBody_coupled hpieces span)
    | unevaluable => cases hrejection

theorem settles_call (hcalls : C.Calls) : C.Settles w s t .call :=
  fun _ _ _ _ => call_coupled hcalls

/-! ### Runs of the same code -/

/-- Whether both runs go through the same code, neither of them observed. -/
structure Plain (C : Coupling W) : Prop where
  drop : C.drop = fun _ => false
  observer : C.observer = .silent

namespace Plain

variable (hplain : C.Plain)

include hplain

theorem part {node : Node} (h : C.Coupled w C.inner (C.visit s node) (C.visit' t node)) :
    C.Settles w s t (.part node) := by
  rw [Settles, hplain.drop, node.unwrap_none]
  exact h

theorem name {ident : Ident} (hcandidates : C.right.candidates ident = C.left.candidates ident)
    (hlookup : Option.Rel (C.inner w) (s.lookup? ident.name) (t.lookup? ident.name))
    (h : ∀ node ∈ (C.left.candidates ident).head?,
      C.Coupled w C.inner (C.visit .root node) (C.visit' .root node)) :
    C.Settles w s t (.name ident) := by
  refine ⟨?_, hlookup, fun node hnode => ?_⟩
  · rw [hcandidates, hplain.drop, Node.map_unwrap_none]
  · rw [hplain.drop, node.unwrap_none]
    exact h node hnode

theorem function {body : Node} (h : ∀ span inner params, body = .body span inner →
      C.toTerms.Makes w C.outer (.closure · ⟨span, params, inner⟩ s)
        (.closure · ⟨span, params, inner⟩ t)) :
    C.Settles w s t (.function body) := by
  cases body with
  | body span inner =>
    intro params
    rw [hplain.drop, inner.unwrap_none]
    exact h span inner params rfl
  | expr | stmt | declares | declarator | unevaluable => trivial

theorem evalNode_coupled {node : Node}
    (hstop : ∀ kind span, node.Rejects kind span → C.SettlesFrom w s t (.stop kind span))
    (h : ∀ piece ∈ node.pieces, (∀ kind span, piece ≠ .stop kind span) →
      C.SettlesFrom w s t piece) :
    C.Coupled w C.outer (evalNode C.left C.visit s node) (evalNode C.right C.visit' t node) := by
  have hnode := Coupling.evalNode_coupled (fun _ => by rw [hplain.drop]) hstop h
  rwa [hplain.observer, evalNodeVia_silent, hplain.drop, node.unwrap_none] at hnode

theorem evalBody_coupled {body : ArrowBody} (h : C.SettlesAll w s t body.pieces) (span : Span) :
    C.Coupled w C.inner (evalNode C.left C.visit s (.body span body))
      (evalNode C.right C.visit' t (.body span body)) := by
  have hbody := Coupling.evalBody_coupled h span
  rwa [hplain.drop, body.unwrap_none] at hbody

theorem arguments_coupled {args : List Argument}
    (h : C.SettlesAll w s t (args.flatMap Argument.pieces)) :
    C.Coupled w (fun w' groups others => Forall₂ (C.inner w') groups.flatten others.flatten)
      (args.mapM (evalArgument C.visit s)) (args.mapM (evalArgument C.visit' t)) := by
  have hargs := mapM_coupled h evalArgument_coupled
  rwa [← unwrapArguments_eq, hplain.drop, unwrapArguments_none] at hargs

theorem call_coupled (hcalls : C.Calls) {callee called : Value} {args others : List Value}
    (hcallee : C.inner w callee called) (hargs : Forall₂ (C.inner w) args others) :
    C.Coupled w C.outer (callee.call C.visit args) (called.call C.visit' others) := by
  have hcall := Coupling.call_coupled hcalls hcallee hargs
  rwa [hplain.observer, Observer.silent_call] at hcall

end Plain

end Coupling

end StaticConfig
