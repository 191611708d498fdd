import StaticConfig.Proofs.Source.Marks
import StaticConfig.Proofs.Source.Layout.Element

/-!
# Forms between two places

What it means for a form to be laid out well between two places of a file: the forms directly inside
it lie in it, and all but an expression that stands as a statement are larger than any of them.

- `Node.Laid`: a node and all the nodes in it are laid out well (`Node.Tidy`);
- `AllIn`, `AllFit`: pieces between two places, and pieces that fit in a form;
- `Cover.Spans`: an expression that is laid out well from one place to another one;
- `Continues`: parsers that append something to an expression.
-/

namespace StaticConfig

open Parse

/-! ### Nodes -/

/-- Whether a place is in a part of a file. -/
def Span.In (file : Path) (lo hi : Nat) (span : Span) : Prop :=
  span.file = file ∧ lo ≤ span.start ∧ span.stop ≤ hi

namespace Node

/-- Whether a node is laid out well against what is directly inside it. -/
structure Tidy (file : Path) (node : Node) : Prop where
  marks : ∀ mark ∈ node.marks, mark.span.file = file
  children : ∀ inner ∈ node.children, inner.span.Within node.span
  inside : ∀ span ∈ node.inside, span.Within node.span
  proper : node.isExpressionStatement = false → node.span ∉ node.inside
  named : ∀ ident, .name ident ∈ node.pieces → node.span.start < node.span.stop

theorem Tidy.file {file : Path} {node : Node} (h : node.Tidy file) : node.span.file = file := by
  obtain ⟨name?, hmark⟩ := exists_mark_of_span node
  exact h.marks _ hmark

/-- Whether a node and all the nodes in it are laid out well. -/
def Laid (file : Path) (root : Node) : Prop := ∀ node, root.Holds node → node.Tidy file

theorem Holds.child_or_self {root node : Node} (h : root.Holds node) :
    node = root ∨ ∃ inner ∈ root.children, inner.Holds node := by
  induction h with
  | self => exact .inl rfl
  | child _ hinner ih =>
    rcases ih with rfl | ⟨first, hfirst, hholds⟩
    · exact .inr ⟨_, hinner, .self⟩
    · exact .inr ⟨first, hfirst, hholds.child hinner⟩

theorem Holds.of_child {root inner node : Node} (hinner : inner ∈ root.children)
    (h : inner.Holds node) : root.Holds node := by
  induction h with
  | self => exact .child .self hinner
  | child _ hnext ih => exact .child ih hnext

theorem Laid.child {file : Path} {root inner : Node} (h : root.Laid file)
    (hinner : inner ∈ root.children) : inner.Laid file :=
  fun node hnode => h node (hnode.of_child hinner)

theorem Laid.of_children {file : Path} {root : Node} (h : root.Tidy file)
    (hchildren : ∀ inner ∈ root.children, inner.Laid file) : root.Laid file := by
  intro node hnode
  rcases hnode.child_or_self with rfl | ⟨inner, hinner, hholds⟩
  · exact h
  · exact hchildren inner hinner node hholds

end Node

/-! ### Pieces -/

namespace Piece

/-- Whether a piece stands between two places and is laid out well. -/
def In (file : Path) (lo hi : Nat) : Piece → Prop
  | part node | function node => node.span.In file lo hi ∧ node.Laid file
  | stop _ span => span.In file lo hi
  | name ident => ident.span.file = file
  | call => True

/-- Whether a piece stands in a form and is not all of it. -/
def Fits (span : Span) (piece : Piece) : Prop :=
  piece.In span.file span.start span.stop ∧ piece.span? ≠ some span

variable {file : Path} {lo lo' hi hi' : Nat} {piece : Piece}

theorem In.widen (h : piece.In file lo hi) (hlo : lo' ≤ lo) (hhi : hi ≤ hi') :
    piece.In file lo' hi' := by
  have hspan {span : Span} (h : span.In file lo hi) : span.In file lo' hi' :=
    ⟨h.1, Nat.le_trans hlo h.2.1, Nat.le_trans h.2.2 hhi⟩
  cases piece with
  | part | function => exact ⟨hspan h.1, h.2⟩
  | stop => exact hspan h
  | name => exact h
  | call => trivial

/-- What can be looked at in a piece stands in its file. -/
theorem In.marks (h : piece.In file lo hi) : ∀ mark ∈ piece.marks, mark.span.file = file := by
  cases piece with
  | part node | function node => exact (h.2 node .self).marks
  | name ident => exact List.forall_mem_singleton.2 h
  | stop kind span => exact List.forall_mem_singleton.2 h.1
  | call => exact nofun

theorem In.span (h : piece.In file lo hi) {span : Span} (hspan : piece.span? = some span) :
    span.In file lo hi := by
  cases piece with
  | part => cases hspan; exact h.1
  | stop => cases hspan; exact h
  | function | name | call => cases hspan

/-- What begins behind the beginning of a form fits in it. -/
theorem In.fits_start (h : piece.In file lo' hi') (hlo : lo < lo') (hhi : hi' ≤ hi) :
    piece.Fits ⟨file, lo, hi⟩ :=
  ⟨h.widen (Nat.le_of_lt hlo) hhi, fun hspan => absurd (h.span hspan).2.1 (Nat.not_le_of_lt hlo)⟩

/-- What ends before the end of a form fits in it. -/
theorem In.fits_stop (h : piece.In file lo' hi') (hlo : lo ≤ lo') (hhi : hi' < hi) :
    piece.Fits ⟨file, lo, hi⟩ :=
  ⟨h.widen hlo (Nat.le_of_lt hhi), fun hspan => absurd (h.span hspan).2.2 (Nat.not_le_of_lt hhi)⟩

end Piece

/-- Whether some pieces stand between two places. -/
def AllIn (file : Path) (lo hi : Nat) (pieces : List Piece) : Prop :=
  ∀ piece ∈ pieces, piece.In file lo hi

/-- Whether some pieces fit in a form. -/
def AllFit (span : Span) (pieces : List Piece) : Prop := ∀ piece ∈ pieces, piece.Fits span

section

variable {file : Path} {lo lo' hi hi' : Nat} {pieces others : List Piece} {span : Span}

namespace AllIn

theorem nil : AllIn file lo hi [] := nofun

theorem append (h : AllIn file lo hi pieces) (h' : AllIn file lo hi others) :
    AllIn file lo hi (pieces ++ others) := List.forall_mem_append.2 ⟨h, h'⟩

theorem flatMap {α : Type} {things : List α} {parts : α → List Piece}
    (h : ∀ thing ∈ things, AllIn file lo hi (parts thing)) :
    AllIn file lo hi (things.flatMap parts) := by
  intro piece hpiece
  obtain ⟨thing, hthing, hpiece⟩ := List.mem_flatMap.1 hpiece
  exact h thing hthing piece hpiece

theorem map {α : Type} {things : List α} {piece : α → Piece}
    (h : ∀ thing ∈ things, AllIn file lo hi [piece thing]) :
    AllIn file lo hi (things.map piece) := by
  intro found hfound
  obtain ⟨thing, hthing, rfl⟩ := List.mem_map.1 hfound
  exact h thing hthing _ List.mem_cons_self

theorem widen (h : AllIn file lo hi pieces) (hlo : lo' ≤ lo) (hhi : hi ≤ hi') :
    AllIn file lo' hi' pieces := fun piece hpiece => (h piece hpiece).widen hlo hhi

theorem fit_start (h : AllIn file lo' hi' pieces) (hlo : lo < lo') (hhi : hi' ≤ hi) :
    AllFit ⟨file, lo, hi⟩ pieces := fun piece hpiece => (h piece hpiece).fits_start hlo hhi

theorem fit_stop (h : AllIn file lo' hi' pieces) (hlo : lo ≤ lo') (hhi : hi' < hi) :
    AllFit ⟨file, lo, hi⟩ pieces := fun piece hpiece => (h piece hpiece).fits_stop hlo hhi

end AllIn

namespace AllFit

theorem nil : AllFit span [] := nofun

theorem cons {piece : Piece} (h : piece.Fits span) (h' : AllFit span pieces) :
    AllFit span (piece :: pieces) := List.forall_mem_cons.2 ⟨h, h'⟩

theorem append (h : AllFit span pieces) (h' : AllFit span others) :
    AllFit span (pieces ++ others) := List.forall_mem_append.2 ⟨h, h'⟩

theorem allIn (h : AllFit span pieces) : AllIn span.file span.start span.stop pieces :=
  fun piece hpiece => (h piece hpiece).1

/-- What fits in a form fits in one that starts earlier. -/
theorem widen_start (h : AllFit ⟨file, lo, hi⟩ pieces) (hlo : lo' ≤ lo) :
    AllFit ⟨file, lo', hi⟩ pieces := by
  rcases Nat.lt_or_eq_of_le hlo with hlt | rfl
  · exact h.allIn.fit_start hlt (Nat.le_refl _)
  · exact h

end AllFit

/-- Items that stand between two places also stand between places around them. -/
theorem widens_allIn {α : Type} (file : Path) (pieces : α → List Piece) :
    Widens fun lo hi a => AllIn file lo hi (pieces a) := fun _ _ _ _ _ h hlo hhi => h.widen hlo hhi

/-! ### Whole nodes -/

/-- A node whose pieces are in it is laid out well, if what it declares is. -/
theorem AllIn.laid (node : Node)
    (h : AllIn node.span.file node.span.start node.span.stop node.pieces)
    (hproper : node.isExpressionStatement = false → node.span ∉ node.inside)
    (hdeclares : ∀ inner ∈ node.declarations, inner.span.Within node.span ∧
      inner.Laid node.span.file)
    (hnamed : ∀ ident, .name ident ∈ node.pieces → node.span.start < node.span.stop) :
    node.Laid node.span.file := by
  have hinner {inner : Node} (hinner : inner ∈ node.children) :
      inner.span.Within node.span ∧ inner.Laid node.span.file := by
    -- A child is one of the pieces, or something that is declared.
    rcases List.mem_append.1 hinner with hinner | hinner
    · obtain ⟨piece, hpiece, heq⟩ := List.mem_filterMap.1 hinner
      have hin := h piece hpiece
      cases piece with
      | part | function => cases heq; exact hin
      | name | call | stop => cases heq
    · exact hdeclares inner hinner
  refine .of_children ⟨fun mark hmark => ?_, fun inner h => (hinner h).1, fun span hspan => ?_,
    hproper, hnamed⟩ fun inner h => (hinner h).2
  · rcases node.marks_come.cases mark hmark with hplace | hmark
    · rcases List.mem_cons.1 hplace with heq | hplace
      · rw [heq]
      · obtain ⟨inner, hmem, heq⟩ := List.mem_map.1 hplace
        exact heq ▸ (hdeclares inner hmem).1.1
    · obtain ⟨piece, hpiece, hmark⟩ := List.mem_flatMap.1 hmark
      exact (h piece hpiece).marks mark hmark
  · obtain ⟨piece, hpiece, hspan⟩ := List.mem_filterMap.1 hspan
    exact (h piece hpiece).span hspan

/-- A node whose pieces fit in it is laid out well, if what it declares is. -/
theorem AllFit.laid (node : Node) (h : AllFit node.span node.pieces)
    (hdeclares : ∀ inner ∈ node.declarations, inner.span.Within node.span ∧
      inner.Laid node.span.file)
    (hnamed : ∀ ident, .name ident ∈ node.pieces → node.span.start < node.span.stop) :
    node.Laid node.span.file := by
  refine h.allIn.laid node (fun _ hspan => ?_) hdeclares hnamed
  obtain ⟨piece, hpiece, hspan⟩ := List.mem_filterMap.1 hspan
  exact (h piece hpiece).2 hspan

end

/-- The pieces of a node that is laid out well fit in it. -/
theorem Node.Laid.allFit {node : Node} (h : node.Laid file)
    (hstatement : node.isExpressionStatement = false) : AllFit node.span node.pieces := by
  have htidy := h node .self
  intro piece hpiece
  have hchild {inner : Node} (hinner : inner ∈ node.children) :
      inner.span.In node.span.file node.span.start node.span.stop ∧ inner.Laid node.span.file :=
    ⟨htidy.children inner hinner, htidy.file ▸ h.child hinner⟩
  have hspan {span : Span} (hspan : piece.span? = some span) : span ∈ node.inside :=
    List.mem_filterMap.2 ⟨piece, hpiece, hspan⟩
  refine ⟨?_, fun heq => htidy.proper hstatement (hspan heq)⟩
  cases piece with
  | part inner => exact hchild (Node.child_of_part hpiece)
  | function inner => exact hchild (Node.child_of_function hpiece)
  | stop kind span => exact htidy.inside span (hspan rfl)
  | name ident =>
    rw [htidy.file]
    exact htidy.marks _ (Node.marks_of_piece hpiece (List.mem_singleton_self _))
  | call => trivial

/-- An expression with a character is laid out well if its pieces fit in it. -/
theorem Expr.laid_of_fit {e : Expr} (hlt : e.span.start < e.span.stop)
    (h : AllFit e.span e.pieces) :
    (Node.expr e).Laid e.span.file :=
  AllFit.laid (.expr e) h nofun fun _ _ => hlt

/-! ### Covers -/

namespace Cover

/-- Whether the expression of a cover is laid out well from one place to another one. -/
structure Spans (file : Path) (lo hi : Nat) (c : Cover) : Prop where
  start : lo ≤ c.start
  solid : c.start < hi
  stop : c.expr.span.stop = hi
  laid : (Node.expr c.expr).Laid file

variable {file : Path} {lo lo' hi hi' : Nat} {c : Cover}

theorem Spans.of_fit (hspan : c.expr.span = ⟨file, lo, hi⟩) (hlt : lo < hi)
    (h : AllFit ⟨file, lo, hi⟩ c.expr.pieces) : c.Spans file lo hi := by
  have hstart : c.start = lo := congrArg Span.start hspan
  have hlaid := Expr.laid_of_fit (e := c.expr) (by rw [hspan]; exact hlt) (by rw [hspan]; exact h)
  rw [hspan] at hlaid
  exact ⟨Nat.le_of_eq hstart.symm, hstart ▸ hlt, congrArg Span.stop hspan, hlaid⟩

theorem Spans.widen (h : c.Spans file lo hi) (hlo : lo' ≤ lo) : c.Spans file lo' hi :=
  ⟨Nat.le_trans hlo h.start, h.solid, h.stop, h.laid⟩

theorem Spans.span_file (h : c.Spans file lo hi) : c.expr.span.file = file := (h.laid _ .self).file

theorem Spans.piece_in (h : c.Spans file lo hi) (hlo : lo' ≤ c.start) (hhi : hi ≤ hi') :
    c.expr.piece.In file lo' hi' := ⟨⟨h.span_file, hlo, h.stop ▸ hhi⟩, h.laid⟩

theorem Spans.fits_start (h : c.Spans file lo' hi') (hlo : lo < c.start) (hhi : hi' ≤ hi) :
    c.expr.piece.Fits ⟨file, lo, hi⟩ :=
  (h.piece_in (Nat.le_refl _) (Nat.le_refl _)).fits_start hlo hhi

theorem Spans.fits_stop (h : c.Spans file lo' hi') (hlo : lo ≤ c.start) (hhi : hi' < hi) :
    c.expr.piece.Fits ⟨file, lo, hi⟩ :=
  (h.piece_in (Nat.le_refl _) (Nat.le_refl _)).fits_stop hlo hhi

/-- What the expression is between two places. -/
theorem Spans.allIn (h : c.Spans file lo hi) : AllIn file lo hi [c.expr.piece] :=
  List.forall_mem_singleton.2 (h.piece_in h.start (Nat.le_refl _))

end Cover

/-! ### Parsers of expressions -/

/-- Whether an expression is read from the current token up to the last one. -/
def Covers (file : Path) (p : Parse Cover) : Prop := Lays p fun lo hi c => c.Spans file lo hi

/-- Whether a parser appends something to an expression that ends at the last token. -/
def Continues (file : Path) (p : Cover → Parse Cover) : Prop :=
  ∀ st lo left, st.Sound → left.Spans file lo st.lastStop →
    Reaches (p left) st fun c after => st.Before after ∧ c.Spans file lo after.lastStop

section

variable {file : Path} {p : Parse Cover} {q : Cover → Parse Cover}

/-- What is appended after a state from which the expression has been read. -/
theorem Continues.reaches (h : Continues file q) {first st : ParseState} {lo : Nat} {c : Cover}
    (hst : first.Before st) (hc : c.Spans file lo st.lastStop) : Reaches (q c) st fun c after =>
      first.Before after ∧ c.Spans file lo after.lastStop :=
  (h st lo c hst.sound hc).mono fun _ _ ⟨hafter, hc⟩ => ⟨hst.trans hafter, hc⟩

theorem Continues.bind {p : Cover → Parse Cover} (hp : Continues file p) (hq : Continues file q) :
    Continues file fun c => p c >>= q :=
  fun st lo left hst hleft => (hp st lo left hst hleft).bind fun _ _ ⟨hbefore, hc⟩ =>
    hq.reaches hbefore hc

theorem Covers.bind (hp : Covers file p) (hq : Continues file q) : Covers file (p >>= q) :=
  fun st hst => (hp st hst).bind fun _ _ ⟨hbefore, hleft⟩ => hq.reaches hbefore hleft

/-- What is read is between the places where its reading starts and ends. -/
theorem Covers.allIn (h : Covers file p) : Lays p fun lo hi c => AllIn file lo hi [c.expr.piece] :=
  fun st hst => (h st hst).mono fun _ _ ⟨hbefore, hc⟩ => ⟨hbefore, hc.allIn⟩

end

end StaticConfig
