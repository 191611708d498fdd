import StaticConfig.Proofs.Source.Pieces

/-!
# Marks of a tree

What evaluation can look at in a tree beside its shape: the places of the forms in it, and the
names that occur there. `Node.names` are the names that occur anywhere in a node, also as shorthand
members and in the bodies of arrow functions; binding a name is no occurrence of it.

- `Node.marks_of_piece`: what can be looked at in a piece of a node can be looked at in the node.
-/

namespace StaticConfig

/-- A place in a tree, and the name that occurs there if one does. -/
structure Mark where
  span : Span
  name? : Option String

/-- The mark of a form that is no occurrence of a name. -/
def Span.mark (span : Span) : Mark := ⟨span, none⟩

/-- The mark of an occurrence of a name. -/
def Ident.mark (ident : Ident) : Mark := ⟨ident.span, some ident.name⟩

/-- The marks of a parameter; only what is no plain name is ever looked at. -/
def Param.marks : Param → List Mark
  | .name _ => []
  | .pattern span _ => [span.mark]

/-! ### Marks by form -/

mutual

/-- The marks of an expression and of everything in it. -/
def Expr.marks : Expr → List Mark
  | .string span _ | .number span _ | .bool span _ | .null span | .other span _ => [span.mark]
  | .template span _ chunks => span.mark :: marksOfChunks chunks
  | .array span elements => span.mark :: marksOfElements elements
  | .object span members => span.mark :: marksOfMembers members
  | .identifier ident => [ident.mark]
  | .access span target key => span.mark :: (target.marks ++ key.marks)
  | .call span callee args => span.mark :: (callee.marks ++ marksOfArguments args)
  | .arrow span _ params body => span.mark :: (params.flatMap Param.marks ++ body.marks)
  | .conditional span test yes no => span.mark :: (test.marks ++ (yes.marks ++ no.marks))
  | .binary span _ left right => span.mark :: (left.marks ++ right.marks)
  | .unary span _ operand => span.mark :: operand.marks
  | .wrapped span _ inner => span.mark :: inner.marks

def Chunk.marks : Chunk → List Mark
  | .mk e _ => e.marks

def Argument.marks : Argument → List Mark
  | .plain e | .spread e => e.marks

def Element.marks : Element → List Mark
  | .hole => []
  | .item argument => argument.marks

def Member.marks : Member → List Mark
  | .entry key e => key.marks ++ e.marks
  | .shorthand ident => [ident.mark]
  | .spread e => e.marks
  | .other span _ => [span.mark]

def PropertyKey.marks : PropertyKey → List Mark
  | .fixed _ | .number _ => []
  | .computed e => e.marks
  | .bigInt span => [span.mark]

def AccessKey.marks : AccessKey → List Mark
  | .name _ => []
  | .computed e => e.marks
  | .hidden span => [span.mark]

def Callee.marks : Callee → List Mark
  | .value e => e.marks
  | .super | .module => []

def ArrowBody.marks : ArrowBody → List Mark
  | .value e => e.marks
  | .block statements => marksOfStatements statements

/-- The marks of a statement and of everything in it. -/
def Stmt.marks : Stmt → List Mark
  | .block span statements => span.mark :: marksOfStatements statements
  | .empty span | .declaration span _ _ | .other span _ => [span.mark]
  | .result span value => span.mark :: marksOfInit value
  | .expression span e => span.mark :: e.marks
  | .switch span discriminant clauses =>
    span.mark :: (discriminant.marks ++ marksOfClauses clauses)
  | .declares span declarators => span.mark :: marksOfDeclarators declarators

def Clause.marks : Clause → List Mark
  | .mk test body => marksOfInit test ++ marksOfStatements body

def Declarator.marks : Declarator → List Mark
  | .mk span _ init => span.mark :: marksOfInit init

def marksOfInit : Option Expr → List Mark
  | none => []
  | some e => e.marks

def marksOfChunks : List Chunk → List Mark
  | [] => []
  | chunk :: rest => chunk.marks ++ marksOfChunks rest

def marksOfElements : List Element → List Mark
  | [] => []
  | element :: rest => element.marks ++ marksOfElements rest

def marksOfMembers : List Member → List Mark
  | [] => []
  | member :: rest => member.marks ++ marksOfMembers rest

def marksOfArguments : List Argument → List Mark
  | [] => []
  | argument :: rest => argument.marks ++ marksOfArguments rest

def marksOfStatements : List Stmt → List Mark
  | [] => []
  | statement :: rest => statement.marks ++ marksOfStatements rest

def marksOfClauses : List Clause → List Mark
  | [] => []
  | clause :: rest => clause.marks ++ marksOfClauses rest

def marksOfDeclarators : List Declarator → List Mark
  | [] => []
  | declarator :: rest => declarator.marks ++ marksOfDeclarators rest

end

/-! ### Marks of sequences -/

theorem marksOfChunks_eq (chunks : List Chunk) :
    marksOfChunks chunks = chunks.flatMap Chunk.marks := by
  induction chunks with
  | nil => rfl
  | cons chunk rest ih => rw [marksOfChunks, ih, List.flatMap_cons]

theorem marksOfElements_eq (elements : List Element) :
    marksOfElements elements = elements.flatMap Element.marks := by
  induction elements with
  | nil => rfl
  | cons element rest ih => rw [marksOfElements, ih, List.flatMap_cons]

theorem marksOfMembers_eq (members : List Member) :
    marksOfMembers members = members.flatMap Member.marks := by
  induction members with
  | nil => rfl
  | cons member rest ih => rw [marksOfMembers, ih, List.flatMap_cons]

theorem marksOfArguments_eq (arguments : List Argument) :
    marksOfArguments arguments = arguments.flatMap Argument.marks := by
  induction arguments with
  | nil => rfl
  | cons argument rest ih => rw [marksOfArguments, ih, List.flatMap_cons]

theorem marksOfStatements_eq (statements : List Stmt) :
    marksOfStatements statements = statements.flatMap Stmt.marks := by
  induction statements with
  | nil => rfl
  | cons statement rest ih => rw [marksOfStatements, ih, List.flatMap_cons]

theorem marksOfClauses_eq (clauses : List Clause) :
    marksOfClauses clauses = clauses.flatMap Clause.marks := by
  induction clauses with
  | nil => rfl
  | cons clause rest ih => rw [marksOfClauses, ih, List.flatMap_cons]

theorem marksOfDeclarators_eq (declarators : List Declarator) :
    marksOfDeclarators declarators = declarators.flatMap Declarator.marks := by
  induction declarators with
  | nil => rfl
  | cons declarator rest ih => rw [marksOfDeclarators, ih, List.flatMap_cons]

/-! ### Nodes -/

/-- The marks of a node and of everything in it. -/
def Node.marks : Node → List Mark
  | .expr e => e.marks
  | .stmt s => s.marks
  | .declares span declarators => span.mark :: marksOfDeclarators declarators
  | .declarator d => d.marks
  | .body span b => span.mark :: b.marks
  | .unevaluable span _ => [span.mark]

/-- The names that occur in a node. -/
def Node.names (node : Node) : List String := node.marks.filterMap Mark.name?

/-- The marks of an arrow function as written: its place and its body. -/
def ArrowCode.marks (code : ArrowCode) : List Mark := (Node.body code.span code.body).marks

theorem mem_names {node : Node} {name : String} :
    name ∈ node.names ↔ ∃ mark ∈ node.marks, mark.name? = some name :=
  List.mem_filterMap

/-- The place of a node is one of its marks. -/
theorem exists_mark_of_span (node : Node) : ∃ name?, Mark.mk node.span name? ∈ node.marks := by
  cases node with
  | expr e => cases e <;> exact ⟨_, List.mem_cons_self⟩
  | stmt s => cases s <;> exact ⟨_, List.mem_cons_self⟩
  | declarator d => cases d; exact ⟨_, List.mem_cons_self⟩
  | declares | body | unevaluable => exact ⟨_, List.mem_cons_self⟩

/-! ### Pieces -/

/-- The marks of a piece. A call has none: what is called comes from a piece of its own. -/
def Piece.marks : Piece → List Mark
  | part node | function node => node.marks
  | name ident => [ident.mark]
  | call => []
  | stop _ span => [span.mark]

/-- The marks of the pieces of several things, if all marks of each are those of its pieces. -/
theorem flatMap_marks_eq {α : Type} {marks : α → List Mark} {pieces : α → List Piece}
    (h : ∀ thing, marks thing = (pieces thing).flatMap Piece.marks) (things : List α) :
    things.flatMap marks = (things.flatMap pieces).flatMap Piece.marks := by
  rw [List.flatMap_assoc]
  exact congrArg things.flatMap (funext h)

theorem Expr.marks_eq_piece (e : Expr) : e.marks = [e.piece].flatMap Piece.marks :=
  (List.append_nil _).symm

theorem marksOfInit_eq (init : Option Expr) :
    marksOfInit init = (piecesOfInit init).flatMap Piece.marks := by
  cases init with
  | none => rfl
  | some e => exact e.marks_eq_piece

theorem marksOfStatements_eq_pieces (statements : List Stmt) :
    marksOfStatements statements = (statements.map Stmt.piece).flatMap Piece.marks := by
  rw [marksOfStatements_eq, List.flatMap_map]
  rfl

theorem Chunk.marks_eq (chunk : Chunk) : chunk.marks = chunk.pieces.flatMap Piece.marks := by
  cases chunk
  exact Expr.marks_eq_piece _

theorem Argument.marks_eq (argument : Argument) :
    argument.marks = argument.pieces.flatMap Piece.marks := by
  cases argument <;> exact Expr.marks_eq_piece _

theorem Element.marks_eq (element : Element) :
    element.marks = element.pieces.flatMap Piece.marks := by
  cases element with
  | hole => rfl
  | item argument => exact argument.marks_eq

theorem PropertyKey.marks_eq (key : PropertyKey) :
    key.marks = key.pieces.flatMap Piece.marks := by
  cases key with
  | fixed | number | bigInt => rfl
  | computed e => exact e.marks_eq_piece

theorem Member.marks_eq (member : Member) : member.marks = member.pieces.flatMap Piece.marks := by
  cases member with
  | entry key e => rw [marks, pieces, List.flatMap_append, ← key.marks_eq, ← e.marks_eq_piece]
  | shorthand | other => rfl
  | spread e => exact e.marks_eq_piece

theorem AccessKey.marks_eq (key : AccessKey) : key.marks = key.pieces.flatMap Piece.marks := by
  cases key with
  | name | hidden => rfl
  | computed e => exact e.marks_eq_piece

theorem Callee.marks_eq (callee : Callee) : callee.marks = callee.pieces.flatMap Piece.marks := by
  cases callee with
  | super | module => rfl
  | value e => exact e.marks_eq_piece

theorem Param.marks_eq (param : Param) : param.marks = param.pieces.flatMap Piece.marks := by
  cases param <;> rfl

theorem ArrowBody.marks_eq (body : ArrowBody) : body.marks = body.pieces.flatMap Piece.marks := by
  cases body with
  | value e => exact e.marks_eq_piece
  | block statements => exact marksOfStatements_eq_pieces statements

theorem Clause.marks_eq (clause : Clause) : clause.marks = clause.pieces.flatMap Piece.marks := by
  obtain ⟨test, body⟩ := clause
  rw [marks, pieces, List.flatMap_append, ← marksOfInit_eq, ← marksOfStatements_eq_pieces]

/-! ### Forms and their pieces -/

/-- Whether some marks are those of some pieces, and else stand in these places. -/
structure Mark.Come (places : List Span) (pieces : List Piece) (marks : List Mark) : Prop where
  of_pieces : pieces.flatMap Piece.marks ⊆ marks
  cases : ∀ mark ∈ marks, mark.span ∈ places ∨ mark ∈ pieces.flatMap Piece.marks

namespace Mark.Come

variable {places : List Span} {pieces : List Piece} {marks : List Mark} {span : Span}

/-- The marks of a form with a place of its own. -/
theorem of_eq (h : marks = pieces.flatMap Piece.marks) :
    Come [span] pieces (span.mark :: marks) where
  of_pieces := h ▸ List.subset_cons_self _ _
  cases _ hmark := (List.mem_cons.1 hmark).imp
    (fun heq => List.mem_singleton.2 (congrArg Mark.span heq)) fun hmark => h ▸ hmark

/-- The marks of a form that has no mark besides those of its pieces. -/
theorem of_perm (h : marks.Perm (pieces.flatMap Piece.marks)) : Come places pieces marks where
  of_pieces := h.symm.subset
  cases _ hmark := .inr (h.subset hmark)

theorem widen {more : List Span} (h : Come places pieces marks) (hsub : places ⊆ more) :
    Come more pieces marks where
  of_pieces := h.of_pieces
  cases mark hmark := (h.cases mark hmark).imp_left fun hmem => hsub hmem

/-- The variables of a statement have places too. -/
theorem declarators (span : Span) (declarators : List Declarator) :
    Come (span :: declarators.map Declarator.span) (declarators.flatMap Declarator.pieces)
      (span.mark :: marksOfDeclarators declarators) := by
  rw [marksOfDeclarators_eq]
  constructor
  · intro mark hmark
    obtain ⟨piece, hpiece, hmark⟩ := List.mem_flatMap.1 hmark
    obtain ⟨⟨own, name?, init⟩, hmem, hpiece⟩ := List.mem_flatMap.1 hpiece
    refine List.mem_cons_of_mem _ (List.mem_flatMap_of_mem hmem (List.mem_cons_of_mem _ ?_))
    rw [marksOfInit_eq]
    exact List.mem_flatMap_of_mem hpiece hmark
  · intro mark hmark
    rcases List.mem_cons.1 hmark with rfl | hmark
    · exact .inl List.mem_cons_self
    · obtain ⟨⟨own, name?, init⟩, hmem, hmark⟩ := List.mem_flatMap.1 hmark
      rcases List.mem_cons.1 hmark with rfl | hmark
      · exact .inl (List.mem_cons_of_mem _ (List.mem_map_of_mem hmem))
      · rw [marksOfInit_eq] at hmark
        obtain ⟨piece, hpiece, hmark⟩ := List.mem_flatMap.1 hmark
        exact .inr (List.mem_flatMap_of_mem (List.mem_flatMap_of_mem hmem hpiece) hmark)

end Mark.Come

theorem Expr.marks_come (e : Expr) : Mark.Come [e.span] e.pieces e.marks := by
  cases e with
  | string | number | bool | null | other => exact .of_eq rfl
  | template span head chunks =>
    exact .of_eq ((marksOfChunks_eq chunks).trans (flatMap_marks_eq Chunk.marks_eq chunks))
  | array span elements =>
    exact .of_eq ((marksOfElements_eq elements).trans (flatMap_marks_eq Element.marks_eq elements))
  | object span members =>
    exact .of_eq ((marksOfMembers_eq members).trans (flatMap_marks_eq Member.marks_eq members))
  | identifier ident => exact .of_perm (.refl _)
  | access span target key =>
    refine .of_eq ?_
    rw [key.marks_eq]
    rfl
  | call span callee args =>
    refine .of_eq ?_
    rw [callee.marks_eq, marksOfArguments_eq, flatMap_marks_eq Argument.marks_eq, pieces,
      List.flatMap_append]
  | arrow span isAsync params body =>
    -- The place of the function is that of its body.
    refine .of_perm ?_
    rw [marks, flatMap_marks_eq Param.marks_eq]
    exact List.perm_append_comm.cons _
  | conditional span test yes no =>
    refine .of_eq ?_
    rw [no.marks_eq_piece]
    rfl
  | binary span op left right =>
    refine .of_eq ?_
    rw [right.marks_eq_piece]
    rfl
  | unary span op operand => exact .of_eq operand.marks_eq_piece
  | wrapped span wrapper inner => exact .of_eq inner.marks_eq_piece

theorem Stmt.marks_come (s : Stmt) :
    Mark.Come (s.span :: (Node.stmt s).declarations.map Node.span) s.pieces s.marks := by
  cases s with
  | empty | other => exact .of_eq rfl
  | declaration => exact (Mark.Come.of_eq rfl).widen (List.cons_subset_cons _ (List.nil_subset _))
  | block span inner => exact .of_eq (marksOfStatements_eq_pieces inner)
  | result span value => exact .of_eq (marksOfInit_eq value)
  | expression span e => exact .of_eq e.marks_eq_piece
  | switch span discriminant clauses =>
    refine .of_eq ?_
    rw [marksOfClauses_eq, flatMap_marks_eq Clause.marks_eq]
    rfl
  | declares span declarators =>
    refine (Mark.Come.declarators span declarators).widen ?_
    rw [Node.declarations, List.map_cons, List.map_map]
    exact List.subset_cons_self _ _

/-- The marks of a node are those of its pieces, its own and those of what it declares. -/
theorem Node.marks_come (node : Node) :
    Mark.Come (node.span :: node.declarations.map Node.span) node.pieces node.marks := by
  cases node with
  | expr e => exact e.marks_come
  | stmt s => exact s.marks_come
  | declares span declarators =>
    refine (Mark.Come.declarators span declarators).widen ?_
    rw [declarations, List.map_map]
    exact List.Subset.refl _
  | declarator d =>
    obtain ⟨span, name?, init⟩ := d
    exact .of_eq (marksOfInit_eq init)
  | body span b => exact .of_eq b.marks_eq
  | unevaluable => exact .of_eq rfl

/-- What can be looked at in a piece of a node can be looked at in the node. -/
theorem Node.marks_of_piece {node : Node} {piece : Piece} (h : piece ∈ node.pieces) :
    piece.marks ⊆ node.marks :=
  fun _ hmark => node.marks_come.of_pieces (List.mem_flatMap.2 ⟨piece, h, hmark⟩)

/-- A form at which the evaluation of a node may stop stands in it. -/
theorem Node.exists_mark_of_rejects {node : Node} {kind : Kind} {span : Span}
    (h : node.Rejects kind span) : ∃ name?, Mark.mk span name? ∈ node.marks := by
  unfold Rejects at h
  split at h
  · rw [h.2]
    exact exists_mark_of_span node
  · exact ⟨none, Node.marks_of_piece h (List.mem_singleton_self _)⟩

end StaticConfig
