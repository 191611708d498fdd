import StaticConfig.Value.Basic

/-!
# The pieces of a form

What evaluation may come across in a node without going into a step of its own: the steps that it
takes from there, the names that it looks up, the functions that it keeps, and the forms at which it
stops. Everything is listed that may come up in some run, so a run may well leave pieces out.

- `Node.pieces`: the pieces of a node, by form;
- `Node.rejection?`: whether the node itself is a form at which evaluation stops;
- `Node.Rejects`: the forms, the node or pieces of it, at which its evaluation may stop;
- `Node.inside`: the places of the forms directly inside a node;
- `Node.children`, `Node.Holds`: the nodes directly inside a node, and at any depth;
- `ModuleItem.nodes`: the outermost nodes of a top-level item.
-/

namespace StaticConfig

/-! ### Places in places -/

namespace Span

/-- Whether a place lies in another one. -/
def Within (inner outer : Span) : Prop :=
  inner.file = outer.file ∧ outer.start ≤ inner.start ∧ inner.stop ≤ outer.stop

instance (inner outer : Span) : Decidable (inner.Within outer) :=
  inferInstanceAs (Decidable (_ ∧ _ ∧ _))

/-- Whether a place lies in another one and leaves some of it out. -/
def ProperlyWithin (inner outer : Span) : Prop := inner.Within outer ∧ inner ≠ outer

instance (inner outer : Span) : Decidable (inner.ProperlyWithin outer) :=
  inferInstanceAs (Decidable (_ ∧ _))

variable {inner between outer : Span}

theorem within_refl (span : Span) : span.Within span := ⟨rfl, Nat.le_refl _, Nat.le_refl _⟩

theorem Within.trans (h : inner.Within between) (h' : between.Within outer) :
    inner.Within outer :=
  ⟨h.1.trans h'.1, Nat.le_trans h'.2.1 h.2.1, Nat.le_trans h.2.2 h'.2.2⟩

end Span

/-! ### Pieces by form -/

/-- What evaluation may come across in a node. -/
inductive Piece
  /-- A form that is evaluated as a step of its own, in the scope of the node. -/
  | part (node : Node)
  /-- A name that is looked up. -/
  | name (ident : Ident)
  /-- The body of a function that is kept. -/
  | function (body : Node)
  /-- A call of whatever function the callee comes to. -/
  | call
  /-- A form inside at which evaluation stops. -/
  | stop (kind : Kind) (span : Span)

/-- An expression as a piece. -/
def Expr.piece (e : Expr) : Piece := .part (.expr e)

/-- A statement as a piece. -/
def Stmt.piece (s : Stmt) : Piece := .part (.stmt s)

/-- The piece that an optional expression is. -/
def piecesOfInit (init : Option Expr) : List Piece := init.toList.map Expr.piece

def Chunk.pieces : Chunk → List Piece
  | .mk e _ => [e.piece]

def Argument.pieces : Argument → List Piece
  | .plain e | .spread e => [e.piece]

def Element.pieces : Element → List Piece
  | .hole => []
  | .item argument => argument.pieces

def PropertyKey.pieces : PropertyKey → List Piece
  | .fixed _ | .number _ => []
  | .computed e => [e.piece]
  | .bigInt span => [.stop .bigIntLiteral span]

def Member.pieces : Member → List Piece
  | .entry key e => key.pieces ++ [e.piece]
  | .shorthand ident => [.name ident]
  | .spread e => [e.piece]
  | .other span kind => [.stop kind span]

def AccessKey.pieces : AccessKey → List Piece
  | .name _ => []
  | .computed e => [e.piece]
  | .hidden span => [.stop .privateIdentifier span]

def Callee.pieces : Callee → List Piece
  | .value e => [.call, e.piece]
  | .super | .module => []

def Param.pieces : Param → List Piece
  | .name _ => []
  | .pattern span kind => [.stop kind span]

def ArrowBody.pieces : ArrowBody → List Piece
  | .value e => [e.piece]
  | .block statements => statements.map Stmt.piece

def Clause.pieces : Clause → List Piece
  | .mk test body => piecesOfInit test ++ body.map Stmt.piece

def Declarator.pieces (d : Declarator) : List Piece := piecesOfInit d.init?

def Expr.pieces : Expr → List Piece
  | .string .. | .number .. | .bool .. | .null _ | .other .. => []
  | .template _ _ chunks => chunks.flatMap Chunk.pieces
  | .array _ elements => elements.flatMap Element.pieces
  | .object _ members => members.flatMap Member.pieces
  | .identifier ident => [.name ident]
  | .access _ target key => target.piece :: key.pieces
  | .call _ callee args => callee.pieces ++ args.flatMap Argument.pieces
  | .arrow span _ params body => .function (.body span body) :: params.flatMap Param.pieces
  | .conditional _ test yes no => [test.piece, yes.piece, no.piece]
  | .binary _ _ left right => [left.piece, right.piece]
  | .unary _ _ operand => [operand.piece]
  | .wrapped _ _ inner => [inner.piece]

def Stmt.pieces : Stmt → List Piece
  | .empty _ | .declaration .. | .other .. => []
  | .block _ statements => statements.map Stmt.piece
  | .result _ value => piecesOfInit value
  | .expression _ e => [e.piece]
  | .switch _ discriminant clauses => discriminant.piece :: clauses.flatMap Clause.pieces
  | .declares _ declarators => declarators.flatMap Declarator.pieces

namespace Node

/-- The pieces of a node. -/
def pieces : Node → List Piece
  | expr e => e.pieces
  | stmt s => s.pieces
  | declares _ declarators => declarators.flatMap Declarator.pieces
  | declarator d => d.pieces
  | body _ b => b.pieces
  | unevaluable .. => []

/-! ### Where evaluation stops -/

/-- The kind of form as which the node as a whole stops evaluation, if it does. -/
def rejection? : Node → Option Kind
  | expr (.other _ kind) => some kind
  | expr (.call _ .super _) => some .superCall
  | expr (.call _ .module _) => some .importCall
  | expr (.arrow _ true _ _) => some .asyncArrowFunction
  | stmt (.declaration _ kind _) | stmt (.other _ kind) => some kind
  | unevaluable _ kind => some kind
  | _ => none

/-- Whether the evaluation of the node may stop at this form: the node as a whole, if that is no
form to be evaluated, and else a piece of it. -/
def Rejects (node : Node) (kind : Kind) (span : Span) : Prop :=
  match node.rejection? with
  | some whole => kind = whole ∧ span = node.span
  | none => .stop kind span ∈ node.pieces

theorem rejects_of_rejection? {node : Node} {kind : Kind} (h : node.rejection? = some kind) :
    node.Rejects kind node.span := by
  unfold Rejects
  rw [h]
  exact ⟨rfl, rfl⟩

theorem rejects_of_stop {node : Node} {kind : Kind} {span : Span} (h : node.rejection? = none)
    (hstop : .stop kind span ∈ node.pieces) : node.Rejects kind span := by
  unfold Rejects
  rw [h]
  exact hstop

end Node

/-! ### The forms inside -/

/-- The place of a form inside. A name has the place of the form in which it is looked up, and a
function that of the form that makes it. -/
def Piece.span? : Piece → Option Span
  | part node => some node.span
  | stop _ span => some span
  | name _ | function _ | call => none

/-- The places of the forms directly inside a node. -/
def Node.inside (node : Node) : List Span := node.pieces.filterMap Piece.span?

theorem Node.span_mem_inside {node inner : Node} (h : .part inner ∈ node.pieces) :
    inner.span ∈ node.inside := List.mem_filterMap.2 ⟨_, h, rfl⟩

theorem Node.stop_mem_inside {node : Node} {kind : Kind} {span : Span}
    (h : .stop kind span ∈ node.pieces) : span ∈ node.inside := List.mem_filterMap.2 ⟨_, h, rfl⟩

/-! ### Nodes in nodes -/

/-- The node that a piece is. -/
def Piece.node? : Piece → Option Node
  | part node | function node => some node
  | name _ | call | stop .. => none

namespace Node

/-- What a node declares: its variables, and what has no value in the sub-language. -/
def declarations : Node → List Node
  | stmt (.declares span declarators) => .declares span declarators :: declarators.map .declarator
  | declares _ declarators => declarators.map .declarator
  | stmt (.declaration span kind _) => [.unevaluable span kind]
  | _ => []

/-- The nodes directly inside a node. -/
def children (node : Node) : List Node := node.pieces.filterMap Piece.node? ++ node.declarations

/-- Whether a node is the other one or stands in it. -/
inductive Holds (root : Node) : Node → Prop
  | self : Holds root root
  | child {node inner : Node} : Holds root node → inner ∈ node.children → Holds root inner

/-- Whether the node is an expression that stands as a statement. -/
def isExpressionStatement : Node → Bool
  | stmt (.expression ..) => true
  | _ => false

theorem child_of_part {node inner : Node} (h : .part inner ∈ node.pieces) :
    inner ∈ node.children :=
  List.mem_append_left _ (List.mem_filterMap.2 ⟨_, h, rfl⟩)

theorem child_of_function {node body : Node} (h : .function body ∈ node.pieces) :
    body ∈ node.children :=
  List.mem_append_left _ (List.mem_filterMap.2 ⟨_, h, rfl⟩)

theorem child_of_declaration {node inner : Node} (h : inner ∈ node.declarations) :
    inner ∈ node.children := List.mem_append_right _ h

end Node

/-! ### Nodes in modules -/

def ImportSpecifier.nodes : ImportSpecifier → List Node
  | .star span _ => [.unevaluable span .namespaceImport]
  | .named .. | .defaultExport _ => []

def ExportSpecifier.nodes : ExportSpecifier → List Node
  | .star span _ => [.unevaluable span .namespaceExport]
  | .named .. => []

namespace ModuleItem

/-- The nodes of a top-level item that stand in no other node. -/
def nodes : ModuleItem → List Node
  | statement s | exported s => [.stmt s]
  | imports _ _ specifiers => specifiers.flatMap ImportSpecifier.nodes
  | exports _ _ specifiers => specifiers.flatMap ExportSpecifier.nodes
  | defaultValue value => [.expr value]
  | defaultDeclaration span => [.unevaluable span .defaultDeclaration]
  | exportAll .. | other => []

/-- What a name may refer to in a top-level item. -/
def declarations : ModuleItem → List Node
  | statement s | exported s => (Node.stmt s).declarations
  | item => item.nodes

/-- What a name may refer to in an item stands in one of its nodes. -/
theorem exists_root_of_mem_declarations {item : ModuleItem} {inner : Node}
    (h : inner ∈ item.declarations) : ∃ root ∈ item.nodes, root.Holds inner := by
  cases item with
  | statement s | exported s =>
    exact ⟨.stmt s, List.mem_cons_self, Node.Holds.self.child (Node.child_of_declaration h)⟩
  | imports | exports | defaultValue | defaultDeclaration | exportAll | other =>
    exact ⟨inner, h, .self⟩

end ModuleItem

end StaticConfig
