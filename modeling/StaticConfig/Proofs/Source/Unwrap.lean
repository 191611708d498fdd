import StaticConfig.Source.Tree

/-!
# Trees without wrappers

Parentheses and the type wrappers stand around an expression without changing its value.
`Expr.unwrap drop` is an expression in which every wrapper that `drop` picks has given way to the
expression inside it, at any depth: also in bodies of arrow functions, clauses of a switch and
computed keys. Nothing else in the tree changes, and no form moves to another place.

- `Node.unwrap_none`: if no wrapper is picked, the tree stays as it is.
-/

namespace StaticConfig

/-! ### Unwrapping by form -/

section

variable (drop : Wrapper → Bool)

mutual

/-- The expression without the wrappers that `drop` picks. -/
def Expr.unwrap : Expr → Expr
  | .string span value => .string span value
  | .number span value => .number span value
  | .bool span value => .bool span value
  | .null span => .null span
  | .template span head chunks => .template span head (unwrapChunks chunks)
  | .array span elements => .array span (unwrapElements elements)
  | .object span members => .object span (unwrapMembers members)
  | .identifier ident => .identifier ident
  | .access span target key => .access span target.unwrap key.unwrap
  | .call span callee args => .call span callee.unwrap (unwrapArguments args)
  | .arrow span isAsync params body => .arrow span isAsync params body.unwrap
  | .conditional span test yes no => .conditional span test.unwrap yes.unwrap no.unwrap
  | .binary span op left right => .binary span op left.unwrap right.unwrap
  | .unary span op operand => .unary span op operand.unwrap
  | .wrapped span wrapper inner =>
    if drop wrapper then inner.unwrap else .wrapped span wrapper inner.unwrap
  | .other span kind => .other span kind

def Chunk.unwrap : Chunk → Chunk
  | .mk e text => .mk e.unwrap text

def Argument.unwrap : Argument → Argument
  | .plain e => .plain e.unwrap
  | .spread e => .spread e.unwrap

def Element.unwrap : Element → Element
  | .hole => .hole
  | .item argument => .item argument.unwrap

def Member.unwrap : Member → Member
  | .entry key e => .entry key.unwrap e.unwrap
  | .shorthand ident => .shorthand ident
  | .spread e => .spread e.unwrap
  | .other span kind => .other span kind

def PropertyKey.unwrap : PropertyKey → PropertyKey
  | .fixed name => .fixed name
  | .number value => .number value
  | .computed key => .computed key.unwrap
  | .bigInt span => .bigInt span

def AccessKey.unwrap : AccessKey → AccessKey
  | .name name => .name name
  | .computed key => .computed key.unwrap
  | .hidden span => .hidden span

def Callee.unwrap : Callee → Callee
  | .value e => .value e.unwrap
  | .super => .super
  | .module => .module

/-- The body of an arrow function without the wrappers that `drop` picks. -/
def ArrowBody.unwrap : ArrowBody → ArrowBody
  | .value e => .value e.unwrap
  | .block statements => .block (unwrapStatements statements)

/-- The statement without the wrappers that `drop` picks. -/
def Stmt.unwrap : Stmt → Stmt
  | .block span statements => .block span (unwrapStatements statements)
  | .empty span => .empty span
  | .result span value => .result span (unwrapInit value)
  | .expression span e => .expression span e.unwrap
  | .switch span discriminant clauses =>
    .switch span discriminant.unwrap (unwrapClauses clauses)
  | .declares span declarators => .declares span (unwrapDeclarators declarators)
  | .declaration span kind binds => .declaration span kind binds
  | .other span kind => .other span kind

def Clause.unwrap : Clause → Clause
  | .mk test body => .mk (unwrapInit test) (unwrapStatements body)

/-- The variable without the wrappers that `drop` picks in its initializer. -/
def Declarator.unwrap : Declarator → Declarator
  | .mk span name init => .mk span name (unwrapInit init)

def unwrapInit : Option Expr → Option Expr
  | none => none
  | some e => some e.unwrap

def unwrapChunks : List Chunk → List Chunk
  | [] => []
  | chunk :: rest => chunk.unwrap :: unwrapChunks rest

def unwrapElements : List Element → List Element
  | [] => []
  | element :: rest => element.unwrap :: unwrapElements rest

def unwrapMembers : List Member → List Member
  | [] => []
  | member :: rest => member.unwrap :: unwrapMembers rest

def unwrapArguments : List Argument → List Argument
  | [] => []
  | argument :: rest => argument.unwrap :: unwrapArguments rest

def unwrapStatements : List Stmt → List Stmt
  | [] => []
  | statement :: rest => statement.unwrap :: unwrapStatements rest

def unwrapClauses : List Clause → List Clause
  | [] => []
  | clause :: rest => clause.unwrap :: unwrapClauses rest

def unwrapDeclarators : List Declarator → List Declarator
  | [] => []
  | declarator :: rest => declarator.unwrap :: unwrapDeclarators rest

end

/-! ### Sequences -/

theorem unwrapElements_eq (elements : List Element) :
    unwrapElements drop elements = elements.map (Element.unwrap drop) := by
  induction elements with
  | nil => rfl
  | cons element rest ih => rw [unwrapElements, ih, List.map_cons]

theorem unwrapMembers_eq (members : List Member) :
    unwrapMembers drop members = members.map (Member.unwrap drop) := by
  induction members with
  | nil => rfl
  | cons member rest ih => rw [unwrapMembers, ih, List.map_cons]

theorem unwrapArguments_eq (arguments : List Argument) :
    unwrapArguments drop arguments = arguments.map (Argument.unwrap drop) := by
  induction arguments with
  | nil => rfl
  | cons argument rest ih => rw [unwrapArguments, ih, List.map_cons]

theorem unwrapStatements_eq (statements : List Stmt) :
    unwrapStatements drop statements = statements.map (Stmt.unwrap drop) := by
  induction statements with
  | nil => rfl
  | cons statement rest ih => rw [unwrapStatements, ih, List.map_cons]

theorem unwrapDeclarators_eq (declarators : List Declarator) :
    unwrapDeclarators drop declarators = declarators.map (Declarator.unwrap drop) := by
  induction declarators with
  | nil => rfl
  | cons declarator rest ih => rw [unwrapDeclarators, ih, List.map_cons]

/-! ### Nodes and modules -/

/-- The node without the wrappers that `drop` picks. -/
def Node.unwrap : Node → Node
  | .expr e => .expr (e.unwrap drop)
  | .stmt s => .stmt (s.unwrap drop)
  | .declares span declarators => .declares span (declarators.map (Declarator.unwrap drop))
  | .declarator d => .declarator (d.unwrap drop)
  | .body span b => .body span (b.unwrap drop)
  | .unevaluable span kind => .unevaluable span kind

/-- The item without the wrappers that `drop` picks. -/
def ModuleItem.unwrap : ModuleItem → ModuleItem
  | .statement s => .statement (s.unwrap drop)
  | .exported s => .exported (s.unwrap drop)
  | .imports typeOnly source specifiers => .imports typeOnly source specifiers
  | .exports typeOnly source specifiers => .exports typeOnly source specifiers
  | .exportAll typeOnly source => .exportAll typeOnly source
  | .defaultValue e => .defaultValue (e.unwrap drop)
  | .defaultDeclaration span => .defaultDeclaration span
  | .other => .other

/-- The module without the wrappers that `drop` picks. -/
def Module.unwrap (m : Module) : Module := ⟨m.items.map (ModuleItem.unwrap drop)⟩

/-! ### What is at the top -/

variable {drop}

/-- A wrapper that is picked leaves what is in it. -/
theorem Expr.unwrap_wrapped {wrapper : Wrapper} (hdrop : drop wrapper = true) (span : Span)
    (inner : Expr) : (Expr.wrapped span wrapper inner).unwrap drop = inner.unwrap drop := by
  rw [Expr.unwrap, if_pos hdrop]

theorem Expr.span_unwrap {e : Expr}
    (hkept : ∀ {span wrapper inner}, e = .wrapped span wrapper inner → drop wrapper = false) :
    (e.unwrap drop).span = e.span := by
  cases e with
  | wrapped =>
    rw [Expr.unwrap, hkept rfl]
    rfl
  | _ => rfl

/-- Anything else stays where it is. -/
theorem Node.span_unwrap {node : Node}
    (hkept : ∀ {span wrapper inner}, node = .expr (.wrapped span wrapper inner) →
      drop wrapper = false) :
    (node.unwrap drop).span = node.span := by
  cases node with
  | expr e => exact Expr.span_unwrap fun heq => hkept (congrArg _ heq)
  | stmt s => cases s <;> rfl
  | declarator d => cases d; rfl
  | declares | body | unevaluable => rfl

end

/-! ### Nothing to unwrap -/

mutual

theorem Expr.unwrap_none (e : Expr) : e.unwrap (fun _ => false) = e := by
  cases e with
  | template _ _ chunks => simp only [Expr.unwrap, unwrapChunks_none chunks]
  | array _ elements => simp only [Expr.unwrap, unwrapElements_none elements]
  | object _ members => simp only [Expr.unwrap, unwrapMembers_none members]
  | access _ target key => simp only [Expr.unwrap, target.unwrap_none, key.unwrap_none]
  | call _ callee args => simp only [Expr.unwrap, callee.unwrap_none, unwrapArguments_none args]
  | arrow _ _ _ body => simp only [Expr.unwrap, body.unwrap_none]
  | conditional _ test yes no =>
    simp only [Expr.unwrap, test.unwrap_none, yes.unwrap_none, no.unwrap_none]
  | binary _ _ left right => simp only [Expr.unwrap, left.unwrap_none, right.unwrap_none]
  | unary _ _ operand => simp only [Expr.unwrap, operand.unwrap_none]
  | wrapped _ _ inner => simp only [Expr.unwrap, inner.unwrap_none, Bool.false_eq_true, if_false]
  | string | number | bool | null | identifier | other => rfl

theorem Chunk.unwrap_none (chunk : Chunk) : chunk.unwrap (fun _ => false) = chunk := by
  obtain ⟨e, text⟩ := chunk
  rw [Chunk.unwrap, e.unwrap_none]

theorem Argument.unwrap_none (argument : Argument) :
    argument.unwrap (fun _ => false) = argument := by
  cases argument with
  | plain e => rw [Argument.unwrap, e.unwrap_none]
  | spread e => rw [Argument.unwrap, e.unwrap_none]

theorem Element.unwrap_none (element : Element) : element.unwrap (fun _ => false) = element := by
  cases element with
  | hole => rfl
  | item argument => rw [Element.unwrap, argument.unwrap_none]

theorem Member.unwrap_none (member : Member) : member.unwrap (fun _ => false) = member := by
  cases member with
  | entry key e => rw [Member.unwrap, key.unwrap_none, e.unwrap_none]
  | spread e => rw [Member.unwrap, e.unwrap_none]
  | shorthand | other => rfl

theorem PropertyKey.unwrap_none (key : PropertyKey) : key.unwrap (fun _ => false) = key := by
  cases key with
  | computed e => rw [PropertyKey.unwrap, e.unwrap_none]
  | fixed | number | bigInt => rfl

theorem AccessKey.unwrap_none (key : AccessKey) : key.unwrap (fun _ => false) = key := by
  cases key with
  | computed e => rw [AccessKey.unwrap, e.unwrap_none]
  | name | hidden => rfl

theorem Callee.unwrap_none (callee : Callee) : callee.unwrap (fun _ => false) = callee := by
  cases callee with
  | value e => rw [Callee.unwrap, e.unwrap_none]
  | super | module => rfl

theorem ArrowBody.unwrap_none (body : ArrowBody) : body.unwrap (fun _ => false) = body := by
  cases body with
  | value e => rw [ArrowBody.unwrap, e.unwrap_none]
  | block statements => rw [ArrowBody.unwrap, unwrapStatements_none statements]

theorem Stmt.unwrap_none (s : Stmt) : s.unwrap (fun _ => false) = s := by
  cases s with
  | block _ statements => rw [Stmt.unwrap, unwrapStatements_none statements]
  | result _ value => rw [Stmt.unwrap, unwrapInit_none value]
  | expression _ e => rw [Stmt.unwrap, e.unwrap_none]
  | switch _ discriminant clauses =>
    rw [Stmt.unwrap, discriminant.unwrap_none, unwrapClauses_none clauses]
  | declares _ declarators => rw [Stmt.unwrap, unwrapDeclarators_none declarators]
  | empty | declaration | other => rfl

theorem Clause.unwrap_none (clause : Clause) : clause.unwrap (fun _ => false) = clause := by
  obtain ⟨test, body⟩ := clause
  rw [Clause.unwrap, unwrapInit_none test, unwrapStatements_none body]

theorem Declarator.unwrap_none (d : Declarator) : d.unwrap (fun _ => false) = d := by
  obtain ⟨span, name, init⟩ := d
  rw [Declarator.unwrap, unwrapInit_none init]

theorem unwrapInit_none (init : Option Expr) : unwrapInit (fun _ => false) init = init := by
  cases init with
  | none => rfl
  | some e => rw [unwrapInit, e.unwrap_none]

theorem unwrapChunks_none (chunks : List Chunk) :
    unwrapChunks (fun _ => false) chunks = chunks := by
  cases chunks with
  | nil => rfl
  | cons chunk rest => rw [unwrapChunks, chunk.unwrap_none, unwrapChunks_none rest]

theorem unwrapElements_none (elements : List Element) :
    unwrapElements (fun _ => false) elements = elements := by
  cases elements with
  | nil => rfl
  | cons element rest => rw [unwrapElements, element.unwrap_none, unwrapElements_none rest]

theorem unwrapMembers_none (members : List Member) :
    unwrapMembers (fun _ => false) members = members := by
  cases members with
  | nil => rfl
  | cons member rest => rw [unwrapMembers, member.unwrap_none, unwrapMembers_none rest]

theorem unwrapArguments_none (arguments : List Argument) :
    unwrapArguments (fun _ => false) arguments = arguments := by
  cases arguments with
  | nil => rfl
  | cons argument rest => rw [unwrapArguments, argument.unwrap_none, unwrapArguments_none rest]

theorem unwrapStatements_none (statements : List Stmt) :
    unwrapStatements (fun _ => false) statements = statements := by
  cases statements with
  | nil => rfl
  | cons statement rest => rw [unwrapStatements, statement.unwrap_none, unwrapStatements_none rest]

theorem unwrapClauses_none (clauses : List Clause) :
    unwrapClauses (fun _ => false) clauses = clauses := by
  cases clauses with
  | nil => rfl
  | cons clause rest => rw [unwrapClauses, clause.unwrap_none, unwrapClauses_none rest]

theorem unwrapDeclarators_none (declarators : List Declarator) :
    unwrapDeclarators (fun _ => false) declarators = declarators := by
  cases declarators with
  | nil => rfl
  | cons declarator rest =>
    rw [unwrapDeclarators, declarator.unwrap_none, unwrapDeclarators_none rest]

end

theorem Node.unwrap_none (node : Node) : node.unwrap (fun _ => false) = node := by
  cases node with
  | expr e => rw [unwrap, e.unwrap_none]
  | stmt s => rw [unwrap, s.unwrap_none]
  | declares _ declarators =>
    rw [unwrap, ← unwrapDeclarators_eq, unwrapDeclarators_none declarators]
  | declarator d => rw [unwrap, d.unwrap_none]
  | body _ b => rw [unwrap, b.unwrap_none]
  | unevaluable => rfl

theorem Node.map_unwrap_none (nodes : List Node) :
    nodes.map (Node.unwrap fun _ => false) = nodes := by
  rw [List.map_congr_left fun node _ => node.unwrap_none, List.map_id']

end StaticConfig
