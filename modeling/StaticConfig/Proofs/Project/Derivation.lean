import StaticConfig.Project.Resolve
import StaticConfig.Proofs.Source.Pieces

/-!
# Rules of binding and exporting

Which declarations a name may refer to, as finitely many rules and without any search. A rule looks
at one item of one file and either ends at a declaration or leads on to an export of another file;
`Project.Derives` chains such steps, so what it derives has a finite derivation even where exports
lead on to each other in circles.

- `Project.Binding`: what an item gives for a name in the scope of its file;
- `Project.Exporting`: what an item gives for a name that its file exports;
- `Project.Binds`, `Project.Exports`: the declarations behind a name of the scope, and behind an
  export.
-/

namespace StaticConfig

/-- Where a rule ends: at a declaration, or at an export that is to be followed. -/
inductive Finding
  | declaration (node : Node)
  | lead (target : SourceFile) (name : String)

/-- The declaration of a name by a statement: a variable, or a function, class or enum. -/
inductive Stmt.Declares : Stmt → String → Node → Prop
  | declarator {span : Span} {declarators : List Declarator} {declarator : Declarator}
      {name : String} :
      declarator ∈ declarators → declarator.binds name = true →
      Declares (.declares span declarators) name (.declarator declarator)
  | unevaluable {span : Span} {kind : Kind} {name : String} :
      Declares (.declaration span kind (some name)) name (.unevaluable span kind)

namespace Project

variable (project : Project)

/-! ### Steps -/

/-- What a specifier of a runtime import gives for a name. -/
inductive Importing (file : SourceFile) (source name : String) :
    ImportSpecifier → Finding → Prop
  | named {imported : String} {target : SourceFile} :
      project.target? file source = some target →
      Importing file source name (.named false imported name) (.lead target imported)
  | defaultExport {target : SourceFile} :
      project.target? file source = some target →
      Importing file source name (.defaultExport name) (.lead target "default")
  | star {span : Span} :
      Importing file source name (.star span name)
        (.declaration (.unevaluable span .namespaceImport))

/-- What an item gives for a name in the scope of its file. -/
inductive Binding (file : SourceFile) (name : String) : ModuleItem → Finding → Prop
  | statement {statement : Stmt} {node : Node} :
      statement.Declares name node →
      Binding file name (.statement statement) (.declaration node)
  | exported {statement : Stmt} {node : Node} :
      statement.Declares name node →
      Binding file name (.exported statement) (.declaration node)
  | imports {source : String} {specifiers : List ImportSpecifier} {specifier : ImportSpecifier}
      {finding : Finding} :
      specifier ∈ specifiers → project.Importing file source name specifier finding →
      Binding file name (.imports false source specifiers) finding

/-- What a specifier of a runtime export gives for an exported name: without a source what its
own file binds, else what the source exports. -/
inductive Offering (file : SourceFile) (name : String) :
    Option String → ExportSpecifier → Finding → Prop
  | own {given : String} {item : ModuleItem} {finding : Finding} :
      item ∈ file.module.items → project.Binding file given item finding →
      Offering file name none (.named false given name) finding
  | passedOn {source given : String} {target : SourceFile} :
      project.target? file source = some target →
      Offering file name (some source) (.named false given name) (.lead target given)
  | star {source : Option String} {span : Span} :
      Offering file name source (.star span name)
        (.declaration (.unevaluable span .namespaceExport))

/-- What an item gives for a name that its file exports. -/
inductive Exporting (file : SourceFile) (name : String) : ModuleItem → Finding → Prop
  | exported {statement : Stmt} {node : Node} :
      statement.Declares name node →
      Exporting file name (.exported statement) (.declaration node)
  | exports {source : Option String} {specifiers : List ExportSpecifier}
      {specifier : ExportSpecifier} {finding : Finding} :
      specifier ∈ specifiers → project.Offering file name source specifier finding →
      Exporting file name (.exports false source specifiers) finding
  | exportAll {source : String} {target : SourceFile} :
      name ≠ "default" → project.target? file source = some target →
      Exporting file name (.exportAll false source) (.lead target name)
  | defaultValue {value : Expr} :
      name = "default" → Exporting file name (.defaultValue value) (.declaration (.expr value))
  | defaultDeclaration {span : Span} :
      name = "default" →
      Exporting file name (.defaultDeclaration span)
        (.declaration (.unevaluable span .defaultDeclaration))

/-! ### Inversion -/

section Inversion

variable {project : Project} {file : SourceFile} {name : String} {finding : Finding}

theorem importing_named_iff {source imported binds : String} {typeOnly : Bool} :
    project.Importing file source name (.named typeOnly imported binds) finding ↔
      (!typeOnly && binds == name) = true ∧
        ∃ target, project.target? file source = some target ∧ finding = .lead target imported := by
  constructor
  · intro h
    cases h with
    | named htarget => exact ⟨by simp, _, htarget, rfl⟩
  · rintro ⟨hname, target, htarget, rfl⟩
    simp only [Bool.and_eq_true, Bool.not_eq_true', beq_iff_eq] at hname
    obtain ⟨rfl, rfl⟩ := hname
    exact .named htarget

theorem importing_defaultExport_iff {source binds : String} :
    project.Importing file source name (.defaultExport binds) finding ↔
      binds = name ∧
        ∃ target, project.target? file source = some target ∧
          finding = .lead target "default" := by
  constructor
  · intro h
    cases h with
    | defaultExport htarget => exact ⟨rfl, _, htarget, rfl⟩
  · rintro ⟨rfl, target, htarget, rfl⟩
    exact .defaultExport htarget

theorem importing_star_iff {source binds : String} {span : Span} :
    project.Importing file source name (.star span binds) finding ↔
      binds = name ∧ finding = .declaration (.unevaluable span .namespaceImport) := by
  constructor
  · intro h
    cases h with
    | star => exact ⟨rfl, rfl⟩
  · rintro ⟨rfl, rfl⟩
    exact .star

theorem binding_statement_iff {statement : Stmt} :
    project.Binding file name (.statement statement) finding ↔
      ∃ node, statement.Declares name node ∧ finding = .declaration node := by
  constructor
  · intro h
    cases h with
    | statement hdeclares => exact ⟨_, hdeclares, rfl⟩
  · rintro ⟨node, hdeclares, rfl⟩
    exact .statement hdeclares

theorem binding_exported_iff {statement : Stmt} :
    project.Binding file name (.exported statement) finding ↔
      ∃ node, statement.Declares name node ∧ finding = .declaration node := by
  constructor
  · intro h
    cases h with
    | exported hdeclares => exact ⟨_, hdeclares, rfl⟩
  · rintro ⟨node, hdeclares, rfl⟩
    exact .exported hdeclares

theorem binding_imports_iff {source : String} {specifiers : List ImportSpecifier} :
    project.Binding file name (.imports false source specifiers) finding ↔
      ∃ specifier ∈ specifiers, project.Importing file source name specifier finding := by
  constructor
  · intro h
    cases h with
    | imports hmem hrule => exact ⟨_, hmem, hrule⟩
  · rintro ⟨specifier, hmem, hrule⟩
    exact .imports hmem hrule

theorem offering_own_iff {given exported : String} {typeOnly : Bool} :
    project.Offering file name none (.named typeOnly given exported) finding ↔
      (!typeOnly && exported == name) = true ∧
        ∃ item ∈ file.module.items, project.Binding file given item finding := by
  constructor
  · intro h
    cases h with
    | own hitem hrule => exact ⟨by simp, _, hitem, hrule⟩
  · rintro ⟨hname, item, hitem, hrule⟩
    simp only [Bool.and_eq_true, Bool.not_eq_true', beq_iff_eq] at hname
    obtain ⟨rfl, rfl⟩ := hname
    exact .own hitem hrule

theorem offering_passedOn_iff {source given exported : String} {typeOnly : Bool} :
    project.Offering file name (some source) (.named typeOnly given exported) finding ↔
      (!typeOnly && exported == name) = true ∧
        ∃ target, project.target? file source = some target ∧ finding = .lead target given := by
  constructor
  · intro h
    cases h with
    | passedOn htarget => exact ⟨by simp, _, htarget, rfl⟩
  · rintro ⟨hname, target, htarget, rfl⟩
    simp only [Bool.and_eq_true, Bool.not_eq_true', beq_iff_eq] at hname
    obtain ⟨rfl, rfl⟩ := hname
    exact .passedOn htarget

theorem offering_star_iff {source : Option String} {exported : String} {span : Span} :
    project.Offering file name source (.star span exported) finding ↔
      exported = name ∧ finding = .declaration (.unevaluable span .namespaceExport) := by
  constructor
  · intro h
    cases h with
    | star => exact ⟨rfl, rfl⟩
  · rintro ⟨rfl, rfl⟩
    exact .star

theorem exporting_exported_iff {statement : Stmt} :
    project.Exporting file name (.exported statement) finding ↔
      ∃ node, statement.Declares name node ∧ finding = .declaration node := by
  constructor
  · intro h
    cases h with
    | exported hdeclares => exact ⟨_, hdeclares, rfl⟩
  · rintro ⟨node, hdeclares, rfl⟩
    exact .exported hdeclares

theorem exporting_exports_iff {source : Option String} {specifiers : List ExportSpecifier} :
    project.Exporting file name (.exports false source specifiers) finding ↔
      ∃ specifier ∈ specifiers, project.Offering file name source specifier finding := by
  constructor
  · intro h
    cases h with
    | exports hmem hrule => exact ⟨_, hmem, hrule⟩
  · rintro ⟨specifier, hmem, hrule⟩
    exact .exports hmem hrule

theorem exporting_exportAll_iff {source : String} :
    project.Exporting file name (.exportAll false source) finding ↔
      name ≠ "default" ∧
        ∃ target, project.target? file source = some target ∧ finding = .lead target name := by
  constructor
  · intro h
    cases h with
    | exportAll hname htarget => exact ⟨hname, _, htarget, rfl⟩
  · rintro ⟨hname, target, htarget, rfl⟩
    exact .exportAll hname htarget

theorem exporting_defaultValue_iff {value : Expr} :
    project.Exporting file name (.defaultValue value) finding ↔
      name = "default" ∧ finding = .declaration (.expr value) := by
  constructor
  · intro h
    cases h with
    | defaultValue hname => exact ⟨hname, rfl⟩
  · rintro ⟨hname, rfl⟩
    exact .defaultValue hname

theorem exporting_defaultDeclaration_iff {span : Span} :
    project.Exporting file name (.defaultDeclaration span) finding ↔
      name = "default" ∧ finding = .declaration (.unevaluable span .defaultDeclaration) := by
  constructor
  · intro h
    cases h with
    | defaultDeclaration hname => exact ⟨hname, rfl⟩
  · rintro ⟨hname, rfl⟩
    exact .defaultDeclaration hname

end Inversion

/-! ### Derivations -/

/-- The declarations that a finding comes to, every lead being followed to an export of its
target. -/
inductive Derives : Finding → Node → Prop
  | declaration {node : Node} : Derives (.declaration node) node
  | lead {target : SourceFile} {name : String} {item : ModuleItem} {finding : Finding}
      {node : Node} :
      item ∈ target.module.items → project.Exporting target name item finding →
      Derives finding node → Derives (.lead target name) node

/-- A declaration behind a name in the scope of a file. -/
def Binds (file : SourceFile) (name : String) (node : Node) : Prop :=
  ∃ item ∈ file.module.items, ∃ finding,
    project.Binding file name item finding ∧ project.Derives finding node

/-- A declaration behind an export of a file. -/
def Exports (file : SourceFile) (name : String) (node : Node) : Prop :=
  project.Derives (.lead file name) node

/-- A declaration behind an occurrence of a name, in the file where it stands. -/
def Declares (ident : Ident) (node : Node) : Prop :=
  ∃ file, project.fileAt? ident.span.file = some file ∧ project.Binds file ident.name node

/-! ### Where declarations stand -/

/-- What a rule on a file finds: a declaration in an item of the file, or an export of a file that
one of its specifiers leads to. -/
def FoundFrom (file : SourceFile) : Finding → Prop
  | .declaration node => ∃ item ∈ file.module.items, node ∈ item.declarations
  | .lead target _ => ∃ specifier, project.target? file specifier = some target

section

variable {project : Project} {file : SourceFile} {name : String} {finding : Finding}

theorem mem_declarations_of_declares {statement : Stmt} {node : Node}
    (h : statement.Declares name node) : node ∈ (Node.stmt statement).declarations := by
  cases h with
  | declarator hmem _ => exact List.mem_cons_of_mem _ (List.mem_map_of_mem hmem)
  | unevaluable => exact List.mem_cons_self

theorem Importing.foundFrom {typeOnly : Bool} {source : String}
    {specifiers : List ImportSpecifier}
    (hitem : .imports typeOnly source specifiers ∈ file.module.items)
    {specifier : ImportSpecifier} (hspecifier : specifier ∈ specifiers)
    (h : project.Importing file source name specifier finding) :
    project.FoundFrom file finding := by
  cases h with
  | named htarget | defaultExport htarget => exact ⟨_, htarget⟩
  | star => exact ⟨_, hitem, List.mem_flatMap_of_mem hspecifier List.mem_cons_self⟩

theorem Binding.foundFrom {item : ModuleItem} (hitem : item ∈ file.module.items)
    (h : project.Binding file name item finding) : project.FoundFrom file finding := by
  cases h with
  | statement hdeclares | exported hdeclares =>
    exact ⟨_, hitem, mem_declarations_of_declares hdeclares⟩
  | imports hmem hrule => exact hrule.foundFrom hitem hmem

theorem Offering.foundFrom {typeOnly : Bool} {source : Option String}
    {specifiers : List ExportSpecifier}
    (hitem : .exports typeOnly source specifiers ∈ file.module.items)
    {specifier : ExportSpecifier} (hspecifier : specifier ∈ specifiers)
    (h : project.Offering file name source specifier finding) :
    project.FoundFrom file finding := by
  cases h with
  | own hmem hrule => exact hrule.foundFrom hmem
  | passedOn htarget => exact ⟨_, htarget⟩
  | star => exact ⟨_, hitem, List.mem_flatMap_of_mem hspecifier List.mem_cons_self⟩

theorem Exporting.foundFrom {item : ModuleItem} (hitem : item ∈ file.module.items)
    (h : project.Exporting file name item finding) : project.FoundFrom file finding := by
  cases h with
  | exported hdeclares => exact ⟨_, hitem, mem_declarations_of_declares hdeclares⟩
  | exports hmem hrule => exact hrule.foundFrom hitem hmem
  | exportAll _ htarget => exact ⟨_, htarget⟩
  | defaultValue | defaultDeclaration => exact ⟨_, hitem, List.mem_cons_self⟩

/-- What is derived from a finding stands in a file that its specifiers lead to: a lead ends in
such a file, and from there the rest of the derivation goes on. -/
theorem Derives.foundFrom {files : SourceFile → Prop}
    (hclosed : ∀ file, files file → ∀ specifier target,
      project.target? file specifier = some target → files target)
    {node : Node} (h : project.Derives finding node) :
    ∀ file, files file → project.FoundFrom file finding →
      ∃ last, files last ∧ ∃ item ∈ last.module.items, node ∈ item.declarations := by
  induction h with
  | declaration => exact fun file hfile hfound => ⟨file, hfile, hfound⟩
  | @lead target name item finding node hitem hrule _ ih =>
    intro file hfile ⟨specifier, htarget⟩
    exact ih target (hclosed file hfile specifier target htarget) (hrule.foundFrom hitem)

end

end Project

end StaticConfig
