import StaticConfig.Proofs.Project.Locality
import StaticConfig.Proofs.Text.Trimming

/-!
# Specifiers that leave out an extension

A specifier may leave out the extension of the file that it means, but only where what it names has
none itself: for a name with a dot after its first character no extension is added. Such a specifier
means the file of just that name or, if the name is that of a compiled script, its source
(`Project.specifier_means`). A source with a dotted name is therefore not found without its
extension (`DottedName.specifier_dropped`).
-/

namespace StaticConfig

/-! ### Names with an extension -/

/-- The name has an extension: a dot stands in it after the first character. -/
def HasExtension (name : String) : Prop := '.' ∈ name.toList.tail

instance (name : String) : Decidable (HasExtension name) :=
  inferInstanceAs (Decidable ('.' ∈ name.toList.tail))

/-- The parts of a name with an extension, which starts after the last dot. -/
theorem exists_eq_of_hasExtension {name : String} (h : HasExtension name) :
    ∃ stem extension : String, stem ≠ "" ∧ '.' ∉ extension.toList ∧
      name = stem ++ "." ++ extension := by
  unfold HasExtension at h
  cases hname : name.toList with
  | nil =>
    rw [hname] at h
    cases h
  | cons first rest =>
    rw [hname, List.tail_cons, ← List.mem_reverse] at h
    obtain ⟨after, before, hrest, hafter⟩ := List.eq_append_cons_of_mem h
    refine ⟨String.ofList (first :: before.reverse), String.ofList after.reverse, ?_, ?_, ?_⟩
    · simp [← String.toList_inj]
    · simpa using hafter
    · have hsplit : rest = before.reverse ++ '.' :: after.reverse := by
        rw [← List.reverse_reverse rest, hrest]
        simp
      rw [← String.toList_inj, hname, hsplit]
      simp

theorem stem_ne_empty {stem extension : String} (h : HasExtension (stem ++ "." ++ extension))
    (hextension : '.' ∉ extension.toList) : stem ≠ "" := by
  rintro rfl
  refine hextension ?_
  have hdot : ".".toList = ['.'] := rfl
  rwa [HasExtension, String.empty_append, String.toList_append, hdot] at h

namespace Path

theorem splitExtension_append {stem extension : String} (hstem : stem ≠ "")
    (hextension : '.' ∉ extension.toList) :
    splitExtension (stem ++ "." ++ extension) = (stem, some extension) := by
  -- Read from the end, the extension goes up to the last dot.
  have hrun : ∀ c ∈ extension.toList.reverse, (c != '.') = true := by
    intro c hc
    refine bne_iff_ne.2 ?_
    rintro rfl
    exact hextension (List.mem_reverse.1 hc)
  have hreverse : (stem ++ "." ++ extension).toList.reverse =
      extension.toList.reverse ++ '.' :: stem.toList.reverse := by
    have hdot : ".".toList = ['.'] := rfl
    rw [String.toList_append, String.toList_append, hdot, List.reverse_append, List.reverse_append]
    rfl
  have hspan : ∀ c ∈ ('.' :: stem.toList.reverse).head?, (c != '.') = false := by
    intro c hc
    obtain rfl := Option.some.inj hc
    rfl
  obtain ⟨htake, hdrop⟩ := span_append hrun hspan
  have hchars : stem.toList.reverse ≠ [] := fun hnil =>
    hstem (String.toList_inj.1 (List.reverse_eq_nil_iff.1 hnil))
  obtain ⟨last, rest, hlast⟩ := List.exists_cons_of_ne_nil hchars
  have hback : (last :: rest).reverse = stem.toList := by
    rw [← hlast, List.reverse_reverse]
  unfold splitExtension
  dsimp only
  rw [hreverse, htake, hdrop, hlast]
  dsimp only
  rw [hback, List.reverse_reverse, String.ofList_toList, String.ofList_toList]

/-- A name has one extension. -/
theorem eq_of_append_eq {stem extension stem' extension' : String} (hstem : stem ≠ "")
    (hstem' : stem' ≠ "") (hextension : '.' ∉ extension.toList)
    (hextension' : '.' ∉ extension'.toList)
    (h : stem ++ "." ++ extension = stem' ++ "." ++ extension') :
    stem = stem' ∧ extension = extension' := by
  have hsplit := splitExtension_append hstem hextension
  rw [h, splitExtension_append hstem' hextension'] at hsplit
  obtain ⟨hstems, hextensions⟩ := Prod.mk.inj hsplit
  exact ⟨hstems.symm, (Option.some.inj hextensions).symm⟩

theorem splitExtension_of_not_hasExtension {name : String} (h : ¬HasExtension name) :
    splitExtension name = (name, none) := by
  unfold splitExtension
  dsimp only
  split
  · -- A dot before which something stands is not the first character.
    rename_i dot last rest hdrop
    obtain rfl : dot = '.' := by
      have hhead := head_dropWhile (p := (· != '.')) name.toList.reverse dot (by rw [hdrop]; rfl)
      simpa using hhead
    have hsplit : name.toList = (last :: rest).reverse ++
        '.' :: (name.toList.reverse.takeWhile (· != '.')).reverse := by
      have hwhole := List.takeWhile_append_dropWhile (p := (· != '.')) (l := name.toList.reverse)
      rw [hdrop, eq_comm, List.reverse_eq_iff, List.reverse_append, List.reverse_cons,
        List.append_assoc] at hwhole
      exact hwhole
    refine absurd ?_ h
    rw [HasExtension, hsplit, List.tail_append_of_ne_nil (by simp)]
    exact List.mem_append_right _ List.mem_cons_self
  · rfl

/-- Another extension comes in the place of the one that the name has, or behind the name. -/
theorem withExtension_eq {p : Path} {name : String} (hname : p.fileName? = some name)
    (extension : String) :
    p.withExtension extension = p.parent.child ((splitExtension name).1 ++ "." ++ extension) := by
  unfold withExtension
  rw [hname]
  rfl

/-- What is put behind the name is put behind the spelling. -/
theorem text_child_append {p : Path} {name : String} (hname : p.fileName? = some name)
    (suffix : String) : (p.parent.child (name ++ suffix)).text = p.text ++ suffix := by
  have hparts : p.parts = p.parts.dropLast ++ [.name name] := by
    refine (List.dropLast_append_getLast? _ ?_).symm
    unfold fileName? at hname
    split at hname
    · obtain rfl := Option.some.inj hname
      assumption
    · cases hname
  have hspelled (last : String) : "/".intercalate (p.parts.dropLast.map PathPart.text ++ [last]) =
      (if p.parts.dropLast = [] then "" else
        "/".intercalate (p.parts.dropLast.map PathPart.text) ++ "/") ++ last := by
    split
    · rename_i hnil
      rw [hnil, List.map_nil, List.nil_append, String.intercalate_singleton, String.empty_append]
    · rename_i hne
      rw [String.intercalate_append_of_ne_nil (mt List.map_eq_nil_iff.1 hne) (List.cons_ne_nil _ _),
        String.intercalate_singleton]
  unfold text child parent
  dsimp only
  conv => rhs; rw [hparts]
  rw [List.map_append, List.map_append, List.map_singleton, List.map_singleton]
  show _ ++ "/".intercalate (_ ++ [name ++ suffix]) = _ ++ "/".intercalate (_ ++ [name]) ++ suffix
  rw [hspelled, hspelled]
  simp only [String.append_assoc]

theorem fileName?_child (p : Path) (name : String) : (p.child name).fileName? = some name := by
  simp [fileName?, child]

theorem extension?_eq {p : Path} {name : String} (hname : p.fileName? = some name) :
    p.extension? = (splitExtension name).2 := by
  rw [extension?, hname]
  rfl

end Path

/-! ### What a specifier may mean -/

/-- The specifier has no query, no fragment and no slash at its end. -/
def IsPlain (specifier : String) : Prop :=
  '?' ∉ specifier.toList ∧ '#' ∉ specifier.toList ∧ specifier.toList.getLast? ≠ some '/'

instance (specifier : String) : Decidable (IsPlain specifier) :=
  inferInstanceAs (Decidable (_ ∧ _ ∧ _))

theorem bareSpecifier_of_isPlain {specifier : String} (h : IsPlain specifier) :
    bareSpecifier specifier = specifier := by
  obtain ⟨hquery, hfragment, hslash⟩ := h
  have htake : specifier.toList.takeWhile (fun c => c != '?' && c != '#') = specifier.toList := by
    refine List.takeWhile_eq_self_iff.2 fun c hc => ?_
    rw [Bool.and_eq_true, bne_iff_ne, bne_iff_ne]
    constructor
    · rintro rfl
      exact hquery hc
    · rintro rfl
      exact hfragment hc
  have hdrop : specifier.toList.reverse.dropWhile (· == '/') = specifier.toList.reverse := by
    refine dropWhile_of_head fun c hc => ?_
    rw [List.head?_reverse] at hc
    refine beq_eq_false_iff_ne.2 ?_
    rintro rfl
    exact hslash hc
  unfold bareSpecifier
  dsimp only
  rw [htake, hdrop, List.reverse_reverse, String.ofList_toList]

/-- The extensions of compiled scripts have no dots. -/
theorem not_mem_of_compiled {extension : String} (h : extension ∈ ["js", "jsx", "mjs"]) :
    '.' ∉ extension.toList := by
  have hscripts : ∀ extension ∈ ["js", "jsx", "mjs"], '.' ∉ extension.toList := by decide
  exact hscripts extension h

section Candidates

variable {importer base : Path} {specifier name : String}

/-- Extensions and index files are tried for a name without an extension. -/
theorem candidatePaths_of_not_hasExtension (hbase : specifierBase importer specifier = base)
    (hname : base.fileName? = some name) (h : ¬HasExtension name) :
    candidatePaths importer specifier =
      base :: sourceExtensions.map (fun x => base.parent.child (name ++ "." ++ x)) ++
        sourceExtensions.map fun x => base.child ("index." ++ x) := by
  have hsplit := Path.splitExtension_of_not_hasExtension h
  have hextension : base.extension? = none := by rw [Path.extension?_eq hname, hsplit]
  unfold candidatePaths
  dsimp only
  rw [hbase, hextension]
  dsimp only
  simp only [funext (Path.withExtension_eq hname), hsplit]

/-- The sources of a compiled script are tried for a name with an extension, and else only the path
itself. -/
theorem candidatePaths_of_hasExtension {stem extension : String}
    (hbase : specifierBase importer specifier = base)
    (hname : base.fileName? = some (stem ++ "." ++ extension)) (hstem : stem ≠ "")
    (hextension : '.' ∉ extension.toList) :
    candidatePaths importer specifier =
      if extension ∈ ["js", "jsx", "mjs"] then
        base :: ["ts", "tsx", "mts"].map fun x => base.parent.child (stem ++ "." ++ x)
      else [base] := by
  have hsplit := Path.splitExtension_append hstem hextension
  have hfound : base.extension? = some extension := by rw [Path.extension?_eq hname, hsplit]
  unfold candidatePaths
  dsimp only
  rw [hbase, hfound]
  dsimp only
  simp only [funext (Path.withExtension_eq hname), hsplit, List.contains_iff_mem]

/-- A name with an extension is not tried with another one behind it. -/
theorem not_mem_candidatePaths {stem extension x : String}
    (hbase : specifierBase importer specifier = base)
    (hname : base.fileName? = some (stem ++ "." ++ extension)) (hstem : stem ≠ "")
    (hextension : '.' ∉ extension.toList) (hx : x ∈ sourceExtensions) :
    base.parent.child (stem ++ "." ++ extension ++ "." ++ x) ∉
      candidatePaths importer specifier := by
  -- Every other candidate ends in a shorter name.
  have hother {path : Path} {other : String} (hpath : path.fileName? = some other)
      (hlength : other.length < (stem ++ "." ++ extension ++ "." ++ x).length) :
      base.parent.child (stem ++ "." ++ extension ++ "." ++ x) ≠ path := by
    rintro rfl
    rw [Path.fileName?_child] at hpath
    rw [Option.some.inj hpath] at hlength
    exact absurd hlength (Nat.lt_irrefl _)
  have hdot : ".".length = 1 := rfl
  have hsource : ∀ x ∈ sourceExtensions, 2 ≤ x.length := by decide
  have hlong := hsource x hx
  have hbare := hother hname (by simp only [String.length_append]; omega)
  rw [candidatePaths_of_hasExtension hbase hname hstem hextension]
  split
  · rename_i hcompiled
    have hscripts : ∀ extension ∈ ["js", "jsx", "mjs"], 2 ≤ extension.length := by decide
    have htyped : ∀ x ∈ ["ts", "tsx", "mts"], x.length ≤ 3 := by decide
    have hscript := hscripts extension hcompiled
    rw [List.mem_cons, not_or]
    refine ⟨hbare, fun hmem => ?_⟩
    obtain ⟨typed, hmem, hpath⟩ := List.mem_map.1 hmem
    have hshort := htyped typed hmem
    refine hother (Path.fileName?_child _ _) ?_ hpath.symm
    simp only [String.length_append]
    omega
  · exact mt List.mem_singleton.1 hbare

/-- One of the candidates for a name with an extension is served if the path itself is, or a source
of the script. -/
theorem exists_served_iff {sources : Sources} (hbase : specifierBase importer specifier = base)
    (hname : base.fileName? = some name) (h : HasExtension name) :
    (∃ path ∈ candidatePaths importer specifier, sources.serves path) ↔ sources.serves base ∨
      ∃ stem extension x, name = stem ++ "." ++ extension ∧ extension ∈ ["js", "jsx", "mjs"] ∧
        x ∈ ["ts", "tsx", "mts"] ∧ sources.serves (base.parent.child (stem ++ "." ++ x)) := by
  obtain ⟨stem, extension, hstem, hextension, rfl⟩ := exists_eq_of_hasExtension h
  rw [candidatePaths_of_hasExtension hbase hname hstem hextension]
  constructor
  · rintro ⟨path, hmem, hserves⟩
    split at hmem
    · rename_i hcompiled
      rcases List.mem_cons.1 hmem with rfl | hmem
      · exact .inl hserves
      · obtain ⟨x, hx, rfl⟩ := List.mem_map.1 hmem
        exact .inr ⟨stem, extension, x, rfl, hcompiled, hx, hserves⟩
    · obtain rfl := List.mem_singleton.1 hmem
      exact .inl hserves
  · rintro (hserves | ⟨stem', extension', x, hsame, hcompiled, hx, hserves⟩)
    · refine ⟨base, ?_, hserves⟩
      split
      · exact List.mem_cons_self
      · exact List.mem_singleton_self base
    · -- The name has one extension only, so this is the one that the candidates are made from.
      have hextension' := not_mem_of_compiled hcompiled
      have hstem' := stem_ne_empty (hsame ▸ h) hextension'
      obtain ⟨rfl, rfl⟩ := Path.eq_of_append_eq hstem hstem' hextension hextension' hsame
      rw [if_pos hcompiled]
      exact ⟨_, List.mem_cons_of_mem _ (List.mem_map_of_mem hx), hserves⟩

end Candidates

theorem Sources.target?_isSome_iff {sources : Sources} {importer : Path} {specifier : String} :
    (sources.target? importer specifier).isSome ↔
      ∃ path ∈ candidatePaths importer specifier, sources.serves path := by
  rw [Sources.target?, List.find?_isSome]

/-! ### What is reported -/

/-- Every warning is about a specifier that means nothing. -/
def Reported (sources : Sources) (project : Project) : Prop :=
  ∀ warning ∈ project.warnings, sources.target? warning.importer warning.specifier = none

/-- Only specifiers that mean nothing are reported. -/
theorem eq_none_of_warning {isThere : Path → Bool} {path : Path} {specifiers : List String}
    {warning : Unresolved} (h : warning ∈ (targetsOf isThere path specifiers).2) :
    (candidatePaths warning.importer warning.specifier).find? isThere = none := by
  induction specifiers with
  | nil => cases h
  | cons first rest ih =>
    unfold targetsOf at h
    dsimp only at h
    split at h
    · exact ih h
    · rename_i hnone
      rcases List.mem_cons.1 h with rfl | h
      · exact hnone
      · exact ih h

section Load

variable {sources : Sources}

theorem Reported.step {now next : Loading} (h : Reported sources now.project)
    (hlinked : Linked sources now.project) (hstep : LoadStep sources now next) :
    Reported sources next.project := by
  cases hstep with
  | skip => exact h
  | @read project path rest text m targets warnings fresh _ _ htargets =>
    have hserves := hlinked.isThere_eq
    dsimp only at hserves
    rw [hserves] at htargets
    intro warning hwarning
    rcases List.mem_append.1 hwarning with hold | hnew
    · exact h warning hold
    · have hreported : warning ∈ (targetsOf sources.serves path m.localSpecifiers).2 := by
        rw [htargets]
        exact hnew
      exact eq_none_of_warning hreported

theorem reported_of_run {entries : List Path} {now : Loading}
    (hrun : Relation.ReflTransGen (LoadStep sources) (.start entries) now) :
    Reported sources now.project := by
  induction hrun with
  | refl => exact fun warning hwarning => absurd hwarning List.not_mem_nil
  | tail hbefore hstep ih => exact ih.step (invariants_of_run hbefore).1 hstep

end Load

/-! ### Specifiers of a loaded file -/

namespace Project

/-- The specifier leads to a loaded file, which is served, and is not reported. -/
def Resolves (project : Project) (sources : Sources) (file : SourceFile) (specifier : String) :
    Prop :=
  (∃ target ∈ project.files, sources.serves target.path ∧
    project.target? file specifier = some target) ∧ ⟨specifier, file.path⟩ ∉ project.warnings

/-- The specifier leads nowhere and is reported. -/
def Drops (project : Project) (file : SourceFile) (specifier : String) : Prop :=
  project.target? file specifier = none ∧ ⟨specifier, file.path⟩ ∈ project.warnings

section

variable {sources : Sources} {entries : List String} {project : Project}

/-- A specifier of a loaded file is dropped where it means nothing and resolves otherwise. -/
theorem resolves_or_drops (hload : load sources entries = .ok project) {file : SourceFile}
    (hfile : file ∈ project.files) {specifier : String}
    (hspecifier : specifier ∈ file.module.localSpecifiers) :
    (sources.target? file.path specifier).isSome ∧ project.Resolves sources file specifier ∨
      sources.target? file.path specifier = none ∧ project.Drops file specifier := by
  obtain ⟨hlinked, hloaded⟩ := loaded_of_load hload
  have hreported : Reported sources project := by
    rw [load_eq_outcome, outcome_eq_ok_iff] at hload
    exact reported_of_run hload
  rcases hloaded.resolved file hfile specifier (mem_localSpecifiers_iff.1 hspecifier) with
    ⟨target, htarget, hmeant⟩ | ⟨hmeant, hwarned⟩
  · have hmem : target ∈ project.files := by
      obtain ⟨path, -, hat⟩ := Option.bind_eq_some_iff.1 htarget
      exact (fileAt?_eq_some_iff.1 hat).1
    have hserved : sources.serves target.path := List.find?_some hmeant
    refine .inl ⟨Option.isSome_of_eq_some hmeant, ⟨target, hmem, hserved, htarget⟩, ?_⟩
    intro hwarned
    -- A warning would say that the specifier means nothing.
    have hnone : sources.target? file.path specifier = none :=
      hreported ⟨specifier, file.path⟩ hwarned
    rw [hmeant] at hnone
    cases hnone
  · refine .inr ⟨hmeant, ?_, hwarned⟩
    rw [target?, hlinked.lookup_targets hfile hspecifier, hmeant]
    rfl

theorem resolves_iff (hload : load sources entries = .ok project) {file : SourceFile}
    (hfile : file ∈ project.files) {specifier : String}
    (hspecifier : specifier ∈ file.module.localSpecifiers) :
    project.Resolves sources file specifier ↔
      ∃ path ∈ candidatePaths file.path specifier, sources.serves path := by
  rw [← Sources.target?_isSome_iff]
  rcases resolves_or_drops hload hfile hspecifier with ⟨hmeant, hresolves⟩ | ⟨hmeant, -, hwarned⟩
  · exact iff_of_true hresolves hmeant
  · refine iff_of_false (fun hresolves => hresolves.2 hwarned) ?_
    rw [hmeant]
    exact Bool.false_ne_true

/-- **Extensions are added to names without one.** A local specifier of a loaded file, without
query, fragment and trailing slash, points to a path that ends in a name. If no dot stands in that
name after its first character, any source extension behind the path leads to a loaded file, and
nothing is reported. If one does, no extension is added: the specifier resolves if the path itself
is served or, for the name of a compiled script, the path with the extension of a source in place of
its own. A specifier that does not resolve is dropped and reported. -/
theorem specifier_means (hload : load sources entries = .ok project) {file : SourceFile}
    (hfile : file ∈ project.files) {specifier : String}
    (hspecifier : specifier ∈ file.module.localSpecifiers) (hplain : IsPlain specifier)
    {base : Path} (hbase : (file.path.parent.join (.ofText specifier)).normalize = base)
    {name : String} (hname : base.fileName? = some name) :
    (∀ x, (base.parent.child (name ++ "." ++ x)).text = base.text ++ "." ++ x) ∧
    (¬HasExtension name → ∀ x ∈ sourceExtensions,
      sources.serves (base.parent.child (name ++ "." ++ x)) →
        project.Resolves sources file specifier) ∧
    (HasExtension name →
      (∀ x ∈ sourceExtensions,
        base.parent.child (name ++ "." ++ x) ∉ candidatePaths file.path specifier) ∧
      (project.Resolves sources file specifier ↔ sources.serves base ∨
        ∃ stem extension x, name = stem ++ "." ++ extension ∧ extension ∈ ["js", "jsx", "mjs"] ∧
          x ∈ ["ts", "tsx", "mts"] ∧ sources.serves (base.parent.child (stem ++ "." ++ x)))) ∧
    (project.Resolves sources file specifier ∨ project.Drops file specifier) := by
  have hpoints : specifierBase file.path specifier = base := by
    rw [specifierBase, bareSpecifier_of_isPlain hplain, hbase]
  have hresolves := resolves_iff hload hfile hspecifier
  refine ⟨fun x => ?_, fun hbare x hx hserves => ?_, fun hdotted => ⟨fun x hx => ?_, ?_⟩, ?_⟩
  · rw [String.append_assoc, Path.text_child_append hname, String.append_assoc]
  · rw [hresolves, candidatePaths_of_not_hasExtension hpoints hname hbare]
    refine ⟨_, List.mem_append_left _ (List.mem_cons_of_mem _ ?_), hserves⟩
    exact List.mem_map_of_mem hx
  · obtain ⟨stem, extension, hstem, hextension, rfl⟩ := exists_eq_of_hasExtension hdotted
    exact not_mem_candidatePaths hpoints hname hstem hextension hx
  · rw [hresolves, exists_served_iff hpoints hname hdotted]
  · rcases resolves_or_drops hload hfile hspecifier with ⟨-, h⟩ | ⟨-, h⟩
    · exact .inl h
    · exact .inr h

end

end Project

namespace DottedName

/-- A file that imports two others without their extensions, one of which has a dotted name. -/
def files : List (String × String) :=
  [("main.ts", "import {x} from './lib'\nimport {y} from './db.config'\nconst z = [x, y]"),
    ("lib.ts", "export const x = true"), ("db.config.ts", "export const y = true")]

/-- The importing file is loaded, with both specifiers. -/
theorem exists_main : ∃ project file, Project.load (.ofList files) ["main.ts"] = .ok project ∧
    file ∈ project.files ∧ file.path = ⟨false, [.name "main.ts"]⟩ ∧
      file.module.localSpecifiers = ["./lib", "./db.config"] := by
  have hmodules : ∀ file ∈ files,
      (parseSource (Path.ofText file.1).normalize (withoutMark file.2)).isOk := by decide +kernel
  obtain ⟨project, hload⟩ : ∃ project, Project.load (.ofList files) ["main.ts"] = .ok project :=
    Project.exists_load hmodules (by decide)
  obtain ⟨-, hloaded⟩ := loaded_of_load hload
  obtain ⟨file, hfile, hpath⟩ := (hloaded.reached ⟨false, [.name "main.ts"]⟩).2
    ⟨0, .entry (by decide)⟩
  refine ⟨project, file, hload, hfile, hpath, ?_⟩
  obtain ⟨text, htext, hread, hparse⟩ := hloaded.read file hfile
  have hspecifiers : (((Sources.ofList files).text? ⟨false, [.name "main.ts"]⟩).bind fun text =>
      (parseSource ⟨false, [.name "main.ts"]⟩ (withoutMark text)).toOption.map
        Module.localSpecifiers) = some ["./lib", "./db.config"] := by decide +kernel
  rw [← hpath, htext, Option.bind_some, ← hread, hparse] at hspecifiers
  exact Option.some.inj hspecifiers

/-- The name without an extension leads to its source, the dotted name nowhere. -/
theorem specifier_means_dottedName : ∃ project file,
    Project.load (.ofList files) ["main.ts"] = .ok project ∧ file ∈ project.files ∧
      project.Resolves (.ofList files) file "./lib" ∧ project.Drops file "./db.config" := by
  obtain ⟨project, file, hload, hfile, hpath, hspecifiers⟩ := exists_main
  have hplain : IsPlain "./lib" ∧ IsPlain "./db.config" := by decide
  have hlib : (file.path.parent.join (.ofText "./lib")).normalize = ⟨false, [.name "lib"]⟩ := by
    rw [hpath]
    decide
  have hconfig : (file.path.parent.join (.ofText "./db.config")).normalize =
      ⟨false, [.name "db.config"]⟩ := by
    rw [hpath]
    decide
  obtain ⟨-, hbare, -, -⟩ :=
    Project.specifier_means hload hfile (by simp [hspecifiers]) hplain.1 hlib rfl
  obtain ⟨-, -, hdotted, heither⟩ :=
    Project.specifier_means hload hfile (by simp [hspecifiers]) hplain.2 hconfig rfl
  refine ⟨project, file, hload, hfile, hbare (by decide) "ts" (by decide) (by decide), ?_⟩
  refine heither.resolve_left fun hresolves => ?_
  rcases (hdotted (by decide)).2.1 hresolves with hserves | ⟨stem, extension, x, hname, hscript, -⟩
  · exact absurd hserves (by decide)
  · have hextension : '.' ∉ extension.toList := not_mem_of_compiled hscript
    have hdotted : HasExtension (stem ++ "." ++ extension) := hname ▸ by decide
    have hsame : "db" ++ "." ++ "config" = stem ++ "." ++ extension := hname
    obtain ⟨-, rfl⟩ := Path.eq_of_append_eq (by decide) (stem_ne_empty hdotted hextension)
      (by decide) hextension hsame
    exact absurd hscript (by decide)

/-- The file with the dotted name is there, but its specifier is dropped. -/
theorem specifier_dropped : ∃ project file,
    Project.load (.ofList files) ["main.ts"] = .ok project ∧ file ∈ project.files ∧
      "./db.config" ∈ file.module.localSpecifiers ∧ IsPlain "./db.config" ∧
      (file.path.parent.join (.ofText "./db.config")).normalize = ⟨false, [.name "db.config"]⟩ ∧
      (Sources.ofList files).serves ⟨false, [.name "db.config.ts"]⟩ ∧
      project.Drops file "./db.config" := by
  obtain ⟨project, file, hload, hfile, hpath, hspecifiers⟩ := exists_main
  have hmem : "./db.config" ∈ file.module.localSpecifiers := by simp [hspecifiers]
  refine ⟨project, file, hload, hfile, hmem, by decide, ?_, by decide, ?_⟩
  · rw [hpath]
    decide
  · rcases Project.resolves_or_drops hload hfile hmem with ⟨hmeant, -⟩ | ⟨-, h⟩
    · rw [hpath] at hmeant
      exact absurd hmeant (by decide)
    · exact h

end DottedName

end StaticConfig
