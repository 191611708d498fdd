import StaticConfig.Project.Specifier
import StaticConfig.Proofs.Path.Location

/-!
# Normal paths

Normalization leaves at most one move up, at the start, and names after it. Paths of that form are
the ones that it leaves alone (`Path.isNormal_iff`), so it does nothing the second time, and all
files that a specifier may mean are normal (`isNormal_of_mem_candidatePaths`).
-/

namespace StaticConfig

namespace Path

/-- A path that normalization leaves as it is. -/
def IsNormal (p : Path) : Prop := p.normalize = p

/-- Names are kept one by one. -/
theorem foldl_step_names (names : List String) (parts : List PathPart) :
    (names.map PathPart.name).foldl step parts = parts ++ names.map .name := by
  induction names generalizing parts with
  | nil => rw [List.map_nil, List.append_nil]; rfl
  | cons text rest ih =>
    rw [List.map_cons, List.foldl_cons, ih]
    show (parts ++ [.name text]) ++ rest.map .name = _
    rw [List.append_assoc]
    rfl

/-- The parts of a normal path: names, with at most one move up before them. -/
theorem isNormal_iff {p : Path} :
    p.IsNormal ↔ ∃ (raised : Bool) (names : List String),
      p.parts = (if raised then [.up] else []) ++ names.map .name := by
  constructor
  · intro h
    obtain ⟨raised, hmirrors⟩ := mirrors_normalize p
    rw [h] at hmirrors
    exact ⟨raised, p.place.names, hmirrors.parts_eq⟩
  · rintro ⟨raised, names, hparts⟩
    obtain ⟨rooted, parts⟩ := p
    subst hparts
    have hlead : (if raised then [PathPart.up] else []).foldl step [] =
        if raised then [PathPart.up] else [] := by
      cases raised <;> rfl
    show Path.mk rooted (List.foldl step [] _) = _
    rw [List.foldl_append, hlead, foldl_step_names]

theorem isNormal_normalize (p : Path) : p.normalize.IsNormal := by
  obtain ⟨raised, hmirrors⟩ := mirrors_normalize p
  exact isNormal_iff.2 ⟨raised, p.place.names, hmirrors.parts_eq⟩

theorem IsNormal.child {p : Path} (h : p.IsNormal) (name : String) : (p.child name).IsNormal := by
  obtain ⟨raised, names, hparts⟩ := isNormal_iff.1 h
  refine isNormal_iff.2 ⟨raised, names ++ [name], ?_⟩
  rw [Path.child, hparts, List.map_append, List.append_assoc]
  rfl

/-- Another extension changes the last part if that is a name, and nothing otherwise. -/
theorem IsNormal.withExtension {p : Path} (h : p.IsNormal) (extension : String) :
    (p.withExtension extension).IsNormal := by
  unfold Path.withExtension
  split
  · rename_i name hname
    obtain ⟨raised, names, hparts⟩ := isNormal_iff.1 h
    have hlast : p.parts.getLast? = some (.name name) := by
      unfold fileName? at hname
      split at hname
      · obtain rfl := Option.some.inj hname
        assumption
      · cases hname
    have hne : names ≠ [] := by
      rintro rfl
      rw [hparts] at hlast
      cases raised <;> simp at hlast
    refine isNormal_iff.2 ⟨raised, names.dropLast ++ [(splitExtension name).1 ++ "." ++ extension],
      ?_⟩
    have hdrop : p.parts.dropLast =
        (if raised then [.up] else []) ++ names.dropLast.map PathPart.name := by
      rw [hparts, List.dropLast_append_of_ne_nil (by simpa using hne), List.map_dropLast]
    rw [hdrop, List.map_append, List.append_assoc]
    rfl
  · exact h

end Path

/-- Wherever a specifier stands, the files that it may mean are normal paths. -/
theorem isNormal_of_mem_candidatePaths {importer path : Path} {specifier : String}
    (h : path ∈ candidatePaths importer specifier) : path.IsNormal := by
  have hbase : (specifierBase importer specifier).IsNormal := Path.isNormal_normalize _
  unfold candidatePaths at h
  dsimp only at h
  split at h
  · split at h
    · rcases List.mem_cons.1 h with rfl | h
      · exact hbase
      · obtain ⟨extension, -, rfl⟩ := List.mem_map.1 h
        exact hbase.withExtension extension
    · obtain rfl := List.mem_singleton.1 h
      exact hbase
  · rcases List.mem_append.1 h with h | h
    · rcases List.mem_cons.1 h with rfl | h
      · exact hbase
      · obtain ⟨extension, -, rfl⟩ := List.mem_map.1 h
        exact hbase.withExtension extension
    · obtain ⟨extension, -, rfl⟩ := List.mem_map.1 h
      exact hbase.child _

end StaticConfig
