import StaticConfig.Proofs.Path.Normal

/-!
# Spellings of paths

What counts of a spelling is whether it starts at the root and which pieces stand between its
slashes (`Path.normalize_ofText`). Going on from a path is therefore the same for its spelling and
for its normal form (`Path.normalize_join`, `Path.normalize_extend`), and a normal form that is
spelled and read again is itself (`Path.normalize_ofText_text`).
-/

namespace StaticConfig

namespace Path

/-! ### What a spelling is read into -/

/-- The pieces between the slashes of a spelling. -/
def pieces (text : String) : List (List Char) := (text.toList.splitOn '/').filter (!·.isEmpty)

/-- Parts that stay lead nowhere. -/
theorem foldl_step_filter (parts start : List PathPart) :
    (parts.filter (· != .here)).foldl step start = parts.foldl step start := by
  induction parts generalizing start with
  | nil => rfl
  | cons part rest ih =>
    cases part with
    | here => exact ih start
    | up => exact ih (step start .up)
    | name text => exact ih (step start (.name text))

theorem rooted_ofText (text : String) :
    (ofText text).rooted = (text.toList.head? == some '/') := by
  unfold ofText
  dsimp only
  split
  · rename_i hrooted _
    exact hrooted.symm
  · rfl

/-- Wherever the moves of a spelling start, they are those of its pieces. -/
theorem foldl_step_ofText (text : String) (start : List PathPart) :
    (ofText text).parts.foldl step start = ((pieces text).map partOf).foldl step start := by
  unfold ofText pieces
  dsimp only
  split
  · rename_i hparts
    rw [hparts]
    exact foldl_step_filter _ start
  · exact foldl_step_filter _ start

theorem normalize_ofText (text : String) :
    (ofText text).normalize =
      ⟨text.toList.head? == some '/', ((pieces text).map partOf).foldl step []⟩ := by
  rw [normalize, rooted_ofText, foldl_step_ofText]

/-! ### Going on from a path -/

/-- Going on along a relative path starts where the normal form of the path so far ends. -/
theorem normalize_join (p : Path) {next : Path} (hnext : next.rooted = false) :
    (p.join next).normalize = (p.normalize.join next).normalize := by
  have hjoin (base : Path) : (base.join next).normalize =
      ⟨base.rooted, next.parts.foldl step base.normalize.parts⟩ := by
    rw [join, hnext, if_neg Bool.false_ne_true, normalize, List.foldl_append, foldl_step_filter]
    rfl
  have hnormal : p.normalize.normalize = p.normalize := isNormal_normalize p
  rw [hjoin, hjoin, hnormal]
  rfl

/-- The spelling of a path that goes on from another one. A slash comes between the two spellings
unless it is there already, and a spelling from the root starts over. -/
def extend (base next : String) : String :=
  if next.toList.head? = some '/' then next
  else if base.toList = [] ∨ base.toList.getLast? = some '/' then base ++ next
  else base ++ "/" ++ next

/-- Whether or not a slash has to be added, the pieces of both spellings follow each other. -/
theorem pieces_extend {base next : String} (hnext : next.toList.head? ≠ some '/') :
    pieces (extend base next) = pieces base ++ pieces next := by
  have hslash (before after : List Char) : (before ++ '/' :: after).splitOn '/' =
      before.splitOn '/' ++ after.splitOn '/' := List.splitOn_append_cons_self before after
  unfold extend pieces
  rw [if_neg hnext]
  split
  · rename_i hbase
    rw [String.toList_append]
    rcases hbase with hempty | hlast
    · rw [hempty]
      rfl
    · -- The slash that ends the first spelling has nothing but an empty piece after it.
      obtain ⟨before, hbefore⟩ := List.getLast?_eq_some_iff.1 hlast
      rw [hbefore, List.append_assoc, List.singleton_append, hslash, hslash]
      simp
  · rw [String.toList_append, String.toList_append, List.append_assoc]
    show ((base.toList ++ '/' :: next.toList).splitOn '/').filter _ = _
    rw [hslash, List.filter_append]

theorem head?_extend {base next : String} (hnext : next.toList.head? ≠ some '/') :
    ((extend base next).toList.head? == some '/') = (base.toList.head? == some '/') := by
  unfold extend
  rw [if_neg hnext]
  cases hbase : base.toList with
  | nil =>
    rw [if_pos (.inl rfl), String.toList_append, hbase]
    exact beq_eq_false_iff_ne.2 hnext
  | cons first rest =>
    split <;> simp only [String.toList_append, hbase, List.cons_append, List.head?_cons]

/-- The spelling of a join is read into the join of what the spellings are read into. -/
theorem normalize_extend (base next : String) :
    (ofText (extend base next)).normalize = ((ofText base).join (ofText next)).normalize := by
  by_cases hnext : next.toList.head? = some '/'
  · rw [extend, if_pos hnext, join, if_pos (by rw [rooted_ofText, hnext]; rfl)]
  · have hrelative : (ofText next).rooted = false := by
      rw [rooted_ofText]
      exact beq_eq_false_iff_ne.2 hnext
    rw [normalize_ofText, head?_extend hnext, pieces_extend hnext, List.map_append,
      List.foldl_append, ← foldl_step_ofText base, ← foldl_step_ofText next, join, hrelative,
      if_neg Bool.false_ne_true, ← rooted_ofText base]
    show _ = Path.mk _ (List.foldl step [] (_ ++ _))
    rw [List.foldl_append, foldl_step_filter]

/-! ### Spelling a normal form -/

/-- A part that is read from its own spelling. -/
def IsSpelled (part : PathPart) : Prop :=
  PathPart.text part ≠ "" ∧ '/' ∉ (PathPart.text part).toList ∧
    partOf (PathPart.text part).toList = part

/-- A part is spelled as the piece that it was read from. -/
theorem toList_text_partOf (piece : List Char) : (PathPart.text (partOf piece)).toList = piece := by
  unfold partOf
  split
  · rename_i hpiece
    rw [hpiece]
    rfl
  · split
    · rename_i hpiece
      rw [hpiece]
      rfl
    · exact String.toList_ofList

theorem not_mem_of_mem_splitOn {c : Char} {cs piece : List Char} (h : piece ∈ cs.splitOn c) :
    c ∉ piece := by
  induction cs generalizing piece with
  | nil =>
    obtain rfl : piece = [] := by simpa using h
    exact List.not_mem_nil
  | cons first rest ih =>
    rw [List.splitOn_cons_eq_if_modifyHead] at h
    split at h
    · rcases List.mem_cons.1 h with rfl | h
      · exact List.not_mem_nil
      · exact ih h
    · rename_i hfirst
      cases hrest : rest.splitOn c with
      | nil => exact absurd hrest (List.splitOn_ne_nil c rest)
      | cons head tail =>
        rw [hrest] at h ih
        rcases List.mem_cons.1 h with rfl | h
        · intro hc
          rcases List.mem_cons.1 hc with rfl | hc
          · exact hfirst (beq_self_eq_true _)
          · exact ih List.mem_cons_self hc
        · exact ih (List.mem_cons_of_mem _ h)

theorem isSpelled_of_mem_pieces {text : String} {piece : List Char} (h : piece ∈ pieces text) :
    IsSpelled (partOf piece) := by
  obtain ⟨hpiece, hempty⟩ := List.mem_filter.1 h
  have htext := toList_text_partOf piece
  refine ⟨?_, ?_, ?_⟩
  · intro hnone
    rw [hnone] at htext
    subst htext
    cases hempty
  · rw [htext]
    exact not_mem_of_mem_splitOn hpiece
  · rw [htext]

/-- Normalization makes up no parts other than moves up. -/
theorem mem_foldl_step {parts start : List PathPart} {part : PathPart}
    (h : part ∈ parts.foldl step start) : part ∈ start ∨ part ∈ parts ∨ part = .up := by
  induction parts generalizing start with
  | nil => exact .inl h
  | cons first rest ih =>
    rcases ih h with hstart | hrest | hup
    · cases first with
      | here => exact .inl hstart
      | up =>
        rw [step] at hstart
        split at hstart
        · exact .inr (.inr (List.mem_singleton.1 hstart))
        · exact .inl (List.dropLast_subset _ hstart)
      | name text =>
        rcases List.mem_append.1 hstart with hstart | hlast
        · exact .inl hstart
        · exact .inr (.inl (List.mem_singleton.1 hlast ▸ List.mem_cons_self))
    · exact .inr (.inl (List.mem_cons_of_mem _ hrest))
    · exact .inr (.inr hup)

theorem isSpelled_of_mem_normalize {text : String} {part : PathPart}
    (h : part ∈ (ofText text).normalize.parts) : IsSpelled part := by
  rw [normalize_ofText] at h
  rcases mem_foldl_step h with h | h | rfl
  · cases h
  · obtain ⟨piece, hpiece, rfl⟩ := List.mem_map.1 h
    exact isSpelled_of_mem_pieces hpiece
  · exact ⟨by decide, by decide, rfl⟩

/-- A spelling is taken apart into what it was put together from. -/
theorem pieces_text {p : Path} (h : ∀ part ∈ p.parts, IsSpelled part) :
    pieces p.text = p.parts.map fun part => (PathPart.text part).toList := by
  -- No piece is empty, so none is dropped.
  have hkept : (p.parts.map fun part => (PathPart.text part).toList).filter (!·.isEmpty) =
      p.parts.map fun part => (PathPart.text part).toList := by
    refine List.filter_eq_self.2 fun piece hpiece => ?_
    obtain ⟨part, hpart, rfl⟩ := List.mem_map.1 hpiece
    simpa using (h part hpart).1
  have hslash : ∀ piece ∈ p.parts.map fun part => (PathPart.text part).toList, '/' ∉ piece := by
    intro piece hpiece
    obtain ⟨part, hpart, rfl⟩ := List.mem_map.1 hpiece
    exact (h part hpart).2.1
  have htext : p.text.toList = (if p.rooted then ['/'] else []) ++
      ['/'].intercalate (p.parts.map fun part => (PathPart.text part).toList) := by
    rw [text, String.toList_append, String.toList_intercalate, List.map_map]
    cases p.rooted <;> rfl
  -- The slash of a rooted path only adds an empty piece in front.
  have hroot (cs : List Char) : (((if p.rooted then ['/'] else []) ++ cs).splitOn '/').filter
      (!·.isEmpty) = (cs.splitOn '/').filter (!·.isEmpty) := by
    cases p.rooted with
    | false => rfl
    | true =>
      show (([] ++ '/' :: cs).splitOn '/').filter _ = _
      rw [List.splitOn_append_cons_self, List.filter_append]
      rfl
  rw [pieces, htext, hroot]
  by_cases hempty : p.parts = []
  · rw [hempty]
    rfl
  · rw [List.splitOn_intercalate '/' hslash (by simpa using hempty), hkept]

theorem head?_text {p : Path} (h : ∀ part ∈ p.parts, IsSpelled part) :
    (p.text.toList.head? == some '/') = p.rooted := by
  rw [text, String.toList_append, String.toList_intercalate]
  cases hrooted : p.rooted with
  | true => rfl
  | false =>
    -- The spelling of a relative path starts with a piece, and no piece starts with a slash.
    cases hparts : p.parts with
    | nil => rfl
    | cons first rest =>
      obtain ⟨hne, hslash, -⟩ := h first (hparts ▸ List.mem_cons_self)
      cases hfirst : (PathPart.text first).toList with
      | nil => exact absurd (String.toList_eq_nil_iff.1 hfirst) hne
      | cons c cs =>
        have hhead : (("/".toList).intercalate
            (((first :: rest).map PathPart.text).map String.toList)).head? = some c := by
          cases rest <;> simp [List.intercalate, hfirst]
        rw [hfirst] at hslash
        have hc : c ≠ '/' := fun hc => hslash (hc ▸ List.mem_cons_self)
        show ((List.intercalate "/".toList _).head? == some '/') = false
        rw [hhead]
        simpa using hc

/-- A normal form that is spelled and read again has the same normal form. -/
theorem normalize_ofText_text (text : String) :
    (ofText (ofText text).normalize.text).normalize = (ofText text).normalize := by
  have hspelled : ∀ part ∈ (ofText text).normalize.parts, IsSpelled part :=
    fun part => isSpelled_of_mem_normalize
  have hparts : ((ofText text).normalize.parts.map fun part => (PathPart.text part).toList).map
      partOf = (ofText text).normalize.parts := by
    rw [List.map_map]
    exact List.map_congr_left (fun part hpart => (hspelled part hpart).2.2) |>.trans (List.map_id _)
  have hnormal : (ofText text).normalize.normalize = (ofText text).normalize :=
    isNormal_normalize _
  rw [normalize_ofText, head?_text hspelled, pieces_text hspelled, hparts]
  exact hnormal

end Path

end StaticConfig
