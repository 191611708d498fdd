import StaticConfig.Proofs.Source.Progress
import StaticConfig.Source.Parser

/-!
# What is passed over

Types, patterns, classes and elements leave no trace in the tree, so of their rules it only matters
that they move forward. The parsers contain each other, so the statement is made for each rule under
the assumption that the grammar that the rule uses moves forward (`Grammar.Moving`). The sections
follow the modules of the parser.
-/

namespace StaticConfig

open Parse

/-- The parsers of a grammar never go back, and an element has a token. -/
structure Grammar.Moving (g : Grammar) : Prop where
  assignment : ∀ s, Moves (g.assignment s)
  unary : ∀ s, Moves (g.unary s)
  type : ∀ s conditional, Moves (g.type s conditional)
  pattern : ∀ s, Moves (g.pattern s)
  element : ∀ s, Passes (g.element s)
  statement : ∀ s declarations, Moves (g.statement s declarations)

namespace Grammar

variable {g : Grammar} (hg : g.Moving)

/-! ### Names, parameters and arguments of types -/

theorem entityName_moves : Moves entityName := by
  refine Passes.word.moves.bind fun _ => .loop () fun _ => (Moves.eatSign _).bind fun _ => ?_
  exact .branch (Passes.word.moves.bind fun _ => .pure _) (.pure _)

include hg

theorem expression_moves (s : Setting) : Moves (g.expression s) := by
  refine (hg.assignment s).bind fun first => .peek (.isSign _) fun _ => .branch ?_ (.pure _)
  refine (Moves.loop _ fun last => (Moves.eatSign _).bind fun _ => ?_).bind fun _ => .pure _
  exact .branch ((hg.assignment s).bind fun _ => .pure _) (.pure _)

theorem typeArguments_moves (s : Setting) : Moves (g.typeArguments s) := by
  refine (Moves.expectSign _).bind fun _ => .peek (.isSign _) fun _ =>
    .check .unexpected fun _ => ?_
  exact (Moves.commaList _ (hg.type s true)).bind fun _ => .pure _

theorem typeArgumentsHere_moves (s : Setting) : Moves (g.typeArgumentsHere s) :=
  .peek (.isSign _) fun _ => .peek .afterLine fun _ => .branch (typeArguments_moves hg s) (.pure _)

theorem typeParameters_passes (s : Setting) : Passes (g.typeParameters s) := by
  refine (Passes.expectSign _).bind fun _ => .peek (.isSign _) fun _ =>
    .check .unexpected fun _ => ?_
  refine (Moves.commaList _ ?_).bind fun _ => .pure _
  refine (Moves.loop () fun _ => .peek (.isAnyWord _) fun _ =>
    .branch ?_ (.pure _)).bind fun _ => ?_
  · refine .peek .peek fun next => ?_
    split
    · exact Moves.advance.bind fun _ => .pure _
    · exact .pure _
  refine Passes.name.moves.bind fun _ => (Moves.eatWord _).bind fun _ => ?_
  refine .check (hg.type s true) fun _ => (Moves.eatSign _).bind fun _ => ?_
  exact .branch (hg.type s true) (.pure _)

theorem typeParametersHere_moves (s : Setting) : Moves (g.typeParametersHere s) :=
  .peek (.isSign _) fun _ => .branch (typeParameters_passes hg s).moves (.pure _)

theorem annotatedType_moves (s : Setting) : Moves (g.annotatedType s) :=
  (Moves.eatSign _).bind fun _ => .branch (hg.type s true) (.pure _)

theorem returnType_moves (s : Setting) : Moves (g.returnType s) := by
  unfold returnType
  refine .peek (.isWord _) fun _ => ?_
  extract_lets plain guarded done
  have hguarded : Moves (guarded ()) := by
    refine .peek .isName fun _ => .peek (.isWord _) fun _ => .branch ?_ (hg.type s true)
    refine .peek .peek fun next => .branch ?_ (hg.type s true)
    exact Moves.advance.bind fun _ => Moves.advance.bind fun _ => (hg.type s true).bind fun _ =>
      .pure _
  refine .branch (.peek (.wouldParse _) fun _ => .branch ?_ hguarded) hguarded
  refine Moves.advance.bind fun _ => Moves.advance.bind fun _ => .peek (.isWord _) fun _ => ?_
  refine .peek .afterLine fun _ => .branch (Moves.advance.bind fun _ => ?_) (.pure _)
  exact (hg.type s true).bind fun _ => .pure _

theorem returnTypeHere_moves (s : Setting) : Moves (g.returnTypeHere s) :=
  (Moves.eatSign _).bind fun _ => .branch (returnType_moves hg s) (.pure _)

/-! ### Members of types -/

theorem typeParameter_moves (s : Setting) : Moves (g.typeParameter s) := by
  refine (Moves.eatSign _).bind fun _ => .peek (.isWord _) fun _ => ?_
  extract_lets after
  have hafter (u : Unit) : Moves (after u) :=
    (Moves.eatSign _).bind fun _ => annotatedType_moves hg s
  exact .branch (Moves.advance.bind hafter) ((hg.pattern s).bind fun _ => hafter ())

theorem typeParameterList_moves (s : Setting) : Moves (g.typeParameterList s) :=
  (Moves.expectSign _).bind fun _ =>
    (Moves.commaList _ (typeParameter_moves hg s)).bind fun _ => .pure _

theorem signature_moves (s : Setting) : Moves (g.signature s) :=
  (typeParametersHere_moves hg s).bind fun _ => (typeParameterList_moves hg s).bind fun _ =>
    returnTypeHere_moves hg s

theorem memberName_moves (s : Setting) : Moves (g.memberName s) := by
  refine .peek .lexeme fun lexeme => ?_
  split
  · exact .advance
  · exact .advance
  · exact .advance
  · exact .advance
  · exact .advance
  · refine Moves.advance.bind fun _ => (expression_moves hg _).bind fun _ => ?_
    exact .expectSign _
  · exact .unexpected

theorem indexSignature_moves (s : Setting) : Moves (g.indexSignature s) :=
  (Moves.expectSign _).bind fun _ => Passes.name.moves.bind fun _ =>
    (Moves.expectSign _).bind fun _ => (hg.type s true).bind fun _ =>
      (Moves.expectSign _).bind fun _ => annotatedType_moves hg s

omit hg in
theorem isModifier_peeks (text : String) : Peeks (isModifier text) := by
  refine Peeks.bind (.isWord _) fun _ => .branch (Peeks.peek.bind fun next => ?_) (.pure _)
  split <;> exact .pure _

omit hg in
theorem memberEnd_moves : Moves memberEnd :=
  (Moves.eatSign _).bind fun _ => .branch (.pure _) .semicolon

theorem typeMember_moves (s : Setting) : Moves (g.typeMember s) := by
  unfold typeMember
  refine .peek (.isSign _) fun _ => .peek (.isSign _) fun _ => ?_
  extract_lets close named indexed plain
  have hclose (u : Unit) : Moves (close u) := memberEnd_moves
  have hnamed (u : Unit) : Moves (named u) := by
    refine (memberName_moves hg s).bind fun _ => (Moves.eatSign _).bind fun _ => ?_
    refine .peek (.isSign _) fun _ => .peek (.isSign _) fun _ => ?_
    exact .join (signature_moves hg s) (annotatedType_moves hg s) hclose
  have hindexed (u : Unit) : Moves (indexed u) := by
    refine .peek (.wouldParse _) fun _ => .branch ?_ ?_
    · exact (indexSignature_moves hg s).bind fun _ => memberEnd_moves.bind fun _ => .pure _
    refine .peek (isModifier_peeks _) fun _ => .peek (isModifier_peeks _) fun _ => ?_
    exact .check .advance hnamed
  have hplain (u : Unit) : Moves (plain u) :=
    .peek (isModifier_peeks _) fun _ => .check .advance hindexed
  refine .branch ((signature_moves hg s).bind fun _ => memberEnd_moves.bind fun _ => .pure _) ?_
  refine .peek (.isWord _) fun _ => .branch (.peek .peek fun next => ?_) (hplain ())
  split
  · exact Moves.advance.bind fun _ => (signature_moves hg s).bind fun _ =>
      memberEnd_moves.bind fun _ => .pure _
  · exact Moves.advance.bind fun _ => (signature_moves hg s).bind fun _ =>
      memberEnd_moves.bind fun _ => .pure _
  · exact hplain ()

theorem typeMembers_moves (s : Setting) : Moves (g.typeMembers s) :=
  (Moves.expectSign _).bind fun _ =>
    (Moves.untilSign _ (typeMember_moves hg s.bracketed)).bind fun _ => .pure _

/-! ### Forms of types -/

omit hg in
theorem mappedModifier_moves {modifier : Parse Bool} (h : Moves modifier) :
    Moves (mappedModifier modifier) := by
  refine .peek (.isSign _) fun _ => .peek (.isSign _) fun _ => .branch ?_ (h.bind fun _ => .pure _)
  exact Moves.advance.bind fun _ => h.bind fun _ => .branch (.pure _) .unexpected

theorem mappedType_moves (s : Setting) : Moves (g.mappedType s) := by
  refine (Moves.expectSign _).bind fun _ => (mappedModifier_moves (.eatWord _)).bind fun _ => ?_
  refine (Moves.expectSign _).bind fun _ => Passes.name.moves.bind fun _ => ?_
  refine (Moves.expectWord _).bind fun _ => (hg.type s true).bind fun _ => ?_
  refine (Moves.eatWord _).bind fun _ => .check (hg.type s true) fun _ => ?_
  refine (Moves.expectSign _).bind fun _ => (mappedModifier_moves (.eatSign _)).bind fun _ => ?_
  exact (annotatedType_moves hg s).bind fun _ => Moves.eatSemicolon.bind fun _ => .expectSign _

theorem tupleItem_moves (s : Setting) : Moves (g.tupleItem s) := by
  refine (Moves.eatSign _).bind fun _ => .peek (.wouldParse _) fun _ => ?_
  extract_lets item
  have hitem (u : Unit) : Moves (item u) :=
    (hg.type s true).bind fun _ => (Moves.eatSign _).bind fun _ => .pure _
  refine .branch (Moves.advance.bind fun _ => (Moves.eatSign _).bind fun _ => ?_) (hitem ())
  exact (Moves.expectSign _).bind hitem

theorem importType_moves (s : Setting) : Moves (primaryType.importType g s) := by
  refine (Moves.expectWord _).bind fun _ => (Moves.expectSign _).bind fun _ => ?_
  refine (hg.type _ true).bind fun _ => (Moves.eatSign _).bind fun _ => ?_
  extract_lets rest
  have hrest (u : Unit) : Moves (rest u) :=
    (Moves.expectSign _).bind fun _ => (Moves.eatSign _).bind fun _ =>
      .branch entityName_moves (.pure _)
  refine .branch ((hg.assignment _).bind fun _ => (Moves.eatSign _).bind fun _ => ?_) (hrest ())
  exact hrest ()

theorem primaryType_moves (s : Setting) : Moves (g.primaryType s) := by
  unfold primaryType
  refine .peek .lexeme fun lexeme => ?_
  have hnamed : Moves (do entityName; g.typeArgumentsHere s) :=
    entityName_moves.bind fun _ => typeArgumentsHere_moves hg s
  split
  · exact .advance
  · exact .advance
  · exact .advance
  · refine Moves.advance.bind fun _ => .peek .lexeme fun lexeme => ?_
    split
    · exact .advance
    · exact .advance
    · exact .unexpected
  · exact (Moves.templatePieces (hg.type _ true)).bind fun _ => .reportAny _
  · exact .peek (.wouldParse _) fun _ => .branch (mappedType_moves hg _) (typeMembers_moves hg _)
  · exact Moves.advance.bind fun _ => (Moves.commaList _ (tupleItem_moves hg _)).bind fun _ =>
      .pure _
  · exact Moves.advance.bind fun _ => (hg.type _ true).bind fun _ => .expectSign _
  · exact .advance
  · exact .advance
  · exact .advance
  · exact .advance
  · exact .advance
  · refine Moves.advance.bind fun _ => .peek (.isWord _) fun _ => ?_
    exact .join (importType_moves hg s) entityName_moves fun _ => typeArgumentsHere_moves hg s
  · exact (importType_moves hg s).bind fun _ => typeArgumentsHere_moves hg s
  · exact .branch hnamed .unexpected
  · exact .unexpected

theorem arrayType_moves (s : Setting) : Moves (g.arrayType s) := by
  refine (primaryType_moves hg s).bind fun _ => .loop () fun _ => .peek (.isSign _) fun _ => ?_
  refine .peek .afterLine fun _ => .branch (Moves.advance.bind fun _ => ?_) (.pure _)
  refine (Moves.eatSign _).bind fun _ => ?_
  extract_lets rest
  have hrest (u : Unit) : Moves (rest u) := .pure _
  exact .branch (hrest ()) ((hg.type _ true).bind fun _ => (Moves.expectSign _).bind hrest)

theorem operatorType_moves (s : Setting) (conditional : Bool) :
    Moves (g.operatorType s conditional) := by
  refine (Moves.loop _ fun _ => .peek (.isAnyWord _) fun _ => .branch ?_ ?_).bind fun isInfer => ?_
  · refine .peek .peek fun next => .branch (Moves.advance.bind fun _ => .pure _) (.pure _)
  · refine .peek (.isWord _) fun _ => .branch (.peek .peek fun next => ?_) (.pure _)
    split
    · exact .branch (Moves.advance.bind fun _ => .pure _) (.pure _)
    · exact .pure _
  · refine .branch (Passes.name.moves.bind fun _ => .peek (.isWord _) fun _ => ?_)
      (arrayType_moves hg s)
    refine .branch ((Moves.attempt ?_).bind fun _ => .pure _) (.pure _)
    refine Moves.advance.bind fun _ => (hg.type s false).bind fun _ => .peek (.isSign _) fun _ => ?_
    exact .branch .unexpected (.pure _)

omit hg in
theorem typesBetween_moves (sign : String) {item : Parse Unit} (h : Moves item) :
    Moves (typesBetween sign item) := by
  refine (Moves.eatSign _).bind fun _ => h.bind fun _ => .loop () fun _ => ?_
  exact (Moves.eatSign _).bind fun _ => .branch (h.bind fun _ => .pure _) (.pure _)

theorem functionType_moves (s : Setting) : Moves (plainType.functionType g s) :=
  (typeParametersHere_moves hg s).bind fun _ => (typeParameterList_moves hg s).bind fun _ =>
    (Moves.expectSign _).bind fun _ => returnType_moves hg s

theorem plainType_moves (s : Setting) (conditional : Bool) : Moves (g.plainType s conditional) := by
  have hfunction : Moves (plainType.functionType g s) := functionType_moves hg s
  have hunion : Moves (do
      if (← isSign "<") || ((← isSign "(") && (← atFunctionType g s)) then
        plainType.functionType g s
      else operatorType g s conditional) :=
    .peek (.isSign _) fun _ => .peek (.isSign _) fun _ => .peek (.wouldParse _) fun _ =>
      .branch hfunction (operatorType_moves hg s conditional)
  refine .peek (.isSign _) fun _ => .peek (.isSign _) fun _ => .peek (.wouldParse _) fun _ => ?_
  refine .branch hfunction (.peek (.isWord _) fun _ => .branch ?_ ?_)
  · exact Moves.advance.bind fun _ => hfunction
  refine .peek (.isWord _) fun _ => .peek .peek fun next => .branch ?_ ?_
  · exact Moves.advance.bind fun _ => Moves.advance.bind fun _ => hfunction
  · exact typesBetween_moves _ (typesBetween_moves _ hunion)

theorem typeRule_moves (s : Setting) (conditional : Bool) : Moves (g.typeRule s conditional) := by
  refine (plainType_moves hg s conditional).bind fun _ => .peek (.isWord _) fun _ => ?_
  refine .peek .afterLine fun _ => .branch (Moves.advance.bind fun _ => ?_) (.pure _)
  refine (plainType_moves hg s false).bind fun _ => (Moves.expectSign _).bind fun _ => ?_
  exact (hg.type s true).bind fun _ => (Moves.expectSign _).bind fun _ => hg.type s true

/-! ### Patterns, parameters and bodies -/

theorem defaultHere_moves (s : Setting) : Moves (g.defaultHere s) :=
  (Moves.eatSign _).bind fun _ => .branch ((hg.assignment _).bind fun _ => .pure _) (.pure _)

theorem computedKey_moves (s : Setting) : Moves (g.computedKey s) :=
  (Moves.expectSign _).bind fun _ => (expression_moves hg _).bind fun _ =>
    (Moves.expectSign _).bind fun _ => .pure _

theorem patternProperty_moves (s : Setting) : Moves (g.patternProperty s) := by
  refine (Moves.eatSign _).bind fun _ => .branch ?_ ?_
  · exact Passes.boundName.moves.bind fun _ => .peek (.isSign _) fun _ =>
      .branch (.pure _) .unexpected
  refine .peek .start fun pos => .peek .isName fun isPlain => .peek .lexeme fun lexeme => ?_
  extract_lets close value
  have hvalue (short : Bool) : Moves (value short) := by
    refine (Moves.eatSign _).bind fun _ => ?_
    have hclose (u : Unit) : Moves (close u) := defaultHere_moves hg s
    refine .branch ((hg.pattern s).bind fun _ => hclose ()) (.branch ?_ (.bind .unexpected hclose))
    exact .branch (hclose ()) ((Moves.stopAt pos).bind hclose)
  have hpassed (short : Bool) : Moves (do advance; let short ← pure short; value short) :=
    Moves.advance.bind fun _ => (Moves.pure short).bind hvalue
  split
  · exact hpassed true
  · exact hpassed false
  · exact hpassed false
  · exact hpassed false
  · exact (computedKey_moves hg s).bind fun _ => (Moves.pure false).bind hvalue
  · exact Moves.unexpected.bind hvalue

theorem patternItem_moves (s : Setting) : Moves (g.patternItem s) := by
  refine .peek (.isSign _) fun _ => .branch (.pure _) ((Moves.eatSign _).bind fun _ =>
    .branch ?_ ?_)
  · exact (hg.pattern s).bind fun _ => .peek (.isSign _) fun _ => .branch (.pure _) .unexpected
  · exact (hg.pattern s).bind fun _ => defaultHere_moves hg s

theorem patternRule_moves (s : Setting) : Moves (g.patternRule s) := by
  refine .peek .start fun pos => (Moves.eatSign _).bind fun _ => .branch ?_ ?_
  · exact (Moves.commaList _ (patternProperty_moves hg _)).bind fun _ =>
      .peek (.spanFrom s pos) fun _ => .pure _
  refine (Moves.eatSign _).bind fun _ => .branch ?_ ?_
  · exact (Moves.commaList _ (patternItem_moves hg _)).bind fun _ =>
      .peek (.spanFrom s pos) fun _ => .pure _
  · exact Passes.boundName.moves.bind fun _ => .peek (.spanFrom s pos) fun _ => .pure _

omit hg in
theorem skipParameterModifiers_moves : Moves skipParameterModifiers := by
  refine .loop () fun _ => .peek (.isAnyWord _) fun _ =>
    .branch (.peek .peek fun next => ?_) (.pure _)
  split
  · exact Moves.advance.bind fun _ => .pure _
  · exact Moves.advance.bind fun _ => .pure _
  · exact Moves.advance.bind fun _ => .pure _
  · exact .pure _

theorem parameter_moves (s : Setting) : Moves (g.parameter s) := by
  refine skipParameterModifiers_moves.bind fun _ => (Moves.eatSign _).bind fun rest => ?_
  refine .peek (.isWord _) fun _ => ?_
  extract_lets after
  have hafter (u : Unit) : Moves (after u) := by
    refine (Moves.eatSign _).bind fun _ => (annotatedType_moves hg s).bind fun _ => ?_
    refine (defaultHere_moves hg s).bind fun _ => .peek (.isSign _) fun _ => ?_
    exact .branch .unexpected (.pure _)
  exact .branch (Moves.advance.bind hafter) ((hg.pattern s).bind fun _ => hafter ())

theorem parameters_moves (s : Setting) : Moves (g.parameters s) :=
  (Moves.expectSign _).bind fun _ => (Moves.commaList _ (parameter_moves hg _)).bind fun _ =>
    .pure _

theorem block_moves (s : Setting) : Moves (g.block s) :=
  (Moves.expectSign _).bind fun _ => .untilSign _ (hg.statement s true)

theorem functionBody_moves (s : Setting) (isAsync isGenerator : Bool) :
    Moves (g.functionBody s isAsync isGenerator) := block_moves hg _

theorem functionRest_moves (s : Setting) (isAsync isGenerator mayLackBody : Bool) :
    Moves (g.functionRest s isAsync isGenerator mayLackBody) := by
  refine (typeParametersHere_moves hg s).bind fun _ => (parameters_moves hg _).bind fun _ => ?_
  refine ((Moves.eatSign _).bind fun _ =>
    .branch (returnType_moves hg s) (.pure _)).bind fun _ => ?_
  refine .peek (.isSign _) fun _ => .branch .semicolon ?_
  exact (functionBody_moves hg s _ _).bind fun _ => .pure _

/-! ### Classes -/

omit hg in
theorem memberModifiers_moves : Moves memberModifiers := by
  refine .loop _ fun found => .peek .lexeme fun lexeme => ?_
  split
  · exact .peek .peek fun next => .branch (Moves.advance.bind fun _ => .pure _) (.pure _)
  · exact .pure _

theorem classMember_moves (s : Setting) : Moves (g.classMember s) := by
  refine (Moves.eatSign _).bind fun _ => .branch (.pure _) ?_
  refine .peek (.isWord _) fun _ => .peek .peek fun next => .branch ?_ ?_
  · exact Moves.advance.bind fun _ => (functionBody_moves hg s _ _).bind fun _ => .pure _
  refine memberModifiers_moves.bind fun modifiers => .peek (.wouldParse _) fun _ => .branch ?_ ?_
  · exact (indexSignature_moves hg s).bind fun _ => memberEnd_moves.bind fun _ => .pure _
  refine (Moves.eatSign _).bind fun _ => (memberName_moves hg s).bind fun _ => ?_
  refine (Moves.eatSign _).bind fun _ => .peek .afterLine fun _ => ?_
  extract_lets close after
  have hafter : Moves (after ()) := by
    refine .peek (.isSign _) fun _ => .peek (.isSign _) fun _ => .branch ?_ ?_
    · exact functionRest_moves hg _ _ _ _
    · refine (annotatedType_moves hg s).bind fun _ => (Moves.eatSign _).bind fun _ => ?_
      exact .branch ((hg.assignment _).bind fun _ => .semicolon) .semicolon
  exact .branch ((Moves.eatSign _).bind fun _ => hafter) hafter

theorem classRest_passes (s : Setting) (mustBeNamed : Bool) :
    Passes (g.classRest s mustBeNamed) := by
  refine (Passes.expectWord _).bind fun _ => .peek .isName fun _ => .peek (.isWord _) fun _ => ?_
  extract_lets heritage
  have hheritage (named : Option String) : Moves (heritage named) := by
    refine (typeParametersHere_moves hg s).bind fun _ => (Moves.eatWord _).bind fun _ => ?_
    extract_lets members extended
    have hmembers (u : Unit) : Moves (members u) :=
      (Moves.expectSign _).bind fun _ =>
        (Moves.untilSign _ (classMember_moves hg _)).bind fun _ => .pure _
    have hextended (u : Unit) : Moves (extended u) := by
      refine (Moves.eatWord _).bind fun _ => .branch ?_ (hmembers ())
      exact (Moves.commaSeparated (hg.type s true)).bind fun _ => hmembers ()
    refine .branch ((hg.unary s).bind fun _ => .peek (.isSign _) fun _ => ?_) (hextended ())
    exact .check (typeArguments_moves hg s) hextended
  exact .branch (Passes.boundName.moves.bind fun _ => (Moves.pure _).bind hheritage)
    ((Moves.pure _).bind hheritage)

end Grammar

end StaticConfig
