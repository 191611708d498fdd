import StaticConfig.Proofs.Project.LaidOut
import StaticConfig.Proofs.Snippet

/-!
# Quoted parents

A fault about a form quotes the innermost other span of the trail beside the form. The trail mixes
what stands in each other with what was called and what names refer to, so that span need not be one
of a form around. It is one nevertheless, as a form that is reached by a call or through a name has
a step of its own, which is larger than anything in it. Only if that form itself is the one at which
evaluation stops is the name quoted that referred to it.

- `Surrounded`: what is known of the trail at an active step, one step at a time;
- `Traceback.quotes`: from that, what the innermost other span is, by induction on the traceback;
- `Project.parents_enclose`: the parents that are quoted in faults.
-/

namespace StaticConfig

open Project (LaidOut Contains)

section

variable {project : Project} {limit : Nat} {trail : List Span} {step outer inner : ActiveStep}

/-! ### The trail at a step -/

/-- The trail at a step: the innermost span other than that of a form inside the step is around the
form, and so is that other than that of the step itself, unless evaluation stops at the step and it
is reached through a name. -/
structure Surrounded (trail : List Span) (step : ActiveStep) : Prop where
  inside : ∀ span : Span, span.Within step.span →
    (step.node.isExpressionStatement = false → step.span ≠ span) →
      ∀ enclosing, (step.span :: trail).find? (· ≠ span) = some enclosing → span.Within enclosing
  itself : step.node.rejection?.isSome = true → ¬ step.IsRejectedCandidate →
    ∀ enclosing, trail.find? (· ≠ step.span) = some enclosing → step.span.Within enclosing

theorem surrounded_of_outermost (step : ActiveStep) : Surrounded [] step where
  inside span hwithin _ enclosing hfind := by
    rw [List.find?_singleton] at hfind
    split at hfind
    · cases hfind
      exact hwithin
    · cases hfind
  itself _ _ enclosing hfind := by cases hfind

theorem Surrounded.part (h : Surrounded trail outer) (hlaid : project.LaidOut)
    (houter : project.Contains outer.node) (hpiece : .part inner.node ∈ outer.node.pieces)
    {enclosing : Span} (hfind : (outer.span :: trail).find? (· ≠ inner.span) = some enclosing) :
    inner.span.Within enclosing := by
  have hmem : inner.span ∈ outer.node.inside := Node.span_mem_inside hpiece
  refine h.inside inner.span (hlaid.within _ houter _ hmem) (fun hform hsame => ?_) enclosing hfind
  exact hlaid.proper _ houter hform (by rwa [← hsame] at hmem)

/-- What one step leads to: a form inside it is in what surrounds the step, and everything else is
reached with a span of its own. -/
theorem Surrounded.leadsTo (h : Surrounded trail outer) (hlaid : project.LaidOut)
    (houter : project.Contains outer.node) (hleads : LeadsTo project.definitions outer inner) :
    Surrounded (outer.span :: trail) inner where
  inside span hwithin hproper enclosing hfind := by
    by_cases hsame : inner.span = span
    · subst hsame
      rw [List.find?_cons_of_neg (by simp)] at hfind
      cases hleads with
      | part hpiece => exact h.part hlaid houter hpiece hfind
      | called => exact absurd rfl (hproper rfl)
      | candidate _ hcandidate =>
        have hmem := List.mem_of_mem_head? hcandidate
        exact absurd rfl (hproper (Project.isExpressionStatement_of_mem_candidates hmem))
    · rw [List.find?_cons_of_pos (by simpa using hsame)] at hfind
      cases hfind
      exact hwithin
  itself hrejection hcandidate enclosing hfind := by
    cases hleads with
    | part hpiece => exact h.part hlaid houter hpiece hfind
    | called => cases hrejection
    | candidate => exact absurd ⟨rfl, hrejection⟩ hcandidate

/-- A name is looked up apart from what it refers to. -/
theorem LeadsTo.span_ne (h : LeadsTo project.definitions outer inner) (hlaid : project.LaidOut)
    (houter : project.Contains outer.node) (hcandidate : inner.IsRejectedCandidate) :
    outer.span ≠ inner.span := by
  cases h with
  | part | called => cases hcandidate.1
  | candidate hname hcandidates =>
    have hmem := List.mem_of_mem_head? hcandidates
    exact (hlaid.apart _ _ _ houter hname hmem hcandidate.2).symm

/-! ### Tracebacks -/

/-- What the innermost span is on the trail of a traceback other than that of the form at which
evaluation stopped. -/
theorem Traceback.quotes {fault : Fault} {kind : Kind} {span : Span} {around : List ActiveStep}
    {failing : ActiveStep} (hlaid : project.LaidOut)
    (h : Traceback project.definitions limit fault kind span trail around failing)
    (hfirst : Surrounded trail (around.headD failing))
    (hcontains : project.Contains failing.node ∧ ∀ step ∈ around, project.Contains step.node)
    {enclosing : Span}
    (hfind : (failing.span :: ((around.map ActiveStep.span).reverse ++ trail)).find? (· ≠ span) =
      some enclosing) :
    if failing.IsRejectedCandidate then
      ∀ reference ∈ around.getLast?, enclosing = reference.span
    else span.Within enclosing := by
  induction h with
  | @here trail failing _ hrejects _ =>
    split
    · exact nofun
    · rename_i hcandidate
      unfold Node.Rejects at hrejects
      split at hrejects
      · -- The form is rejected as a whole, so its own span does not count.
        rename_i whole hrejection
        obtain ⟨-, rfl⟩ := hrejects
        rw [List.find?_cons_of_neg (by simp [ActiveStep.span])] at hfind
        exact hfirst.itself (by simp [hrejection]) hcandidate enclosing hfind
      · -- A part of it is rejected, and a part is smaller than the form.
        have hmem := Node.stop_mem_inside hrejects
        refine hfirst.inside span (hlaid.within _ hcontains.1 _ hmem) ?_ enclosing hfind
        intro hform hsame
        exact hlaid.proper _ hcontains.1 hform (by rwa [← hsame] at hmem)
  | @inside trail outer failing around _ hleads htraceback ih =>
    obtain ⟨houter, haround⟩ := List.forall_mem_cons.1 hcontains.2
    have hinner := hfirst.leadsTo hlaid houter hleads
    have hquotes := ih hinner ⟨hcontains.1, haround⟩ (by simpa using hfind)
    split
    · -- A candidate quotes the innermost step that was active at the reference.
      rename_i hcandidate
      rw [if_pos hcandidate] at hquotes
      cases around with
      | cons next rest =>
        rw [List.getLast?_cons_cons]
        exact hquotes
      | nil =>
        have hspan : span = failing.span := htraceback.span_of_rejection hcandidate.2
        have houter := hleads.span_ne hlaid houter hcandidate
        subst hspan
        rw [List.find?_cons_of_neg (by simp), List.map_singleton, List.reverse_singleton,
          List.singleton_append, List.find?_cons_of_pos (by simpa using houter)] at hfind
        cases hfind
        exact fun reference hreference => by cases hreference; rfl
    · rename_i hcandidate
      rwa [if_neg hcandidate] at hquotes

/-- The innermost other span that was active is that of a step: of a form around, or of the name
that led to the form. -/
theorem Traceback.exists_parent {fault : Fault} {kind : Kind} {span : Span}
    {around : List ActiveStep} {failing : ActiveStep} {operation : Operation}
    (hlaid : project.LaidOut)
    (h : Traceback project.definitions limit fault kind span [] around failing)
    (hbegins : operation.BeginsWith (around.headD failing))
    (hcontains : project.Contains failing.node ∧ ∀ step ∈ around, project.Contains step.node)
    {enclosing : Span}
    (hfind : (failing.span :: (around.map ActiveStep.span).reverse).find? (· ≠ span) =
      some enclosing) :
    ∃ step ∈ around ++ [failing], step.span = enclosing ∧
      if failing.IsRejectedCandidate then step ∈ around.getLast?
      else span.ProperlyWithin step.span := by
  have hquotes := h.quotes hlaid (surrounded_of_outermost _) hcontains (by rwa [List.append_nil])
  split
  · rename_i hcandidate
    rw [if_pos hcandidate] at hquotes
    -- The operation itself does not begin with the step that a name leads to.
    cases hlast : around.getLast? with
    | none =>
      rw [List.getLast?_eq_none_iff] at hlast
      subst hlast
      exact absurd hcandidate.1 hbegins.via_ne
    | some reference =>
      have hmem := List.mem_append_left [failing] (List.mem_of_getLast? hlast)
      exact ⟨reference, hmem, (hquotes reference hlast).symm, rfl⟩
  · rename_i hcandidate
    rw [if_neg hcandidate] at hquotes
    have hother : enclosing ≠ span := by simpa using List.find?_some hfind
    have hmem := List.mem_of_find?_eq_some hfind
    obtain ⟨step, hstep, rfl⟩ : ∃ step ∈ around ++ [failing], step.span = enclosing := by
      rcases List.mem_cons.1 hmem with rfl | hmem
      · exact ⟨failing, by simp, rfl⟩
      · obtain ⟨step, hstep, rfl⟩ := List.mem_map.1 (List.mem_reverse.1 hmem)
        exact ⟨step, List.mem_append_left _ hstep, rfl⟩
    exact ⟨step, hstep, rfl, hquotes, hother.symm⟩

end

/-- **Quoted parents are real parents.** What is assumed of the text of a project holds of every
project that is loaded. Whatever an evaluator of such a project is then asked for, a fault about a
form quotes the form and at most one active step, each with at most 120 characters: the step of a
form around it that is larger. Only if a name led to the form itself, a declaration or an exported
default value, does it quote the innermost step that was active when the name was looked up. -/
theorem Project.parents_enclose :
    (∀ {sources : Sources} {entries : List String} {project : Project},
      load sources entries = .ok project → project.LaidOut) ∧
    ∀ {project : Project}, project.LaidOut → ∀ (limit supply : Nat) {operation : Operation},
      operation.WrittenIn project.Contains →
      ∀ {kind : Kind} {text : String} {parent : Option String},
        (((project.evaluator limit).answer operation).run ⟨[], supply⟩).1 =
          .error (.unsupportedConstruct kind text parent) →
        text.toList.length ≤ 120 ∧ (∀ quoted ∈ parent, quoted.toList.length ≤ 120) ∧
          ∃ span around failing,
            Traceback project.definitions limit (.unsupportedConstruct kind text parent) kind span
              [] around failing ∧
            operation.BeginsWith (around.headD failing) ∧
            text = (project.definitions.quote? span).getD "" ∧
            ∀ quoted ∈ parent, ∃ step ∈ around ++ [failing],
              project.definitions.quote? step.span = some quoted ∧
              if failing.IsRejectedCandidate then step ∈ around.getLast?
              else span.ProperlyWithin step.span := by
  refine ⟨laidOut_of_load, ?_⟩
  intro project hlaid limit supply operation hoperation kind text parent hfault
  obtain ⟨result, after, _, hrun, -, -, hresult⟩ :=
    (project.evaluator limit).answer_traced project.closed hoperation supply trivial
  rw [hrun] at hfault
  subst hfault
  cases hresult with
  | error htraced =>
  obtain ⟨first, hfirst, kind', span, around, failing, rfl, htraceback, hcontains⟩ := htraced rfl
  have heq := htraceback.fault_eq
  rw [List.append_nil] at heq
  injection heq with hkind htext hparent
  subst hkind
  refine ⟨?_, ?_, span, around, failing, htraceback, hfirst, htext, ?_⟩
  · rw [htext]
    exact project.definitions.getD_quote?_length span
  · intro quoted hquoted
    rw [hparent] at hquoted
    obtain ⟨enclosing, -, hquote⟩ := Option.bind_eq_some_iff.1 hquoted
    exact Definitions.quote?_length hquote
  · intro quoted hquoted
    rw [hparent] at hquoted
    obtain ⟨enclosing, hfind, hquote⟩ := Option.bind_eq_some_iff.1 hquoted
    obtain ⟨step, hmem, rfl, hplace⟩ := htraceback.exists_parent hlaid hfirst hcontains hfind
    exact ⟨step, hmem, hquote, hplace⟩

/-! ### The parent of an element -/

namespace Counting

open Snippet (path place)

def element : Expr := .other (place 14 21) .updateExpression

def list : Expr := .array (place 13 22) [.item (.plain element)]

def declarator : Declarator := .mk (place 6 22) "list" list

/-- A list with an element that has no value in the sub-language. -/
def text : String := "const list = [count++]"

def module : Module := ⟨[.statement (.declares (place 0 22) [declarator])]⟩

/-- The project of that list. -/
def project : Project := .add .empty ⟨path "main.ts", text, module, []⟩ [] rfl

/-- Whether reading came to that module. Trees have no equality that can be computed, so the tree is
taken apart. -/
def isModule : Except ProjectFault Module → Bool
  | .ok ⟨[.statement (.declares whole [.mk span (some name)
      (some (.array list [.item (.plain (.other element .updateExpression))]))])]⟩ =>
    (whole, span, name, list, element) =
      (place 0 22, place 6 22, "list", place 13 22, place 14 21)
  | _ => false

theorem eq_of_isModule {result : Except ProjectFault Module} (h : isModule result = true) :
    result = .ok module := by
  unfold isModule at h
  split at h
  · cases of_decide_eq_true h
    rfl
  · cases h

theorem parseSource_text : parseSource (path "main.ts") (withoutMark text) = .ok module :=
  eq_of_isModule (by decide +kernel)

theorem load_project : Project.load (.ofList [("main.ts", text)]) ["main.ts"] = .ok project := by
  rw [Project.load_eq_outcome, outcome_eq_ok_iff]
  exact .single (.read rfl rfl parseSource_text rfl)

/-- The element is quoted with the list around it. -/
theorem parent_eq_list :
    Project.load (.ofList [("main.ts", text)]) ["main.ts"] = .ok project ∧ project.LaidOut ∧
      project.Contains (.declarator declarator) ∧
      (((project.evaluator 8).answer (.entry (.declarator declarator))).run ⟨[], 0⟩).1 =
        .error (.unsupportedConstruct .updateExpression "count++" (some "[count++]")) ∧
      ∃ step : ActiveStep, project.definitions.quote? step.span = some "[count++]" := by
  have hlaid : project.LaidOut := Project.parents_enclose.1 load_project
  have hoperation : (Operation.entry (.declarator declarator)).WrittenIn project.Contains :=
    ⟨_, List.mem_cons_self, _, List.mem_cons_self, _, List.mem_cons_self,
      Node.Holds.self.child (List.mem_of_getElem? (i := 2) rfl)⟩
  have hfault : (((project.evaluator 8).answer (.entry (.declarator declarator))).run ⟨[], 0⟩).1 =
      .error (.unsupportedConstruct .updateExpression "count++" (some "[count++]")) := rfl
  obtain ⟨-, -, span, around, failing, -, -, -, hparent⟩ :=
    Project.parents_enclose.2 hlaid 8 0 hoperation hfault
  obtain ⟨step, -, hquote, -⟩ := hparent _ rfl
  exact ⟨load_project, hlaid, hoperation, hfault, step, hquote⟩

end Counting

end StaticConfig
