import StaticConfig.Proofs.Evaluation.Invariant
import StaticConfig.Proofs.Evaluation.Session
import StaticConfig.Proofs.Value.Storage

/-!
# What evaluations store

Whatever an evaluator is asked for in turn, all values that come up live in one storage: an
evaluation adds what it builds, each value under a tag that it draws, and changes nothing that is
there. So equal tags mean one value among all the answers of a session, and their records list no
key twice.

- `uniform_stored`: being stored is known of all values alike, so evaluations and calls keep it;
- `Evaluator.session_stored`: a session of any operations.
-/

namespace StaticConfig

open Eval (Ensures)

/-- All values of a run are stored, in storages that draw their tags from the machine. -/
def Knowledge.stored : Knowledge Storage where
  fits σ supply := σ.supply = supply
  inner σ v := v.StoredIn σ
  outer σ v := v.StoredIn σ
  inner_mono hle h := h.mono hle
  outer_of_inner h := h
  inner_primitive _ _ := Value.primitive_cases .undefined .null .bool .number .string
  inner_items h := h.items
  inner_fields h := h.fields
  new_list := by
    rintro σ _ items rfl hitems
    exact ⟨_, σ.le_push _, rfl,
      .list (σ.holds_push _) fun item hitem => (hitems item hitem).mono (σ.le_push _)⟩
  new_record := by
    rintro σ _ fields rfl hbuilt hfields
    exact ⟨_, σ.le_push _, rfl,
      .record (σ.holds_push _) hbuilt fun entry hentry => (hfields entry hentry).mono (σ.le_push _)⟩
  new_method := by
    rintro σ _ receiver m rfl hreceiver
    exact ⟨_, σ.le_push _, rfl, .method (σ.holds_push _) (hreceiver.mono (σ.le_push _))⟩

/-- Started on the empty trail with the storage's next tag, the computation comes back to that trail
and to a later storage, and its result is stored there. -/
abbrev Eval.Stores (σ : Storage) (step : Eval Value) : Prop :=
  Ensures Knowledge.stored.fits (fun _ => True) [] σ Knowledge.stored.outer step

theorem uniform_stored : Knowledge.stored.Uniform where
  inner_of_outer h := h
  scope h := h.scope
  receiver h := h.receiver
  new_closure := by
    rintro σ _ scope code rfl hscope
    exact ⟨_, σ.le_push _, rfl, .closure (σ.holds_push _) fun frame hframe binding hbinding =>
      (hscope frame hframe binding hbinding).mono (σ.le_push _)⟩

/-! ### Sessions -/

/-- Whether all values that an operation is given are stored. -/
def Operation.StoredIn (σ : Storage) : Operation → Prop
  | .evaluate scope _ | .expression scope _ | .statement scope _ => scope.StoredIn σ
  | .entry _ => True
  | .call callee args => callee.StoredIn σ ∧ ∀ arg ∈ args, arg.StoredIn σ

theorem Operation.StoredIn.mono {σ τ : Storage} {operation : Operation}
    (h : operation.StoredIn σ) (hle : σ ≤ τ) : operation.StoredIn τ := by
  cases operation with
  | evaluate | expression | statement => exact Scope.StoredIn.mono h hle
  | entry => trivial
  | call callee args => exact ⟨h.1.mono hle, fun arg harg => (h.2 arg harg).mono hle⟩

theorem Evaluator.answer_stored (evaluator : Evaluator) {σ : Storage} {operation : Operation}
    (h : operation.StoredIn σ) : Eval.Stores σ (evaluator.answer operation) := by
  have heval {scope : Scope Value} (hscope : scope.StoredIn σ) (node : Node) :
      Eval.Stores σ (evaluator.eval scope node) :=
    uniform_stored.evaluate_ensures evaluator.definitions evaluator.limit _ hscope node
  cases operation with
  | evaluate scope node => exact heval h node
  | entry node => exact heval (show Scope.root.StoredIn σ from nofun) node
  | expression scope e => exact heval h (.expr e)
  | statement scope s => exact heval h (.stmt s)
  | call callee args => exact uniform_stored.call_ensures _ _ _ h.1 h.2

/-- **A session has one storage.** All values that the operations of a session come to, among them
and together with those that they were given, live in one storage. By induction on the operations:
each one adds to the storage that the ones before it left. -/
theorem Evaluator.session_stored (evaluator : Evaluator) (operations : List Operation)
    (σ : Storage) (h : ∀ operation ∈ operations, operation.StoredIn σ) :
    ∃ τ, σ ≤ τ ∧ (session evaluator.answer operations ⟨[], σ.supply⟩).2.supply = τ.supply ∧
      ∀ v, .ok v ∈ (session evaluator.answer operations ⟨[], σ.supply⟩).1 → v.StoredIn τ := by
  induction operations generalizing σ with
  | nil => exact ⟨σ, le_rfl, rfl, nofun⟩
  | cons operation rest ih =>
    obtain ⟨hoperation, hrest⟩ := List.forall_mem_cons.1 h
    obtain ⟨result, _, τ, hrun, hle, rfl, hresult⟩ :=
      evaluator.answer_stored hoperation σ.supply rfl
    obtain ⟨υ, hle', hlast, hothers⟩ := ih τ fun other hother => (hrest other hother).mono hle
    have hsession : session evaluator.answer (operation :: rest) ⟨[], σ.supply⟩ =
        (result :: (session evaluator.answer rest ⟨[], τ.supply⟩).1,
          (session evaluator.answer rest ⟨[], τ.supply⟩).2) := by
      rw [session, hrun]
    rw [hsession]
    refine ⟨υ, le_trans hle hle', hlast, fun v hv => ?_⟩
    rcases List.mem_cons.1 hv with hfirst | hlater
    · subst hfirst
      cases hresult with
      | ok hvalue => exact hvalue.mono hle'
    · exact hothers v hlater

end StaticConfig
