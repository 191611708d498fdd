import StaticConfig.Evaluation.Call

/-!
# Scopes as histories of bindings

Scopes branch: any scope that was ever made can be the origin of another one, and it goes on being
used beside it. What a name means in a scope is still a matter of one list, the bindings on the way
from the root to it.

- `Scope.History`, `Scope.History.path`: how some scopes came about, and the frames on the way to
  one of them;
- `Scope.lookup?_eq_some_iff`: a name means its last binding in the concatenation of the frames;
- `getElem?_bindParams`: what a call binds, argument by argument;
- `lookup_of_history`: the two together, for every scope of a history and every function that was
  made in it.
-/

namespace StaticConfig

variable {α : Type}

/-! ### The last binding of a name -/

/-- The last binding of `name` in a list of bindings gives it `value`. -/
def LastBinds (name : String) (value : α) (bindings : List (String × α)) : Prop :=
  ∃ before after, bindings = before ++ (name, value) :: after ∧ ∀ binding ∈ after, binding.1 ≠ name

namespace Scope

theorem lastBinding?_append (name : String) (outer inner : List (String × α)) :
    lastBinding? name (outer ++ inner) =
      (lastBinding? name inner).or (lastBinding? name outer) := by
  unfold lastBinding?
  rw [List.reverse_append, List.lookup_append]

/-- Walking the frames from the innermost one outwards is scanning all bindings from their end. -/
theorem lookup?_eq_lastBinding? (s : Scope α) (name : String) :
    s.lookup? name = lastBinding? name s.bindings := by
  obtain ⟨frames⟩ := s
  induction frames with
  | nil => rfl
  | cons frame outer ih =>
    have hbindings : bindings ⟨frame :: outer⟩ = bindings ⟨outer⟩ ++ frame :=
      bindings_extend ⟨outer⟩ frame
    rw [hbindings, lastBinding?_append, ← ih]
    exact lookup?_extend ⟨outer⟩ frame name

theorem lastBinding?_eq_some_iff {name : String} {value : α} {bindings : List (String × α)} :
    lastBinding? name bindings = some value ↔ LastBinds name value bindings := by
  unfold lastBinding?
  rw [List.lookup_eq_some_iff]
  constructor
  · rintro ⟨later, earlier, hreverse, hlater⟩
    refine ⟨earlier.reverse, later.reverse, ?_, ?_⟩
    · rw [← List.reverse_reverse bindings, hreverse]
      simp
    · intro binding hbinding
      exact (bne_iff_ne.1 (hlater binding (List.mem_reverse.1 hbinding))).symm
  · rintro ⟨before, after, rfl, hafter⟩
    refine ⟨after.reverse, before.reverse, by simp, ?_⟩
    intro binding hbinding
    exact bne_iff_ne.2 (hafter binding (List.mem_reverse.1 hbinding)).symm

theorem lookup?_eq_some_iff {s : Scope α} {name : String} {value : α} :
    s.lookup? name = some value ↔ LastBinds name value s.bindings := by
  rw [lookup?_eq_lastBinding?, lastBinding?_eq_some_iff]

theorem lastBinding?_eq_none_iff {name : String} {bindings : List (String × α)} :
    lastBinding? name bindings = none ↔ ∀ binding ∈ bindings, binding.1 ≠ name := by
  unfold lastBinding?
  rw [List.lookup_eq_none_iff]
  constructor
  · intro hnone binding hbinding
    exact (bne_iff_ne.1 (hnone binding (List.mem_reverse.2 hbinding))).symm
  · intro hnone binding hbinding
    exact bne_iff_ne.2 (hnone binding (List.mem_reverse.1 hbinding)).symm

theorem lookup?_eq_none_iff {s : Scope α} {name : String} :
    s.lookup? name = none ↔ ∀ binding ∈ s.bindings, binding.1 ≠ name := by
  rw [lookup?_eq_lastBinding?, lastBinding?_eq_none_iff]

/-! ### Histories -/

/-- The root scope and `count` scopes more, each made from one that was there before. -/
inductive History (α : Type) : (count : Nat) → Type
  | root : History α 0
  | bind {count : Nat} (earlier : History α count) (origin : Fin (count + 1)) (name : String)
    (value : α) : History α (count + 1)
  | extend {count : Nat} (earlier : History α count) (origin : Fin (count + 1))
    (added : List (String × α)) : History α (count + 1)

namespace History

/-- The scopes of a history; the newest one is the last. -/
def scope : {count : Nat} → History α count → Fin (count + 1) → Scope α
  | _, root, _ => .root
  | _, bind earlier origin name value, i =>
    i.lastCases ((earlier.scope origin).bind name value) earlier.scope
  | _, extend earlier origin added, i =>
    i.lastCases ((earlier.scope origin).extend added) earlier.scope

/-- What was bound on the way from the root to a scope, step by step. -/
def path : {count : Nat} → History α count → Fin (count + 1) → List (List (String × α))
  | _, root, _ => []
  | _, bind earlier origin name value, i =>
    i.lastCases (earlier.path origin ++ [[(name, value)]]) earlier.path
  | _, extend earlier origin added, i =>
    i.lastCases (earlier.path origin ++ [added]) earlier.path

/-- A new scope holds what its origin holds and what is added; all others stay as they were. -/
theorem bindings_scope {count : Nat} (h : History α count) (i : Fin (count + 1)) :
    (h.scope i).bindings = (h.path i).flatten := by
  induction h with
  | root => rfl
  | bind earlier origin name value ih =>
    cases i using Fin.lastCases with
    | last => simp [scope, path, Scope.bind, bindings_extend, ih]
    | cast i => simp [scope, path, ih]
  | extend earlier origin added ih =>
    cases i using Fin.lastCases with
    | last => simp [scope, path, bindings_extend, ih]
    | cast i => simp [scope, path, ih]

end History

end Scope

/-! ### The scope of a call -/

/-- Every parameter is bound to the argument at its own position, or to `undefined`. -/
theorem getElem?_bindParams (params : List String) (args : List Value) (k : Nat) :
    (bindParams params args)[k]? =
      params[k]?.map fun param => (param, args[k]?.getD .undefined) := by
  induction params generalizing args k with
  | nil => rfl
  | cons param rest ih =>
    cases args with
    | nil => cases k <;> simp [bindParams, ih]
    | cons arg args => cases k <;> simp [bindParams, ih]

/-- Position `k` is the last one at which a parameter has the name. -/
def LastParam (params : List String) (name : String) (k : Nat) : Prop :=
  params[k]? = some name ∧ ∀ j, k < j → params[j]? ≠ some name

theorem lastBinds_bindParams {params : List String} {name : String} {k : Nat}
    (h : LastParam params name k) (args : List Value) :
    LastBinds name (args[k]?.getD .undefined) (bindParams params args) := by
  obtain ⟨hk, hlater⟩ := h
  have hbinding : (bindParams params args)[k]? = some (name, args[k]?.getD .undefined) := by
    rw [getElem?_bindParams, hk]
    rfl
  obtain ⟨hlt, hget⟩ := List.getElem?_eq_some_iff.1 hbinding
  refine ⟨(bindParams params args).take k, (bindParams params args).drop (k + 1), ?_, ?_⟩
  · rw [← hget, ← List.drop_eq_getElem_cons hlt, List.take_append_drop]
  · intro binding hmem
    obtain ⟨j, hj⟩ := List.mem_iff_getElem?.1 hmem
    rw [List.getElem?_drop, getElem?_bindParams] at hj
    obtain ⟨param, hparam, rfl⟩ := Option.map_eq_some_iff.1 hj
    intro hname
    exact hlater (k + 1 + j) (by omega) (hname ▸ hparam)

theorem mem_params_of_mem_bindParams {params : List String} {args : List Value}
    {binding : String × Value} (h : binding ∈ bindParams params args) : binding.1 ∈ params := by
  obtain ⟨k, hk⟩ := List.mem_iff_getElem?.1 h
  rw [getElem?_bindParams] at hk
  obtain ⟨param, hparam, rfl⟩ := Option.map_eq_some_iff.1 hk
  exact List.mem_of_getElem? hparam

namespace Scope

theorem lookup?_call {params : List String} {name : String} {k : Nat} (s : Scope Value)
    (h : LastParam params name k) (args : List Value) :
    (s.extend (bindParams params args)).lookup? name = some (args[k]?.getD .undefined) := by
  rw [lookup?_extend, lastBinding?_eq_some_iff.2 (lastBinds_bindParams h args)]
  rfl

theorem lookup?_call_of_not_mem {params : List String} {name : String} (s : Scope Value)
    (h : name ∉ params) (args : List Value) :
    (s.extend (bindParams params args)).lookup? name = s.lookup? name := by
  have hnone : lastBinding? name (bindParams params args) = none := by
    rw [lastBinding?_eq_none_iff]
    intro binding hbinding hname
    exact h (hname ▸ mem_params_of_mem_bindParams hbinding)
  rw [lookup?_extend, hnone]
  rfl

end Scope

/-- **A name means its last binding.** However scopes were made from each other, in each of them a
name has the value of its last binding among all that was bound on the way from the root, and none
exactly if nothing on the way binds it. A function that was made in one of them evaluates its body
where the last of equally named parameters counts, a parameter without an argument is undefined,
and every other name means what it means in that scope. -/
theorem lookup_of_history {count : Nat} (h : Scope.History Value count) (i : Fin (count + 1)) :
    (∀ name value,
      (h.scope i).lookup? name = some value ↔ LastBinds name value (h.path i).flatten) ∧
    (∀ name, (h.scope i).lookup? name = none ↔
      ∀ frame ∈ h.path i, ∀ binding ∈ frame, binding.1 ≠ name) ∧
    ∀ tag code args, ∃ inner : Scope Value,
      (∀ visit, (Value.closure tag code (h.scope i)).call visit args =
        visit inner (.body code.span code.body)) ∧
      (∀ name k, LastParam code.params name k →
        inner.lookup? name = some (args[k]?.getD .undefined)) ∧
      ∀ name, name ∉ code.params → inner.lookup? name = (h.scope i).lookup? name := by
  refine ⟨fun name value => ?_, fun name => ?_, fun tag code args => ?_⟩
  · rw [Scope.lookup?_eq_some_iff, h.bindings_scope]
  · rw [Scope.lookup?_eq_none_iff, h.bindings_scope]
    constructor
    · intro hnone frame hframe binding hbinding
      exact hnone binding (List.mem_flatten.2 ⟨frame, hframe, hbinding⟩)
    · intro hnone binding hbinding
      obtain ⟨frame, hframe, hmem⟩ := List.mem_flatten.1 hbinding
      exact hnone frame hframe binding hmem
  · refine ⟨(h.scope i).extend (bindParams code.params args), fun visit => ?_, ?_, ?_⟩
    · exact Value.call_closure visit tag code (h.scope i) args
    · exact fun name k hlast => (h.scope i).lookup?_call hlast args
    · exact fun name hname => (h.scope i).lookup?_call_of_not_mem hname args

/-- Two branches of one origin: each sees its own bindings, the origin neither of them. -/
example :
    let origin : Scope.History Nat 1 := .bind .root 0 "x" 1
    let branches : Scope.History Nat 3 := .bind (.extend origin 1 [("x", 2), ("x", 3)]) 1 "x" 4
    [1, 2, 3].map (fun i => (branches.scope i).lookup? "x") = [some 1, some 3, some 4] := by
  decide

end StaticConfig
