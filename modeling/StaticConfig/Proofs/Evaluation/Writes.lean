import Mathlib.Data.Finset.Card
import StaticConfig.Evaluation.Evaluate
import StaticConfig.Proofs.Snippet
import StaticConfig.Proofs.Value.Record

/-!
# Records as logs of writes

A record comes about by a sequence of writes, one for each key that is inserted and one for each
entry of a record that is merged. What it holds is a matter of that log alone.

- `Record.Shows`: each key that was written, in the order of the first writes, with the value of its
  last write;
- `Record.replay_shows`: what a sequence of operations leaves shows the log of its writes;
- `run_evalObject`: an object literal replays its members, from left to right;
- `Record.keys_merge`, `Record.get?_merge`: what a merge does, from which its laws follow.

`record_history` puts them together.
-/

namespace StaticConfig

namespace Record

variable {α : Type}

/-! ### Operations and their logs -/

/-- An operation that changes a record. -/
inductive Edit (α : Type)
  | insert (key : String) (value : α)
  | merge (other : Record α)

/-- The record after an operation. -/
def Edit.apply (r : Record α) : Edit α → Record α
  | insert key value => r.insert key value
  | merge other => r.merge other

/-- The writes of an operation: a merge writes every entry of the other record, in its order. -/
def Edit.writes : Edit α → List (String × α)
  | insert key value => [(key, value)]
  | merge other => other.toList

/-- The record that a sequence of operations leaves, from the empty one. -/
def replay (edits : List (Edit α)) : Record α := edits.foldl Edit.apply empty

/-- The record shows the log: the written keys in the order of their first writes, each with the
value of its last write. -/
structure Shows (r : Record α) (log : List (String × α)) : Prop where
  keys : r.keys = (log.map (·.1)).eraseDups
  get? : ∀ key, r.get? key = log.reverse.lookup key
  size : r.size = (log.map (·.1)).toFinset.card
  found : ∀ key, (r.get? key).isSome ↔ key ∈ log.map (·.1)

/-! ### What a record shows -/

theorem keys_insert_of_not_mem {r : Record α} {key : String} (value : α) (h : key ∉ r.keys) :
    (r.insert key value).keys = r.keys ++ [key] := by
  have hentries := congrArg (List.map (·.1)) (toList_insert_of_not_mem value h)
  rwa [List.map_append] at hentries

theorem eraseDups_concat (keys : List String) (key : String) :
    (keys ++ [key]).eraseDups = if key ∈ keys then keys.eraseDups else keys.eraseDups ++ [key] := by
  rw [List.eraseDups_append]
  by_cases h : key ∈ keys <;> simp [List.removeAll, List.eraseDups_cons, h]

/-- The order of the keys and their values say all there is to say of the log. -/
theorem Shows.mk' {r : Record α} {log : List (String × α)} (hnodup : r.keys.Nodup)
    (hkeys : r.keys = (log.map (·.1)).eraseDups)
    (hget : ∀ key, r.get? key = log.reverse.lookup key) : r.Shows log := by
  have hmem (key : String) : key ∈ r.keys ↔ key ∈ log.map (·.1) := by
    rw [hkeys, List.mem_eraseDups]
  refine ⟨hkeys, hget, ?_, fun key => (get?_isSome_iff hnodup).trans (hmem key)⟩
  have hsame : r.keys.toFinset = (log.map (·.1)).toFinset := by
    ext key
    rw [List.mem_toFinset, List.mem_toFinset, hmem]
  rw [← hsame, List.toFinset_card_of_nodup hnodup, Record.keys, List.length_map]
  rfl

theorem nodup_keys_ofList (log : List (String × α)) : (ofList log).keys.Nodup :=
  nodup_keys_merge (r := empty) ⟨log⟩ List.nodup_nil

/-- A write shows at the end of the log: it is the first of its key or it is not, and it is the last
one of its key in any case. -/
theorem shows_ofList (log : List (String × α)) : (ofList log).Shows log := by
  refine .mk' (nodup_keys_ofList log) ?_ ?_
  · induction log using List.reverseRecOn with
    | nil => rfl
    | append_singleton log entry ih =>
      have hwritten : ofList (log ++ [entry]) = (ofList log).insert entry.1 entry.2 := by
        rw [ofList, List.foldl_append]
        rfl
      have hmem : entry.1 ∈ (ofList log).keys ↔ entry.1 ∈ log.map (·.1) := by
        rw [ih, List.mem_eraseDups]
      rw [hwritten, List.map_append, List.map_singleton, eraseDups_concat, ← ih]
      by_cases h : entry.1 ∈ (ofList log).keys
      · rw [if_pos (hmem.1 h), keys_insert_of_mem _ h]
      · rw [if_neg (mt hmem.2 h), keys_insert_of_not_mem _ h]
  · intro key
    induction log using List.reverseRecOn with
    | nil => rfl
    | append_singleton log entry ih =>
      rw [ofList, List.foldl_append, List.reverse_append, List.reverse_singleton,
        List.singleton_append, List.lookup_cons, ← ih]
      refine (get?_insert (ofList log) entry.1 key entry.2).trans ?_
      by_cases h : key = entry.1
      · rw [if_pos h, beq_iff_eq.2 h]
      · rw [if_neg h, beq_eq_false_iff_ne.2 h]

theorem replay_eq_ofList (edits : List (Edit α)) :
    replay edits = ofList (edits.flatMap Edit.writes) := by
  rw [replay, ofList, List.flatMap_def, List.foldl_flatten, List.foldl_map]
  congr
  funext r edit
  cases edit <;> rfl

theorem replay_shows (edits : List (Edit α)) : (replay edits).Shows (edits.flatMap Edit.writes) :=
  replay_eq_ofList edits ▸ shows_ofList _

theorem nodup_keys_replay (edits : List (Edit α)) : (replay edits).keys.Nodup :=
  replay_eq_ofList edits ▸ nodup_keys_ofList _

/-! ### Merging -/

variable {r s t : Record α}

/-- A record with distinct keys is known by their order and their values. -/
theorem ext_of_nodup (hr : r.keys.Nodup) (hkeys : r.keys = s.keys)
    (hget : ∀ key, r.get? key = s.get? key) : r = s := by
  obtain ⟨xs⟩ := r
  obtain ⟨ys⟩ := s
  have hs : (⟨ys⟩ : Record α).keys.Nodup := hkeys ▸ hr
  have hkeys : xs.map (·.1) = ys.map (·.1) := hkeys
  refine congrArg Record.mk (List.ext_getElem ?_ fun i hi hi' => ?_)
  · simpa using congrArg List.length hkeys
  · have hkey : xs[i].1 = ys[i].1 := by
      have := List.getElem_of_eq hkeys (by simpa using hi)
      simpa using this
    have hvalue : (⟨xs⟩ : Record α).get? xs[i].1 = some xs[i].2 :=
      (get?_eq_some_iff hr).2 (List.getElem_mem hi)
    rw [hget, hkey] at hvalue
    have hvalue' : (⟨ys⟩ : Record α).get? ys[i].1 = some ys[i].2 :=
      (get?_eq_some_iff hs).2 (List.getElem_mem hi')
    exact Prod.ext hkey (Option.some.inj (hvalue.symm.trans hvalue'))

theorem eraseDups_of_nodup {keys : List String} (h : keys.Nodup) : keys.eraseDups = keys := by
  induction keys with
  | nil => rfl
  | cons key keys ih =>
    obtain ⟨hkey, hkeys⟩ := List.nodup_cons.1 h
    have hall : keys.filter (fun other => !other == key) = keys :=
      List.filter_eq_self.2 fun other hother => by
        rw [beq_eq_false_iff_ne.2 (ne_of_mem_of_not_mem hother hkey)]
        rfl
    rw [List.eraseDups_cons, hall, ih hkeys]

/-- A record shows its own entries as a log. -/
theorem shows_toList (hr : r.keys.Nodup) : r.Shows r.toList := by
  have hshows := shows_ofList r.entries
  rwa [ofList_of_nodup hr] at hshows

theorem merge_shows (hr : r.keys.Nodup) (s : Record α) :
    (r.merge s).Shows (r.toList ++ s.toList) := by
  have hmerge : r.merge s = ofList (r.entries ++ s.entries) := by
    rw [ofList, List.foldl_append, ← ofList, ofList_of_nodup hr]
    rfl
  exact hmerge ▸ shows_ofList _

theorem keys_merge (hr : r.keys.Nodup) (hs : s.keys.Nodup) :
    (r.merge s).keys = r.keys ++ s.keys.filter (· ∉ r.keys) := by
  rw [(merge_shows hr s).keys, List.map_append]
  show (r.keys ++ s.keys).eraseDups = _
  rw [List.eraseDups_append, eraseDups_of_nodup hr, List.removeAll,
    eraseDups_of_nodup (hs.filter _)]
  congr
  funext key
  simp

theorem get?_merge (hr : r.keys.Nodup) (hs : s.keys.Nodup) (key : String) :
    (r.merge s).get? key = (s.get? key).or (r.get? key) := by
  rw [(merge_shows hr s).get?, List.reverse_append, List.lookup_append, ← (shows_toList hr).get?,
    ← (shows_toList hs).get?]

theorem merge_empty (r : Record α) : r.merge empty = r := rfl

theorem empty_merge (hr : r.keys.Nodup) : empty.merge r = r := ofList_of_nodup hr

theorem merge_self (hr : r.keys.Nodup) : r.merge r = r := by
  refine ext_of_nodup (nodup_keys_merge r hr) ?_ fun key => ?_
  · rw [keys_merge hr hr, List.filter_eq_nil_iff.2, List.append_nil]
    intro key hkey
    simpa using hkey
  · rw [get?_merge hr hr, Option.or_self]

theorem merge_merge_self (hr : r.keys.Nodup) (hs : s.keys.Nodup) :
    (r.merge s).merge s = r.merge s := by
  have hrs := nodup_keys_merge s hr
  refine ext_of_nodup (nodup_keys_merge s hrs) ?_ fun key => ?_
  · rw [keys_merge hrs hs, List.filter_eq_nil_iff.2, List.append_nil]
    intro key hkey
    rw [keys_merge hr hs]
    simp [hkey, Classical.em]
  · rw [get?_merge hrs hs, get?_merge hr hs, ← Option.or_assoc, Option.or_self]

theorem merge_assoc (hr : r.keys.Nodup) (hs : s.keys.Nodup) (ht : t.keys.Nodup) :
    (r.merge s).merge t = r.merge (s.merge t) := by
  have hrs := nodup_keys_merge s hr
  have hst := nodup_keys_merge t hs
  refine ext_of_nodup (nodup_keys_merge t hrs) ?_ fun key => ?_
  · rw [keys_merge hrs ht, keys_merge hr hst, keys_merge hr hs, keys_merge hs ht,
      List.filter_append, List.filter_filter, List.append_assoc]
    congr 2
    refine List.filter_congr fun key _ => ?_
    simp only [List.mem_append, List.mem_filter, decide_eq_true_eq]
    grind
  · rw [get?_merge hrs ht, get?_merge hr hst, get?_merge hr hs, get?_merge hs ht, Option.or_assoc]

end Record

/-! ### Object literals -/

section Literal

variable (definitions : Definitions) (visit : Scope Value → Node → Eval Value)

/-- The operation that a member of an object literal stands for. -/
def memberEdit (scope : Scope Value) : Member → Eval (Record.Edit Value)
  | .entry key e => do
    let key ← evalKey definitions visit scope key
    return .insert key (← visitExpr visit scope e)
  | .shorthand ident => return .insert ident.name (← evalName definitions visit scope ident)
  | .spread e => do
    match ← visitExpr visit scope e with
    | .record _ other => return .merge other
    | value => Eval.fail (.typeMismatch "record" value.typeName)
  | .other span kind => definitions.unsupported kind span

variable {definitions visit} {scope : Scope Value}

theorem evalMember_eq (fields : Record Value) (member : Member) :
    evalMember definitions visit scope fields member =
      (return (← memberEdit definitions visit scope member).apply fields) := by
  cases member with
  | entry key e =>
    simp only [evalMember, memberEdit, bind_assoc, pure_bind]
    rfl
  | shorthand ident =>
    simp only [evalMember, memberEdit, bind_assoc, pure_bind]
    rfl
  | spread e =>
    rw [evalMember, memberEdit, bind_assoc]
    refine bind_congr fun value => ?_
    cases value <;> rfl
  | other span kind => rfl

theorem foldlM_evalMember (fields : Record Value) (members : List Member) :
    members.foldlM (evalMember definitions visit scope) fields =
      (return (← members.mapM (memberEdit definitions visit scope)).foldl Record.Edit.apply
        fields) := by
  induction members generalizing fields with
  | nil => rfl
  | cons member members ih =>
    rw [List.foldlM_cons, List.mapM_cons, evalMember_eq]
    simp only [bind_assoc, pure_bind, ih, List.foldl_cons]

/-- An object literal replays the operations of its members. -/
theorem run_evalObject (span : Span) (members : List Member) (m : Machine) :
    (evalExpr definitions visit scope (.object span members)).run m =
      match (members.mapM (memberEdit definitions visit scope)).run m with
      | (.ok edits, after) =>
        (.ok (.record after.supply (Record.replay edits)), ⟨after.trail, after.supply + 1⟩)
      | (.error fault, after) => (.error fault, after) := by
  rw [evalExpr, foldlM_evalMember, bind_assoc, Eval.run_bind]
  rcases (members.mapM (memberEdit definitions visit scope)).run m with ⟨fault | edits, after⟩ <;>
    rfl

end Literal

/-- **Records as logs of writes.** Whatever is inserted and merged, a record that began empty shows
the log of its writes; so does the record of an object literal, whose members write from left to
right, each its key or what it spreads, unless one of them fails. On such records a merge can be
repeated and regrouped, and a merge with the record itself or with an empty one changes nothing. -/
theorem record_history {α : Type} :
    (∀ edits : List (Record.Edit α),
      (Record.replay edits).Shows (edits.flatMap Record.Edit.writes)) ∧
    (∀ (definitions : Definitions) (visit : Scope Value → Node → Eval Value) (scope : Scope Value)
      (span : Span) (members : List Member) (m : Machine),
      let edits := (members.mapM (memberEdit definitions visit scope)).run m
      let literal := (evalExpr definitions visit scope (.object span members)).run m
      (∀ fault after, edits = (.error fault, after) → literal = (.error fault, after)) ∧
      ∀ done after, edits = (.ok done, after) → ∃ fields : Record Value,
        literal = (.ok (.record after.supply fields), ⟨after.trail, after.supply + 1⟩) ∧
          fields.Shows (done.flatMap Record.Edit.writes)) ∧
    ∀ first second third : List (Record.Edit α),
      let r := Record.replay first
      let s := Record.replay second
      let t := Record.replay third
      (r.merge s).merge s = r.merge s ∧ (r.merge s).merge t = r.merge (s.merge t) ∧
        r.merge r = r ∧ r.merge .empty = r ∧ Record.empty.merge r = r := by
  refine ⟨Record.replay_shows, ?_, fun first second third => ?_⟩
  · intro definitions visit scope span members m
    dsimp only
    rw [run_evalObject]
    refine ⟨fun fault after hedits => ?_, fun edits after hedits => ?_⟩
    · rw [hedits]
    · rw [hedits]
      exact ⟨Record.replay edits, rfl, Record.replay_shows edits⟩
  · have hr := Record.nodup_keys_replay first
    have hs := Record.nodup_keys_replay second
    have ht := Record.nodup_keys_replay third
    exact ⟨Record.merge_merge_self hr hs, Record.merge_assoc hr hs ht, Record.merge_self hr,
      Record.merge_empty _, Record.empty_merge hr⟩

/-! ### A literal that spreads a record -/

namespace Spreading

open Snippet (place visit)

/-- `key: "value"`, where the value stands at `start`. -/
def entry (key : String) (start : Nat) (value : String) : Member :=
  .entry (.fixed key) (.string (place start (start + 3)) value)

/-- `b: "x", ...` and the object `a: "y", b: "z"`, and last `a: "w"`. -/
def members : List Member :=
  [entry "b" 5 "x", .spread (.object (place 13 31) [entry "a" 17 "y", entry "b" 25 "z"]),
    entry "a" 36 "w"]

/-- What the members do. -/
def edits : List (Record.Edit Value) :=
  [.insert "b" (.string "x"), .merge ⟨[("a", .string "y"), ("b", .string "z")]⟩,
    .insert "a" (.string "w")]

/-- The key `b` stands first and has the value that was spread. -/
theorem record_history_spread :
    (members.mapM (memberEdit .none visit .root)).run .start = (.ok edits, ⟨[], 1⟩) ∧
      ∃ fields : Record Value,
        (evalExpr .none visit .root (.object (place 0 42) members)).run .start =
          (.ok (.record 1 fields), ⟨[], 2⟩) ∧
        fields.keys = ["b", "a"] ∧ fields.get? "b" = some (.string "z") := by
  have hedits : (members.mapM (memberEdit .none visit .root)).run .start =
      (.ok edits, ⟨[], 1⟩) := rfl
  obtain ⟨fields, hrun, hshows⟩ := ((@record_history Value).2.1 .none visit .root
    (place 0 42) members .start).2 edits ⟨[], 1⟩ hedits
  refine ⟨hedits, fields, hrun, ?_, ?_⟩
  · rw [hshows.keys]
    decide
  · rw [hshows.get?]
    rfl

end Spreading

end StaticConfig
