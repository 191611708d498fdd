import Mathlib.Data.List.Basic
import Mathlib.Data.List.TakeWhile
import StaticConfig.Text.Blank

/-!
# Runs of characters

Where a run of characters of one kind ends (`span_append`), and what is left of a text without such
runs at its ends: `Trimmed` says it, and `trimEnds` finds it (`trimmed_iff`).
-/

namespace StaticConfig

variable {p : Char → Bool}

/-! ### Runs -/

/-- A run of characters of a kind ends where another character comes next. -/
theorem span_append {run rest : List Char} (hrun : ∀ c ∈ run, p c = true)
    (hrest : ∀ c ∈ rest.head?, p c = false) :
    (run ++ rest).takeWhile p = run ∧ (run ++ rest).dropWhile p = rest := by
  rw [List.takeWhile_append_of_pos hrun, List.dropWhile_append_of_pos hrun]
  cases rest with
  | nil => simp
  | cons c rest =>
    have hc : p c = false := hrest c rfl
    simp [hc]

theorem dropWhile_of_head {cs : List Char} (h : ∀ c ∈ cs.head?, p c = false) :
    cs.dropWhile p = cs :=
  (span_append (List.forall_mem_nil _) h).2

theorem head_dropWhile (cs : List Char) : ∀ c ∈ (cs.dropWhile p).head?, p c = false := by
  intro c hc
  have hstop := List.head?_dropWhile_not p cs
  rw [Option.mem_def.1 hc] at hstop
  exact hstop

/-! ### Trimming -/

/-- `body` is the text without the characters of a kind at its ends. -/
structure Trimmed (p : Char → Bool) (cs body : List Char) : Prop where
  around : ∃ before after, cs = before ++ (body ++ after) ∧ (∀ c ∈ before, p c = true) ∧
    ∀ c ∈ after, p c = true
  head : ∀ c ∈ body.head?, p c = false
  last : ∀ c ∈ body.getLast?, p c = false

theorem Trimmed.trimEnds_eq {cs body : List Char} (h : Trimmed p cs body) :
    trimEnds p cs = body := by
  obtain ⟨before, after, rfl, hbefore, hafter⟩ := h.around
  have hreverse : ∀ c ∈ after.reverse, p c = true := fun c hc => hafter c (List.mem_reverse.1 hc)
  have hlast : ∀ c ∈ body.reverse.head?, p c = false := by
    rw [List.head?_reverse]
    exact h.last
  rw [trimEnds, List.dropWhile_append_of_pos hbefore]
  by_cases hbody : body = []
  · subst hbody
    have hnil : after.dropWhile p = [] := List.dropWhile_eq_nil_iff.2 hafter
    rw [List.nil_append, hnil]
    rfl
  · have hhead : ∀ c ∈ (body ++ after).head?, p c = false := by
      rw [List.head?_append_of_ne_nil _ hbody]
      exact h.head
    rw [dropWhile_of_head hhead, List.reverse_append, (span_append hreverse hlast).2,
      List.reverse_reverse]

theorem trimmed_trimEnds (p : Char → Bool) (cs : List Char) : Trimmed p cs (trimEnds p cs) := by
  have htail : trimEnds p cs ++ ((cs.dropWhile p).reverse.takeWhile p).reverse =
      cs.dropWhile p := by
    rw [trimEnds, ← List.reverse_append, List.takeWhile_append_dropWhile, List.reverse_reverse]
  refine ⟨⟨cs.takeWhile p, ((cs.dropWhile p).reverse.takeWhile p).reverse, ?_, ?_, ?_⟩, ?_, ?_⟩
  · rw [htail, List.takeWhile_append_dropWhile]
  · exact fun c => List.mem_takeWhile_imp
  · exact fun c hc => List.mem_takeWhile_imp (List.mem_reverse.1 hc)
  · intro c hc
    refine head_dropWhile cs c ?_
    rw [← htail, List.head?_append, Option.mem_def.1 hc]
    rfl
  · rw [trimEnds, List.getLast?_reverse]
    exact head_dropWhile _

/-- What trimming leaves, and nothing else, is the trimmed text. -/
theorem trimmed_iff {cs body : List Char} : Trimmed p cs body ↔ trimEnds p cs = body := by
  refine ⟨Trimmed.trimEnds_eq, ?_⟩
  rintro rfl
  exact trimmed_trimEnds p cs

theorem trimmed_of_forall {cs : List Char} (h : ∀ c ∈ cs, p c = false) : Trimmed p cs cs where
  around := ⟨[], [], by simp, by simp, by simp⟩
  head c hc := h c (List.mem_of_mem_head? hc)
  last c hc := h c (List.mem_of_mem_getLast? hc)

end StaticConfig
