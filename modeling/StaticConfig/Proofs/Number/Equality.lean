import StaticConfig.Number.Basic

/-!
# Numeric equality

Two numbers are equal if they have the same units and sign, where the sign of zero does not count.
So equality is symmetric and transitive, and every number but `nan` is equal to itself.
-/

namespace StaticConfig

namespace Number

theorem equals_finite_iff {a b : Bool} {m n : Magnitude} :
    (finite a m).equals (finite b n) = true ↔ m.units = n.units ∧ (a = b ∨ m.units = 0) := by
  simp [equals]

theorem equals_infinite_iff {a b : Bool} :
    (infinite a).equals (infinite b) = true ↔ a = b := by
  simp [equals]

theorem equals_self_iff (n : Number) : n.equals n = true ↔ n ≠ .nan := by
  cases n <;> simp [equals]

theorem equals_symm {a b : Number} (h : a.equals b = true) : b.equals a = true := by
  cases a with
  | nan => simp [equals] at h
  | infinite s =>
    cases b with
    | infinite t => exact equals_infinite_iff.2 (equals_infinite_iff.1 h).symm
    | nan | finite => simp [equals] at h
  | finite s m =>
    cases b with
    | finite t n =>
      obtain ⟨hunits, hsign⟩ := equals_finite_iff.1 h
      exact equals_finite_iff.2 ⟨hunits.symm, hsign.imp Eq.symm fun hzero => hunits ▸ hzero⟩
    | nan | infinite => simp [equals] at h

theorem equals_trans {a b c : Number} (h : a.equals b = true) (h' : b.equals c = true) :
    a.equals c = true := by
  cases a with
  | nan => simp [equals] at h
  | infinite s =>
    cases b with
    | infinite t => rwa [equals_infinite_iff.1 h]
    | nan | finite => simp [equals] at h
  | finite s m =>
    cases b with
    | finite t n =>
      cases c with
      | finite u o =>
        obtain ⟨hunits, hsign⟩ := equals_finite_iff.1 h
        obtain ⟨hunits', hsign'⟩ := equals_finite_iff.1 h'
        refine equals_finite_iff.2 ⟨hunits.trans hunits', ?_⟩
        rcases hsign with rfl | hzero
        · rwa [hunits]
        · exact .inr hzero
      | nan | infinite => simp [equals] at h'
    | nan | infinite => simp [equals] at h

end Number

end StaticConfig
