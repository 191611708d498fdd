import StaticConfig.Evaluation.Call
import StaticConfig.Proofs.Evaluation.Element

/-!
# Slices of strings

The bounds of a slice are numbers of any kind that are brought into the range of the positions of
the string.

- `sliceBound_le`: a bound is a position of the string or its end, whatever was given for it;
- `sliceBound_exact`: though it is computed with rounding, it is what integers make of it;
- `sliceText_split`: between bounds that do not cross the slice is what stands there;
- `string_slicing`: so two slices at one bound make up the string, and the slice at a position is
  the character that an access gives.
-/

namespace StaticConfig

/-! ### Bounds -/

/-- A value that is given counts as the number that it converts to. -/
theorem sliceBound_some {v : Value} (h : v ≠ .undefined) (length default : Nat) :
    sliceBound (some v) length default = sliceBound (some (.number v.toNumber)) length 0 := by
  cases v with
  | undefined => exact absurd rfl h
  | null | bool | number | string | list | record | closure | method => rfl

theorem sliceBound_le {length default : Nat} (h : default ≤ length) (arg : Option Value) :
    sliceBound arg length default ≤ length := by
  unfold sliceBound
  split
  · exact h
  · exact h
  · split
    · exact Nat.zero_le _
    · exact Nat.min_le_right _ _

/-- A position that is an integer is the bound, if it is one of the string at all. -/
theorem sliceBound_of_position {n : Number} (hn : n ≠ .nan) {length i : Nat}
    (h : (n.position length).IsExactly i) (hle : i ≤ length) (default : Nat) :
    sliceBound (some (.number n)) length default = i := by
  have hbound : sliceBound (some (.number n)) length default =
      min ((n.position length).trunc?.getD 0).toNat length := by
    cases n with
    | nan => exact absurd rfl hn
    | infinite | finite => rfl
  rw [hbound, h.trunc?_eq, Option.getD_some, Int.toNat_natCast, Nat.min_eq_left hle]

/-! ### Positions -/

namespace Number

theorem isExactly_zero : (0 : Number).IsExactly 0 := isExactly_ofNat (Nat.zero_le _)

theorem IsExactly.max {a b : Number} {i j : Int} (ha : a.IsExactly i) (hb : b.IsExactly j) :
    (a.max b).IsExactly (Max.max i j) := by
  unfold Number.max
  simp only [ha.below_iff hb]
  split
  · rwa [Int.max_eq_right (by omega)]
  · rwa [Int.max_eq_left (by omega)]

theorem IsExactly.min {a b : Number} {i j : Int} (ha : a.IsExactly i) (hb : b.IsExactly j) :
    (a.min b).IsExactly (Min.min i j) := by
  unfold Number.min
  simp only [hb.below_iff ha]
  split
  · rwa [Int.min_eq_right (by omega)]
  · rwa [Int.min_eq_left (by omega)]

/-- An integer has no fraction to cut off. -/
theorem IsExactly.trunc {n : Number} {i : Int} (h : n.IsExactly i) : n.trunc.IsExactly i := by
  obtain ⟨negative, size, rfl, hunits⟩ := h.finite
  have hwhole := isExactly_trunc negative size
  rwa [hunits, Int.mul_tdiv_cancel _ intCast_unitsInOne_pos.ne'] at hwhole

/-- What rounds to a negative number or a zero is not above zero. -/
theorem isExactly_max_zero (num den : Nat) : ((ofRatio true num den).max 0).IsExactly 0 := by
  have hzero := isExactly_zero
  unfold max
  split
  · exact hzero
  · rename_i hnonneg
    obtain ⟨sign, size, hfinite, hunits⟩ := hzero.finite
    rw [hfinite] at hnonneg
    unfold ofRatio at hnonneg ⊢
    split at hnonneg
    · rename_i hbelow
      rw [dif_pos hbelow, isExactly_finite_iff]
      rw [below, decide_eq_true_iff, hunits, Int.zero_mul] at hnonneg
      have hsign : 0 ≤ -(Magnitude.roundUnits num den : Int) := Int.not_lt.1 hnonneg
      refine ⟨?_, fun _ => le_rfl, fun _ => le_rfl⟩
      rw [Int.natAbs_zero, Nat.zero_mul]
      show Magnitude.roundUnits num den = 0
      omega
    · exact absurd rfl hnonneg

/-- The sum of whole numbers that may be far apart, brought up to zero. -/
theorem isExactly_add_max_zero {a b : Number} {i j : Int} (ha : a.IsExactly i) (hb : b.IsExactly j)
    (h : i + j ≤ 2 ^ 53) : ((a.add b).max 0).IsExactly (Max.max (i + j) 0) := by
  by_cases hneg : i + j < 0
  · -- The sum may be too long to be exact here, but it is not above zero.
    obtain ⟨s, m, rfl, hi⟩ := ha.finite
    obtain ⟨t, n, rfl, hj⟩ := hb.finite
    have hunits : (i + j) * unitsInOne < 0 := Int.mul_neg_of_neg_of_pos hneg intCast_unitsInOne_pos
    rw [Int.max_eq_right hneg.le, add, hi, hj, ← Int.add_mul, ofUnits, if_neg hunits.ne,
      decide_eq_true hunits]
    exact isExactly_max_zero _ _
  · exact (ha.add hb (by omega)).max isExactly_zero

theorem trunc?_finite (negative : Bool) (size : Magnitude) : (finite negative size).trunc? =
    some ((signedUnits negative size).tdiv unitsInOne) := by
  cases negative with
  | false => rfl
  | true =>
    show _ = some ((-(size.units : Int)).tdiv unitsInOne)
    rw [Int.neg_tdiv]
    rfl

/-- A length never rounds to less than an integer that it reaches. -/
theorem not_ofNat_below {n : Number} {i length : Nat} (h : n.IsExactly i) (hle : i ≤ length) :
    ¬(ofNat length).below n := by
  obtain ⟨negative, size, rfl, hunits⟩ := h.finite
  obtain ⟨hsize, -, -⟩ := isExactly_finite_iff.1 h
  have hscaled : size.units * 1 ≤ length * unitsInOne * 1 := by
    rw [hsize, Int.natAbs_natCast, Nat.mul_one, Nat.mul_one]
    exact Nat.mul_le_mul_right unitsInOne hle
  have hmono := Magnitude.roundUnits_mono Nat.one_pos Nat.one_pos hscaled
  rw [Magnitude.roundUnits_units, hsize, Int.natAbs_natCast] at hmono
  unfold ofNat ofRatio
  split
  · rw [below, decide_eq_true_iff, hunits, Int.not_lt, signedUnits, if_neg Bool.false_ne_true]
    exact_mod_cast hmono
  · exact Bool.false_ne_true

/-- An integer that the length reaches is its own position. -/
theorem IsExactly.position {n : Number} {i length : Nat} (h : n.IsExactly i) (hle : i ≤ length) :
    (n.position length).IsExactly i := by
  have hwhole := h.trunc
  unfold Number.position
  dsimp only
  rw [if_neg (by rw [hwhole.below_iff isExactly_zero]; omega), Number.min,
    if_neg (not_ofNat_below hwhole hle)]
  exact hwhole

theorem position_finite (negative : Bool) (size : Magnitude) {length : Nat}
    (hlength : length ≤ 2 ^ 53) :
    let whole := (signedUnits negative size).tdiv unitsInOne
    ((finite negative size).position length).IsExactly
      (if whole < 0 then Max.max (length + whole) 0 else Min.min whole length) := by
  have hstop := isExactly_ofNat hlength
  have hwhole := isExactly_trunc negative size
  unfold position
  simp only [hwhole.below_iff isExactly_zero]
  split
  · exact isExactly_add_max_zero hstop hwhole (by omega)
  · exact hwhole.min hstop

theorem position_infinite (negative : Bool) {length : Nat} (hlength : length ≤ 2 ^ 53) :
    ((infinite negative).position length).IsExactly (if negative then 0 else length : Nat) := by
  obtain ⟨_, _, hstop, -⟩ := (isExactly_ofNat hlength).finite
  obtain ⟨_, _, hstart, -⟩ := isExactly_zero.finite
  have hposition : (infinite negative).position length =
      if negative then 0 else ofNat length := by
    unfold position
    rw [hstop, hstart]
    cases negative <;> rfl
  rw [hposition]
  split
  · exact isExactly_zero
  · exact isExactly_ofNat hlength

end Number

/-- Whole numbers from zero to the length are bounds as they are. -/
theorem sliceBound_of_isExactly {n : Number} {i length : Nat} (h : n.IsExactly i)
    (hle : i ≤ length) (default : Nat) : sliceBound (some (.number n)) length default = i := by
  refine sliceBound_of_position ?_ (h.position hle) hle default
  rintro rfl
  cases h

/-- The bound that a number comes to in something of the given length, by integers: an infinity is
at one end, and a whole part is brought into range after it has been counted from the end where it
is negative. -/
def exactBound (n : Number) (length : Nat) : Nat :=
  match n with
  | .nan => 0
  | .infinite negative => if negative then 0 else length
  | n =>
    let whole := n.trunc?.getD 0
    (if whole < 0 then max (length + whole) 0 else min whole length).toNat

/-- No bound suffers from rounding where all positions are numbers. -/
theorem sliceBound_exact {n : Number} (hn : n ≠ .nan) {length : Nat} (hlength : length ≤ 2 ^ 53) :
    (n.position length).IsExactly (exactBound n length) ∧
      sliceBound (some (.number n)) length 0 = exactBound n length := by
  suffices h : (n.position length).IsExactly (exactBound n length) ∧ exactBound n length ≤ length by
    exact ⟨h.1, sliceBound_of_position hn h.1 h.2 0⟩
  cases n with
  | nan => exact absurd rfl hn
  | infinite negative =>
    refine ⟨Number.position_infinite negative hlength, ?_⟩
    cases negative with
    | true => exact Nat.zero_le _
    | false => exact le_rfl
  | finite negative size =>
    have hposition := Number.position_finite negative size hlength
    have hwhole := Number.trunc?_finite negative size
    unfold exactBound
    dsimp only at hposition ⊢
    rw [hwhole, Option.getD_some]
    generalize (Number.signedUnits negative size).tdiv unitsInOne = whole at hposition
    rw [Int.toNat_of_nonneg (by split <;> omega)]
    exact ⟨hposition, by split <;> omega⟩

/-! ### Slices -/

section Slices

variable (text : List Char) (args : List Value)

/-- The slice is a run of the characters. -/
theorem sliceText_split :
    let start := sliceBound args[0]? text.length 0
    let stop := sliceBound args[1]? text.length text.length
    (stop ≤ start → sliceText text args = []) ∧
    (start ≤ stop → ∃ before after, text = before ++ sliceText text args ++ after ∧
      before.length = start ∧ (before ++ sliceText text args).length = stop) := by
  intro start stop
  have hstop : stop ≤ text.length := sliceBound_le le_rfl _
  have hslice : sliceText text args = (text.take stop).drop start := rfl
  rw [hslice]
  refine ⟨fun hcross => ?_, fun hle => ⟨text.take start, text.drop stop, ?_, ?_, ?_⟩⟩
  · exact List.drop_of_length_le ((List.length_take_le _ _).trans hcross)
  · have hhead : (text.take stop).take start = text.take start := by
      rw [List.take_take, Nat.min_eq_left hle]
    rw [← hhead, List.take_append_drop, List.take_append_drop]
  · exact List.length_take_of_le (hle.trans hstop)
  · rw [List.length_append, List.length_take_of_le (hle.trans hstop), List.length_drop,
      List.length_take_of_le hstop, Nat.add_sub_cancel' hle]

theorem sliceText_pair (a b : Value) : sliceText text [a, b] =
    (text.take (sliceBound (some b) text.length text.length)).drop
      (sliceBound (some a) text.length 0) := rfl

theorem sliceText_single (a : Value) :
    sliceText text [a] = text.drop (sliceBound (some a) text.length 0) := by
  have hslice : sliceText text [a] =
      (text.take text.length).drop (sliceBound (some a) text.length 0) := rfl
  rw [hslice, List.take_length]

/-- Two slices at one bound make up the text. -/
theorem sliceText_append {k : Value} (hk : k ≠ .undefined) :
    sliceText text [.number 0, k] ++ sliceText text [k] = text := by
  rw [sliceText_pair, sliceText_single,
    sliceBound_of_isExactly Number.isExactly_zero (Nat.zero_le text.length), List.drop_zero,
    sliceBound_some hk, sliceBound_some hk, List.take_append_drop]

/-- A slice from one position to the next is the character there. -/
theorem sliceText_next {n next : Number} {i : Nat} (hi : i < text.length) (h : n.IsExactly i)
    (hnext : next.IsExactly (i + 1 : Nat)) :
    sliceText text [.number n, .number next] = [text[i]] := by
  rw [sliceText_pair, sliceBound_of_isExactly h hi.le, sliceBound_of_isExactly hnext hi,
    List.take_succ_eq_append_getElem hi,
    List.drop_append_of_le_length (List.length_take_of_le hi.le).ge, List.drop_take_self,
    List.nil_append]

end Slices

/-- **Slices are runs of the characters.** Whatever the bounds are given as, each of them comes to a
position of the string or its end, the slice is what stands between the two, and it is empty if they
cross. A bound that is not a number comes to the start, and any other one, though it is computed with
rounding, to what integers make of it. The slices before and after a bound make up the string, and
the slice from one position to the next is the character that an access to the position gives. -/
theorem string_slicing (visit : Scope Value → Node → Eval Value) (tag : Nat) (text : String) :
    let chars := text.toList
    let slice := fun args : List Value => (Value.method tag (.string text) .slice).call visit args
    (Value.string text).member "slice" = .ok (.allowed .slice) ∧
    (Value.string text).member "length" = .ok (.value (.number (.ofNat chars.length))) ∧
    (∀ args : List Value,
      let start := sliceBound args[0]? chars.length 0
      let stop := sliceBound args[1]? chars.length chars.length
      start ≤ chars.length ∧ stop ≤ chars.length ∧
      ∃ run, slice args = pure (.string (String.ofList run)) ∧ (stop ≤ start → run = []) ∧
        (start ≤ stop → ∃ before after, chars = before ++ run ++ after ∧
          before.length = start ∧ (before ++ run).length = stop)) ∧
    (∀ (v : Value) (default : Nat), v ≠ .undefined →
      let bound := sliceBound (some v) chars.length default
      (v.toNumber = .nan → bound = 0) ∧
      (v.toNumber ≠ .nan → chars.length ≤ 2 ^ 53 →
        (v.toNumber.position chars.length).IsExactly bound ∧
          bound = exactBound v.toNumber chars.length)) ∧
    (∀ k : Value, k ≠ .undefined → ∃ left right, slice [.number 0, k] = pure (.string left) ∧
      slice [k] = pure (.string right) ∧ left ++ right = text) ∧
    ∀ (i : Nat) (hi : i < chars.length) (n next : Number), n.IsExactly i →
      next.IsExactly (i + 1 : Nat) →
      let c := Value.string (String.singleton chars[i])
      (Value.string text).member n.toString = .ok (.value c) ∧
        slice [.number n, .number next] = pure c := by
  intro chars slice
  have hslice (args : List Value) :
      slice args = pure (.string (String.ofList (sliceText chars args))) :=
    Value.call_stringMethod visit tag text .slice args
  refine ⟨rfl, rfl, fun args => ?_, fun v default hv => ?_, fun k hk => ?_, ?_⟩
  · obtain ⟨hcross, hrun⟩ := sliceText_split chars args
    exact ⟨sliceBound_le (Nat.zero_le _) _, sliceBound_le le_rfl _, _, hslice args, hcross, hrun⟩
  · intro bound
    have hbound : bound = sliceBound (some (.number v.toNumber)) chars.length 0 :=
      sliceBound_some hv _ _
    rw [hbound]
    -- A bound that is not a number comes to the start, whatever it was given as.
    refine ⟨fun hnan => ?_, fun hnumber hlength => ?_⟩
    · rw [hnan]
      rfl
    · obtain ⟨hexact, hsame⟩ := sliceBound_exact hnumber hlength
      exact ⟨hsame ▸ hexact, hsame⟩
  · refine ⟨_, _, hslice _, hslice _, ?_⟩
    rw [← String.ofList_append, sliceText_append chars hk]
    exact String.ofList_toList
  · intro i hi n next h hnext c
    refine ⟨?_, ?_⟩
    · -- The access reads the position back from its text.
      have htarget : (Value.string text).elements? =
          some (chars.map fun c => .string (String.singleton c)) := rfl
      rw [Value.member_of_isExactly htarget ((List.length_map _).symm ▸ hi) (h.lt_of_succ hnext) h,
        List.getElem_map]
    · rw [hslice, sliceText_next chars hi h hnext]
      rfl

namespace Accented

/-- The slices before and after the last character of `"né"` make up the string, and the last
character is what an access gives and what stands from one to two. -/
theorem string_slicing_accented :
    let slice := fun args : List Value =>
      (Value.method 0 (.string "né") .slice).call (evaluate .none 0 0) args
    (∃ left right, slice [.number 0, .number (.ofInt (-1))] = pure (.string left) ∧
      slice [.number (.ofInt (-1))] = pure (.string right) ∧ left ++ right = "né") ∧
    (Value.string "né").member (Number.ofNat 1).toString = .ok (.value (.string "é")) ∧
    slice [.number 1, .number 2] = pure (.string "é") := by
  intro slice
  obtain ⟨-, -, -, -, hsplit, hnext⟩ := string_slicing (evaluate .none 0 0) 0 "né"
  exact ⟨hsplit _ nofun, hnext 1 (by decide) _ _ (Number.isExactly_ofNat (by decide))
    (Number.isExactly_ofNat (by decide))⟩

end Accented

end StaticConfig
