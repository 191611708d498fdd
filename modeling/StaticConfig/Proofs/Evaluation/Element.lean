import StaticConfig.Proofs.Number.Whole

/-!
# Access to elements by number

An access with a number as its key turns the number into text and looks the text up like any name:
among the allowed methods, as the length, as an index and among the callable members of the
language. For the items of a list and the characters of a string this comes to plain indexing.

- `Value.member_of_startsLikeNumber`: a name that starts like the text of a number is none but an
  index, so what is left of the look-up is `arrayIndex?`;
- `arrayIndex?_eq_some_iff`, `Number.arrayIndex?_toString`: it finds the number itself, where it is
  an integer from zero up to below `2 ^ 53`;
- `element_access`: the two together, and the access that is evaluated.
-/

namespace StaticConfig

/-! ### Names that start like numbers -/

/-- Whether the text starts like that of some number. -/
def startsLikeNumber (name : String) : Bool :=
  name.toList.head?.any fun c => c.isDigit || ['.', '-', 'N', 'I'].contains c

theorem Number.startsLikeNumber_toString (n : Number) : startsLikeNumber n.toString = true := by
  unfold startsLikeNumber
  rw [toList_toString]
  cases n with
  | nan => rfl
  | infinite negative => cases negative <;> rfl
  | finite negative size =>
    rw [text_finite]
    split
    · rfl
    · cases negative with
      | true => rfl
      | false =>
        obtain ⟨zeros, hform⟩ := Layout.display.form_render (Decimal.shortest .up size)
        obtain ⟨first, rest, hrender, hfirst⟩ := hform.head
        rw [if_neg Bool.false_ne_true, List.nil_append, hrender]
        rcases hfirst with hdigit | rfl
        · simp [hdigit]
        · rfl

/-- The names under which lists and strings have a method, their length or a callable member. -/
def memberNames : List String :=
  "length" :: (allowedMethods.flatMap (·.2)).map Method.name ++ listMembers ++ stringMembers ++
    objectMembers

theorem not_mem_memberNames {name : String} (h : startsLikeNumber name = true) :
    name ∉ memberNames := by
  intro hname
  have hnames : ∀ taken ∈ memberNames, startsLikeNumber taken = false := by decide
  rw [hnames name hname] at h
  cases h

/-! ### Elements -/

/-- The items of a list and the characters of a string. -/
def Value.elements? : Value → Option (List Value)
  | .list _ items => some items
  | .string text => some (text.toList.map fun c => .string (String.singleton c))
  | _ => none

theorem arrayIndex?_eq_some_iff {name : String} {i : Nat} :
    arrayIndex? name = some i ↔ name.toList = Nat.toDigits 10 i ∧ i < 2 ^ 64 := by
  unfold arrayIndex?
  constructor
  · intro h
    split at h
    · split at h
      · rename_i hindex
        obtain rfl := Option.some.inj h
        exact ⟨hindex.2.symm, hindex.1⟩
      · cases h
    · cases h
  · rintro ⟨hdigits, hlt⟩
    have hread : readDigits? 10 name.toList = some i :=
      readDigits?_ten_iff.2 (hdigits ▸ denotes_toDigits i)
    rw [hread]
    exact if_pos ⟨hlt, hdigits.symm⟩

section

variable {target : Value} {elements : List Value} (htarget : target.elements? = some elements)
  {name : String} (hname : startsLikeNumber name = true)

include htarget hname

theorem Value.allowedMethod?_of_startsLikeNumber : target.allowedMethod? name = none := by
  have hnone (methods : List Method) (hmethods : ∀ m ∈ methods, m.name ∈ memberNames) :
      methods.find? (·.name == name) = none := by
    refine List.find?_eq_none.2 fun m hm heq => not_mem_memberNames hname ?_
    exact beq_iff_eq.1 heq ▸ hmethods m hm
  cases target with
  | list | string => exact hnone _ (by decide)
  | undefined | null | bool | number | record | closure | method => cases htarget

theorem Value.hasCallableMember_of_startsLikeNumber : target.hasCallableMember name = false := by
  have hnone (names : List String) (hnames : ∀ taken ∈ names, taken ∈ memberNames) :
      names.contains name = false :=
    Bool.eq_false_iff.2 fun hmem =>
      not_mem_memberNames hname (hnames name (List.contains_iff_mem.1 hmem))
  cases target with
  | list =>
    exact Bool.or_eq_false_iff.2 ⟨hnone listMembers (by decide), hnone objectMembers (by decide)⟩
  | string =>
    exact Bool.or_eq_false_iff.2 ⟨hnone stringMembers (by decide), hnone objectMembers (by decide)⟩
  | undefined | null | bool | number | record | closure | method => cases htarget

/-- Under a name that starts like a number there is the element at the index, or nothing. -/
theorem Value.member_of_startsLikeNumber :
    target.member name =
      .ok (.value (((arrayIndex? name).bind (elements[·]?)).getD .undefined)) := by
  have hmethod := allowedMethod?_of_startsLikeNumber htarget hname
  have hmissing := hasCallableMember_of_startsLikeNumber htarget hname
  have hlength : name ≠ "length" := fun h => not_mem_memberNames hname (h ▸ List.mem_cons_self)
  unfold Value.member
  rw [hmissing]
  cases target with
  | list tag items =>
    obtain rfl := Option.some.inj htarget
    dsimp only
    rw [hmethod]
    dsimp only
    rw [if_neg hlength]
    cases arrayIndex? name <;> rfl
  | string text =>
    obtain rfl := Option.some.inj htarget
    dsimp only
    rw [hmethod]
    dsimp only
    rw [if_neg hlength]
    cases arrayIndex? name with
    | none => rfl
    | some i =>
      dsimp only
      rw [Option.bind_some, List.getElem?_map]
      cases text.toList[i]? <;> rfl
  | undefined | null | bool | number | record | closure | method => cases htarget

end

/-! ### Numbers as indices -/

namespace Number

/-- Below `2 ^ 53` the index is the number itself. -/
theorem arrayIndex?_toString {n : Number} {i : Nat} (h : n.IsExactly i) (hi : i < 2 ^ 53) :
    arrayIndex? n.toString = some i := by
  rw [arrayIndex?_eq_some_iff, toList_toString]
  exact ⟨text_of_isExactly h hi, hi.trans (by decide)⟩

/-- An index, as a number, is no other than the one that it was found with. -/
theorem equals_of_arrayIndex? {n : Number} {i : Nat} (h : arrayIndex? n.toString = some i) :
    n.equals (ofNat i) = true := by
  rw [arrayIndex?_eq_some_iff, toList_toString] at h
  exact equals_of_text h.1

end Number

section Access

variable {target : Value} {elements : List Value} (htarget : target.elements? = some elements)
  {n : Number}

include htarget

theorem Value.member_toString : target.member n.toString =
    .ok (.value (((arrayIndex? n.toString).bind (elements[·]?)).getD .undefined)) :=
  member_of_startsLikeNumber htarget n.startsLikeNumber_toString

/-- At a position below `2 ^ 53` there is the element. -/
theorem Value.member_of_isExactly {i : Nat} (hi : i < elements.length) (hlimit : i < 2 ^ 53)
    (h : n.IsExactly i) : target.member n.toString = .ok (.value elements[i]) := by
  rw [member_toString htarget, Number.arrayIndex?_toString h hlimit, Option.bind_some,
    List.getElem?_eq_getElem hi, Option.getD_some]

/-- What is found is an element at a position that is equal to the number. -/
theorem Value.member_cases : target.member n.toString = .ok (.value .undefined) ∨
    ∃ (i : Nat) (hi : i < elements.length), n.equals (.ofNat i) = true ∧
      target.member n.toString = .ok (.value elements[i]) := by
  rw [member_toString htarget]
  cases hindex : arrayIndex? n.toString with
  | none => exact .inl rfl
  | some i =>
    rw [Option.bind_some]
    by_cases hi : i < elements.length
    · refine .inr ⟨i, hi, Number.equals_of_arrayIndex? hindex, ?_⟩
      rw [List.getElem?_eq_getElem hi, Option.getD_some]
    · rw [List.getElem?_eq_none (Nat.le_of_not_lt hi)]
      exact .inl rfl

end Access

theorem run_evalAccess_number {definitions : Definitions} {visit : Scope Value → Node → Eval Value}
    {scope : Scope Value} {e key : Expr} {target v : Value} {n : Number} {m between after : Machine}
    (htarget : (visit scope (.expr e)).run m = (.ok target, between))
    (hkey : (visit scope (.expr key)).run between = (.ok (.number n), after))
    (hmember : target.member n.toString = .ok (.value v)) :
    (evalAccess definitions visit scope e (.computed key)).run m = (.ok v, after) := by
  have hdisplay : (Value.number n).display = n.toString := by rw [Value.display]
  rw [evalAccess, visitExpr, Eval.run_bind_ok htarget]
  dsimp only
  rw [visitExpr, Eval.run_bind_ok hkey, hdisplay, readMember, hmember]
  rfl

/-- **Access by number is indexing.** Whatever the number is, reading its text from a list or a
string neither fails nor finds a method, and what is found stands at a position that is equal to the
number. As long as the list has no position from `2 ^ 53` on, or the number does not reach there, it
is the element at the position that the number is, a zero of either sign being the first one, and
nothing if the number is no position. An access evaluates to the same. -/
theorem element_access {target : Value} {elements : List Value}
    (htarget : target.elements? = some elements) (n : Number) :
    let read := target.member n.toString
    (∃ v, read = .ok (.value v) ∧ (v = .undefined ∨ ∃ (i : Nat) (hi : i < elements.length),
      n.equals (.ofNat i) = true ∧ v = elements[i])) ∧
    (elements.length ≤ 2 ^ 53 ∨ (Number.ofNat (2 ^ 53)).atMost n = false →
      (∀ (i : Nat) (hi : i < elements.length), n.IsExactly i →
        read = .ok (.value elements[i])) ∧
      ((∀ i < elements.length, ¬ n.IsExactly i) → read = .ok (.value .undefined))) ∧
    ∀ (definitions : Definitions) (visit : Scope Value → Node → Eval Value) (scope : Scope Value)
      (e key : Expr) (m between after : Machine) (v : Value),
      (visit scope (.expr e)).run m = (.ok target, between) →
      (visit scope (.expr key)).run between = (.ok (.number n), after) →
      read = .ok (.value v) →
      (evalAccess definitions visit scope e (.computed key)).run m = (.ok v, after) := by
  intro read
  refine ⟨?_, fun hlimit => ⟨fun i hi h => ?_, fun hnone => ?_⟩, ?_⟩
  · rcases Value.member_cases htarget (n := n) with h | ⟨i, hi, hequals, h⟩
    · exact ⟨_, h, .inl rfl⟩
    · exact ⟨_, h, .inr ⟨i, hi, hequals, rfl⟩⟩
  · refine Value.member_of_isExactly htarget hi (Nat.lt_of_not_le fun hle => ?_) h
    rcases hlimit with hlength | hbelow
    · omega
    · -- The number would reach `2 ^ 53`.
      have hreaches := ((Number.isExactly_ofNat le_rfl).atMost_iff h).2 (Int.ofNat_le.2 hle)
      rw [hreaches] at hbelow
      cases hbelow
  · refine (Value.member_cases htarget).resolve_right ?_
    rintro ⟨i, hi, hequals, -⟩
    -- From `2 ^ 53` on a position may be rounded to the number; the bound leaves none of these.
    rcases Nat.le_total i (2 ^ 53) with hle | hge
    · exact hnone i hi ((Number.equals_ofNat_iff hle).1 hequals)
    · rcases hlimit with hlength | hbelow
      · omega
      · rw [Number.atMost_of_equals hge hequals] at hbelow
        cases hbelow
  · intro definitions visit scope e key m between after v
    exact run_evalAccess_number

namespace Accented

/-- Half of one. -/
def half : Number := .finite false
  ⟨Nat.pow 2 1073, by decide +kernel, 1, 1073, by decide, by decide +kernel⟩

/-- In `"né"` the first character is at either zero, the second one at one, and nothing at a
half. -/
theorem element_access_accented :
    let read := fun n : Number => (Value.string "né").member n.toString
    (Value.string "né").elements? = some [.string "n", .string "é"] ∧
      read 1 = .ok (.value (.string "é")) ∧
      read (.finite true .zero) = .ok (.value (.string "n")) ∧
      read half = .ok (.value .undefined) := by
  intro read
  have htarget : (Value.string "né").elements? = some [.string "n", .string "é"] := rfl
  have hread (n : Number) := (element_access htarget n).2.1 (.inl (by decide))
  refine ⟨htarget, ?_, ?_, ?_⟩
  · exact (hread 1).1 1 (by decide) (Number.isExactly_ofNat (by decide))
  · refine (hread _).1 0 (by decide) (Number.isExactly_finite_iff.2 ⟨?_, by decide, by decide⟩)
    rw [Int.natAbs_natCast, Nat.zero_mul]
    rfl
  · have hwhole : ∀ i : Nat, i < 2 → ¬ half.IsExactly i := by
      unfold Number.IsExactly
      decide +kernel
    exact (hread half).2 hwhole

end Accented

end StaticConfig
