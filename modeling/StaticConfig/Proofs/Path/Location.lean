import StaticConfig.Project.Specifier

/-!
# Where a path leads

Read as moves from a starting directory, a path leads to a place: some levels above the start and
some names down from there. Normalization keeps the names, but a second move up from the start
takes back the first one, so of the levels above the start it keeps the parity only:

- `Mirrors`: what the parts of a normal form say about the place that has been reached;
- `place_normalize`: the place of a normal form;
- `place_normalize_iff`: it is the place of the path exactly if the path never climbs two levels
  above its start.
-/

namespace StaticConfig

/-- Where moves from a starting directory lead. -/
structure Place where
  /-- Whether the start is the root, above which there is nothing. -/
  rooted : Bool
  /-- The levels above the start. -/
  climbed : Nat
  /-- The names down from there. -/
  names : List String
deriving DecidableEq, Repr

namespace Place

/-- The starting directory itself. -/
def start (rooted : Bool) : Place := ⟨rooted, 0, []⟩

/-- One level up: the last name is taken back, and without one the place is a level higher, unless
it is the root. -/
def up (place : Place) : Place :=
  match place.names with
  | [] => if place.rooted then place else ⟨place.rooted, place.climbed + 1, []⟩
  | names => ⟨place.rooted, place.climbed, names.dropLast⟩

/-- One move. -/
def move (place : Place) : PathPart → Place
  | .here => place
  | .up => place.up
  | .name text => ⟨place.rooted, place.climbed, place.names ++ [text]⟩

end Place

namespace Path

/-- The place to which a path leads. -/
def place (p : Path) : Place := p.parts.foldl Place.move (.start p.rooted)

/-! ### What the parts of a normal form say -/

/-- The parts of a normal form beside the place that has been reached: at most one move up and then
the names. The move up stands for an odd number of levels above the start, and for nothing at the
root. -/
structure Mirrors (parts : List PathPart) (raised : Bool) (place : Place) : Prop where
  parts_eq : parts = (if raised then [.up] else []) ++ place.names.map .name
  parity : place.rooted = false → place.climbed % 2 = if raised then 1 else 0
  atRoot : place.rooted = true → place.climbed = 0

theorem mirrors_start (rooted : Bool) : Mirrors [] false (.start rooted) :=
  ⟨rfl, fun _ => rfl, fun _ => rfl⟩

/-- A move up without a name to take back adds the leading move up, or takes it away again. -/
theorem Mirrors.up_of_nil {parts : List PathPart} {raised rooted : Bool} {climbed : Nat}
    (h : Mirrors parts raised ⟨rooted, climbed, []⟩) :
    Mirrors (step parts .up) (!raised) (Place.up ⟨rooted, climbed, []⟩) := by
  obtain ⟨hparts, hparity, hroot⟩ := h
  subst hparts
  cases rooted with
  | true =>
    -- The root is its own parent, so the leading move up may come and go.
    cases raised <;> exact ⟨rfl, fun hfalse => (nomatch hfalse), hroot⟩
  | false =>
    have hodd := hparity rfl
    have hup : Place.up ⟨false, climbed, []⟩ = ⟨false, climbed + 1, []⟩ := rfl
    rw [hup]
    cases raised with
    | true =>
      have hclimbed : climbed % 2 = 1 := hodd
      refine ⟨rfl, fun _ => ?_, fun htrue => nomatch htrue⟩
      show (climbed + 1) % 2 = 0
      omega
    | false =>
      have hclimbed : climbed % 2 = 0 := hodd
      refine ⟨rfl, fun _ => ?_, fun htrue => nomatch htrue⟩
      show (climbed + 1) % 2 = 1
      omega

/-- A move up with a name to take back takes it back on both sides. -/
theorem Mirrors.up_of_ne_nil {parts : List PathPart} {raised rooted : Bool} {climbed : Nat}
    {names : List String} (h : Mirrors parts raised ⟨rooted, climbed, names⟩) (hne : names ≠ []) :
    Mirrors (step parts .up) raised (Place.up ⟨rooted, climbed, names⟩) := by
  obtain ⟨hparts, hparity, hroot⟩ := h
  have hmap : names.map PathPart.name ≠ [] := by simpa using hne
  have hup : Place.up ⟨rooted, climbed, names⟩ = ⟨rooted, climbed, names.dropLast⟩ := by
    cases names with
    | nil => exact absurd rfl hne
    | cons text rest => rfl
  -- A name is left, so the part that the step drops is the last name and never the leading move.
  have hfull : parts.isEmpty = false := by
    rw [hparts]
    simpa using fun _ => hne
  rw [hup]
  refine ⟨?_, hparity, hroot⟩
  show (if parts.isEmpty then [.up] else parts.dropLast) = _
  rw [hfull, hparts, List.map_dropLast]
  exact List.dropLast_append_of_ne_nil hmap

/-- One move keeps the two sides together. -/
theorem Mirrors.move {parts : List PathPart} {raised : Bool} {place : Place}
    (h : Mirrors parts raised place) (part : PathPart) :
    ∃ raised, Mirrors (step parts part) raised (place.move part) := by
  cases part with
  | here => exact ⟨raised, h⟩
  | up =>
    obtain ⟨rooted, climbed, names⟩ := place
    by_cases hnames : names = []
    · subst hnames
      exact ⟨!raised, h.up_of_nil⟩
    · exact ⟨raised, h.up_of_ne_nil hnames⟩
  | name text =>
    obtain ⟨hparts, hparity, hroot⟩ := h
    refine ⟨raised, ?_, hparity, hroot⟩
    show parts ++ [.name text] = _ ++ (place.names ++ [text]).map .name
    rw [hparts, List.map_append, List.append_assoc]
    rfl

/-- A whole path keeps the two sides together. -/
theorem Mirrors.moves {parts : List PathPart} {raised : Bool} {place : Place}
    (h : Mirrors parts raised place) (path : List PathPart) :
    ∃ raised, Mirrors (path.foldl step parts) raised (path.foldl Place.move place) := by
  induction path generalizing parts raised place with
  | nil => exact ⟨raised, h⟩
  | cons part rest ih =>
    obtain ⟨next, hnext⟩ := h.move part
    exact ih hnext

/-- Normalization ends beside the place of the path. -/
theorem mirrors_normalize (p : Path) : ∃ raised, Mirrors p.normalize.parts raised p.place :=
  (mirrors_start p.rooted).moves p.parts

/-! ### The place of a normal form -/

/-- Moves keep the kind of the start. -/
@[simp] theorem rooted_foldl_move (path : List PathPart) (place : Place) :
    (path.foldl Place.move place).rooted = place.rooted := by
  induction path generalizing place with
  | nil => rfl
  | cons part rest ih =>
    rw [List.foldl_cons, ih]
    cases part with
    | here => rfl
    | name text => rfl
    | up =>
      show place.up.rooted = place.rooted
      unfold Place.up
      split
      · split <;> rfl
      · rfl

theorem rooted_place (p : Path) : p.place.rooted = p.rooted := rooted_foldl_move ..

/-- Names lead down, one after the other. -/
theorem foldl_move_names (names : List String) (rooted : Bool) (climbed : Nat)
    (above : List String) :
    (names.map PathPart.name).foldl Place.move ⟨rooted, climbed, above⟩ =
      ⟨rooted, climbed, above ++ names⟩ := by
  induction names generalizing above with
  | nil => rw [List.append_nil]; rfl
  | cons text rest ih =>
    show (rest.map PathPart.name).foldl Place.move ⟨rooted, climbed, above ++ [text]⟩ = _
    rw [ih, List.append_assoc]
    rfl

/-- A normal form leads to the names of the path, and of the levels above the start it keeps
whether their number is odd. -/
theorem place_normalize (p : Path) :
    p.normalize.place = ⟨p.place.rooted, p.place.climbed % 2, p.place.names⟩ := by
  obtain ⟨raised, hparts, hparity, hroot⟩ := p.mirrors_normalize
  have hrooted := p.rooted_place
  have hnames (climbed : Nat) :
      (p.place.names.map PathPart.name).foldl Place.move ⟨p.rooted, climbed, []⟩ =
        ⟨p.rooted, climbed, p.place.names⟩ := by
    rw [foldl_move_names, List.nil_append]
  show p.normalize.parts.foldl Place.move (.start p.rooted) = _
  rw [hparts, List.foldl_append, hrooted]
  cases hp : p.rooted with
  | true =>
    -- Whether or not there is a leading move up, it leads nowhere.
    rw [hp] at hnames hrooted
    rw [hroot hrooted]
    cases raised <;> exact hnames 0
  | false =>
    rw [hp] at hnames hrooted
    rw [hparity hrooted]
    cases raised with
    | true => exact hnames 1
    | false => exact hnames 0

/-- The place stays exactly as long as the levels above the start equal their parity. -/
theorem place_normalize_eq_iff (p : Path) :
    p.normalize.place = p.place ↔ p.place.climbed ≤ 1 := by
  rw [place_normalize]
  constructor
  · intro h
    have hclimbed : p.place.climbed % 2 = p.place.climbed := congrArg Place.climbed h
    omega
  · intro h
    rw [Nat.mod_eq_of_lt (Nat.lt_succ_of_le h)]

/-- **Normal forms keep the parity of the climb.** A normal form keeps the start and the names of
its path but of the levels above the start only whether their number is odd, so it leads to the
same place exactly if there is at most one. The same holds of the path that a specifier means, seen
from the directory of the importing file. -/
theorem place_normalize_iff (p importer : Path) (specifier : String) :
    p.normalize.place = ⟨p.place.rooted, p.place.climbed % 2, p.place.names⟩ ∧
    (p.normalize.place = p.place ↔ p.place.climbed ≤ 1) ∧
    ((specifierBase importer specifier).place =
        (importer.parent.join (ofText (bareSpecifier specifier))).place ↔
      (importer.parent.join (ofText (bareSpecifier specifier))).place.climbed ≤ 1) := by
  refine ⟨p.place_normalize, p.place_normalize_eq_iff, ?_⟩
  exact place_normalize_eq_iff (importer.parent.join (ofText (bareSpecifier specifier)))

/-- Two levels up are taken back to none. -/
theorem place_normalize_two_up :
    (ofText "../../lib.ts").normalize = ofText "lib.ts" ∧
    (ofText "../../lib.ts").place = ⟨false, 2, ["lib.ts"]⟩ ∧
    (ofText "../../lib.ts").normalize.place ≠ (ofText "../../lib.ts").place := by
  have hnormal : (ofText "../../lib.ts").normalize = ofText "lib.ts" := by decide +kernel
  have hplace : (ofText "../../lib.ts").place = ⟨false, 2, ["lib.ts"]⟩ := by decide +kernel
  refine ⟨hnormal, hplace, fun h => ?_⟩
  rw [place_normalize_eq_iff, hplace] at h
  exact absurd h (by decide)

end Path

end StaticConfig
