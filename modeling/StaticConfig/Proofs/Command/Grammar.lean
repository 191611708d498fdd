import StaticConfig.Command.Arguments
import StaticConfig.Proofs.Number.Digits

/-!
# The grammar of extraction arguments

An argument list is read as phrases: an option, an option with the argument that belongs to it, or a
positional argument. Whatever a phrase says is added to a draft, so all that counts in the end is
the order of the positional phrases and the last phrase of every kind of option.

- `Phrase`, `spell`: the phrases and how they are written;
- `Malformed`: what no phrase starts with, and the fault for it;
- `Draft.read_spell`: reading goes phrase by phrase;
- `exists_phrases`: every list is written with phrases up to its end or to something malformed;
- `parse_grammar`: which lists are accepted, what they say, and how the other ones are refused.
-/

namespace StaticConfig

namespace Arguments

/-! ### Limits -/

/-- The text is a limit: decimal digits, a plus sign before them or not, for a number of 64 bits. -/
def IsLimit (text : String) (limit : Nat) : Prop :=
  limit < 2 ^ 64 ∧ ∃ digits, Denotes 10 digits limit ∧
    (text.toList = digits ∨ text.toList = '+' :: digits)

theorem limit?_eq_some_iff {text : String} {limit : Nat} :
    limit? text = some limit ↔ IsLimit text limit := by
  have hread {digits : List Char} {n : Nat} :
      readDigits? 10 digits = some n ↔ Denotes 10 digits n :=
    readDigits?_eq_some_iff (by decide)
  have hbound : Nat.pow 2 64 = 2 ^ 64 := rfl
  unfold limit? IsLimit
  simp only [Option.filter_eq_some_iff, decide_eq_true_eq, hbound]
  rw [and_comm]
  refine and_congr_right fun _ => ?_
  split
  · -- Digits do not start with a plus sign, so what is after it are the digits.
    rename_i rest htext
    simp only [htext, hread, List.cons.injEq, true_and]
    constructor
    · exact fun h => ⟨rest, h, .inr rfl⟩
    · rintro ⟨digits, hdigits, rfl | rfl⟩
      · exact absurd hdigits (not_denotes_plus (by decide))
      · exact hdigits
  · rename_i hplus
    rw [hread]
    constructor
    · exact fun h => ⟨_, h, .inl rfl⟩
    · rintro ⟨digits, hdigits, h | h⟩
      · exact h ▸ hdigits
      · exact absurd h (hplus digits)

theorem limitText?_eq_some_iff {arg text : String} :
    limitText? arg = some text ↔ arg = limitOption ++ text := by
  unfold limitText?
  constructor
  · intro h
    split at h
    · rename_i hprefix
      obtain ⟨rest, hrest⟩ := List.isPrefixOf_iff_prefix.1 hprefix
      obtain rfl := Option.some.inj h
      rw [← String.toList_inj, String.toList_append, String.toList_ofList, ← hrest]
      rw [← String.length_toList, List.drop_left]
    · cases h
  · rintro rfl
    have hprefix : limitOption.toList.isPrefixOf (limitOption ++ text).toList = true := by
      rw [String.toList_append]
      exact List.isPrefixOf_iff_prefix.2 (List.prefix_append _ _)
    rw [if_pos hprefix, String.toList_append, ← String.length_toList, List.drop_left,
      String.ofList_toList]

/-! ### Phrases -/

/-- The arguments that say one thing together. -/
inductive Phrase
  | models
  | config
  /-- Whatever follows the option is the path. -/
  | output (long : Bool) (path : String)
  | limit (text : String) (limit : Nat) (accepted : IsLimit text limit)
  | positional (text : String) (plain : text.toList.head? ≠ some '-')

namespace Phrase

/-- How a phrase is written. -/
def args : Phrase → List String
  | models => ["--models"]
  | config => ["--config"]
  | output long path => [if long then "--output" else "-o", path]
  | limit text _ _ => [limitOption ++ text]
  | positional text _ => [text]

/-- The positional argument that a phrase is. -/
def positional? : Phrase → Option String
  | positional text _ => some text
  | _ => none

/-- The shape that a phrase asks for. -/
def shape? : Phrase → Option Shape
  | models => some .models
  | config => some .config
  | _ => none

/-- The path that a phrase sets. -/
def output? : Phrase → Option String
  | output _ path => some path
  | _ => none

/-- The limit that a phrase sets. -/
def limit? : Phrase → Option Nat
  | limit _ n _ => some n
  | _ => none

/-- Whether a phrase is an option. -/
def isOption (phrase : Phrase) : Bool := phrase.positional?.isNone

end Phrase

/-- How phrases are written, one after the other. -/
def spell (phrases : List Phrase) : List String := phrases.flatMap Phrase.args

/-- The positional arguments among phrases. -/
def positionals (phrases : List Phrase) : List String := phrases.filterMap Phrase.positional?

/-- What phrases say about a declaration: the last option of a kind counts, and without one the
default. -/
def describe (file symbol : String) (phrases : List Phrase) : Arguments where
  file := file
  symbol := symbol
  shape := (phrases.filterMap Phrase.shape?).getLast?.getD .any
  output := (phrases.filterMap Phrase.output?).getLast?
  limit := (phrases.filterMap Phrase.limit?).getLast?.getD defaultLimit

/-- What no phrase starts with, and what is wrong with it. -/
inductive Malformed : List String → UsageFault → Prop
  | missingPath {option : String} : option = "-o" ∨ option = "--output" →
      Malformed [option] (.missingPath option)
  | invalidLimit {text : String} (rest : List String) : (∀ limit, ¬IsLimit text limit) →
      Malformed ((limitOption ++ text) :: rest) (.invalidLimit text)
  | unknownOption {arg : String} (rest : List String) : arg.toList.head? = some '-' →
      arg ∉ ["--models", "--config", "-o", "--output"] → (∀ text, arg ≠ limitOption ++ text) →
      Malformed (arg :: rest) (.unknownOption arg)

/-! ### Reading phrase by phrase -/

namespace Draft

/-- What a phrase adds to a draft. -/
def put (draft : Draft) : Phrase → Draft
  | .models => { draft with shape := .models }
  | .config => { draft with shape := .config }
  | .output _ path => { draft with output := some path }
  | .limit _ limit _ => { draft with limit }
  | .positional text _ => { draft with positionals := draft.positionals ++ [text] }

/-- Any other argument than the words for options is read by itself. -/
theorem read_cons {arg : String} (h : arg ∉ ["--models", "--config", "-o", "--output"])
    (draft : Draft) (rest : List String) :
    draft.read (arg :: rest) = (draft.single arg).bind (·.read rest) := by
  simp only [List.mem_cons, List.not_mem_nil, or_false, not_or] at h
  obtain ⟨hmodels, hconfig, hshort, hlong⟩ := h
  rw [read.eq_def]
  dsimp only
  rw [if_neg hmodels, if_neg hconfig, if_neg (not_or.2 ⟨hshort, hlong⟩)]
  rfl

theorem limitOption_append_not_mem (text : String) :
    limitOption ++ text ∉ ["--models", "--config", "-o", "--output"] := by
  have hthird : (limitOption ++ text).toList[3]? = some 'a' ∧
      (limitOption ++ text).toList[2]? = some 'm' := by
    rw [String.toList_append]
    exact ⟨rfl, rfl⟩
  intro h
  simp only [List.mem_cons, List.not_mem_nil, or_false] at h
  rcases h with h | h | h | h <;> rw [h] at hthird <;> exact absurd hthird (by decide)

theorem not_mem_of_plain {text : String} (h : text.toList.head? ≠ some '-') :
    text ∉ ["--models", "--config", "-o", "--output"] := by
  intro hmem
  simp only [List.mem_cons, List.not_mem_nil, or_false] at hmem
  rcases hmem with rfl | rfl | rfl | rfl <;> exact h (by decide)

theorem limitText?_of_plain {text : String} (h : text.toList.head? ≠ some '-') :
    limitText? text = none := by
  refine Option.eq_none_iff_forall_ne_some.2 fun limit htext => h ?_
  rw [limitText?_eq_some_iff.1 htext, String.toList_append]
  rfl

/-- One phrase is read as a whole, whatever comes after it. -/
theorem read_args (draft : Draft) (phrase : Phrase) (rest : List String) :
    draft.read (phrase.args ++ rest) = (draft.put phrase).read rest := by
  cases phrase with
  | models =>
    show draft.read ("--models" :: rest) = _
    rw [read.eq_def]
    exact if_pos rfl
  | config =>
    show draft.read ("--config" :: rest) = _
    rw [read.eq_def]
    exact (if_neg (by decide)).trans (if_pos rfl)
  | output long path =>
    show draft.read ((if long then "--output" else "-o") :: path :: rest) = _
    rw [read.eq_def]
    dsimp only
    rw [if_neg (by cases long <;> decide), if_neg (by cases long <;> decide),
      if_pos (by cases long <;> decide)]
    rfl
  | limit text limit accepted =>
    have hsingle : draft.single (limitOption ++ text) = .ok { draft with limit } := by
      rw [single, limitText?_eq_some_iff.2 rfl]
      dsimp only
      rw [limit?_eq_some_iff.2 accepted]
    show draft.read ((limitOption ++ text) :: rest) = _
    rw [read_cons (limitOption_append_not_mem text), hsingle]
    rfl
  | positional text plain =>
    have hsingle : draft.single text =
        .ok { draft with positionals := draft.positionals ++ [text] } := by
      rw [single, limitText?_of_plain plain]
      exact if_neg plain
    show draft.read (text :: rest) = _
    rw [read_cons (not_mem_of_plain plain), hsingle]
    rfl

theorem read_spell (draft : Draft) (phrases : List Phrase) (rest : List String) :
    draft.read (spell phrases ++ rest) = (phrases.foldl put draft).read rest := by
  induction phrases generalizing draft with
  | nil => rfl
  | cons phrase phrases ih =>
    show draft.read (phrase.args ++ spell phrases ++ rest) = _
    rw [List.append_assoc, read_args, ih]
    rfl

/-- The first thing that is malformed is reported. -/
theorem read_malformed (draft : Draft) {args : List String} {fault : UsageFault}
    (h : Malformed args fault) : draft.read args = .error fault := by
  cases h with
  | @missingPath option hoption =>
    have hwords : option ≠ "--models" ∧ option ≠ "--config" := by
      rcases hoption with rfl | rfl <;> decide
    rw [read.eq_def]
    dsimp only
    rw [if_neg hwords.1, if_neg hwords.2, if_pos hoption]
  | @invalidLimit text rest hlimit =>
    have hnone : Arguments.limit? text = none :=
      Option.eq_none_iff_forall_ne_some.2 fun limit h => hlimit limit (limit?_eq_some_iff.1 h)
    have hsingle : draft.single (limitOption ++ text) = .error (.invalidLimit text) := by
      rw [single, limitText?_eq_some_iff.2 rfl]
      dsimp only
      rw [hnone]
    rw [read_cons (limitOption_append_not_mem text), hsingle]
    rfl
  | @unknownOption arg rest hdash hwords hlimit =>
    have hnone : limitText? arg = none :=
      Option.eq_none_iff_forall_ne_some.2 fun text h => hlimit text (limitText?_eq_some_iff.1 h)
    have hsingle : draft.single arg = .error (.unknownOption arg) := by
      rw [single, hnone]
      exact if_pos hdash
    rw [read_cons hwords, hsingle]
    rfl

/-- Where phrases lead: positional arguments gather, and an option replaces the one before it. -/
theorem foldl_put (draft : Draft) (phrases : List Phrase) :
    phrases.foldl put draft =
      ⟨draft.positionals ++ Arguments.positionals phrases,
        (phrases.filterMap Phrase.shape?).getLast?.getD draft.shape,
        (phrases.filterMap Phrase.output?).getLast?.or draft.output,
        (phrases.filterMap Phrase.limit?).getLast?.getD draft.limit⟩ := by
  -- A later phrase of a kind replaces an earlier one, so the last one of each kind is left.
  induction phrases generalizing draft with
  | nil =>
    simp [Arguments.positionals]
  | cons phrase phrases ih =>
    rw [List.foldl_cons, ih]
    cases phrase <;>
      simp [put, Arguments.positionals, Phrase.positional?, Phrase.shape?, Phrase.output?,
        Phrase.limit?, List.filterMap_cons, List.getLast?_cons]

end Draft

/-! ### Splitting -/

/-- Every list is written with phrases, up to its end or to something malformed. -/
theorem exists_phrases (args : List String) :
    ∃ phrases rest, args = spell phrases ++ rest ∧ (rest = [] ∨ ∃ fault, Malformed rest fault) := by
  induction hlength : args.length using Nat.strongRecOn generalizing args with
  | _ length ih =>
    -- A phrase at the front: what comes after it is shorter.
    have hphrase (phrase : Phrase) {rest : List String} (hargs : args = phrase.args ++ rest)
        (hshorter : rest.length < length) : ∃ phrases rest, args = spell phrases ++ rest ∧
          (rest = [] ∨ ∃ fault, Malformed rest fault) := by
      obtain ⟨phrases, rest, rfl, hrest⟩ := ih _ hshorter _ rfl
      refine ⟨phrase :: phrases, rest, ?_, hrest⟩
      rw [hargs, ← List.append_assoc]
      rfl
    match args with
    | [] => exact ⟨[], [], rfl, .inl rfl⟩
    | arg :: rest =>
      have hshorter : rest.length < length := by
        rw [← hlength]
        exact Nat.lt_succ_self _
      by_cases hwords : arg ∈ ["--models", "--config", "-o", "--output"]
      · -- A word for an option; `-o` and `--output` take one more argument.
        simp only [List.mem_cons, List.not_mem_nil, or_false] at hwords
        rcases hwords with rfl | rfl | hoption
        · exact hphrase .models rfl hshorter
        · exact hphrase .config rfl hshorter
        · cases rest with
          | nil => exact ⟨[], [arg], rfl, .inr ⟨_, .missingPath hoption⟩⟩
          | cons path rest =>
            refine hphrase (.output (arg = "--output") path) ?_ (Nat.lt_of_succ_lt hshorter)
            rcases hoption with rfl | rfl <;> rfl
      · by_cases hlimit : ∃ text, arg = limitOption ++ text
        · obtain ⟨text, rfl⟩ := hlimit
          by_cases haccepted : ∃ limit, IsLimit text limit
          · obtain ⟨limit, haccepted⟩ := haccepted
            exact hphrase (.limit text limit haccepted) rfl hshorter
          · exact ⟨[], _, rfl, .inr ⟨_, .invalidLimit rest (not_exists.1 haccepted)⟩⟩
        · by_cases hdash : arg.toList.head? = some '-'
          · exact ⟨[], _, rfl, .inr ⟨_, .unknownOption rest hdash hwords (not_exists.1 hlimit)⟩⟩
          · exact hphrase (.positional arg hdash) rfl hshorter

/-- Phrases leave a draft of what they say. -/
theorem read_start (phrases : List Phrase) :
    Draft.start.read (spell phrases) =
      .ok ⟨positionals phrases, (phrases.filterMap Phrase.shape?).getLast?.getD .any,
        (phrases.filterMap Phrase.output?).getLast?,
        (phrases.filterMap Phrase.limit?).getLast?.getD defaultLimit⟩ := by
  have hread := Draft.start.read_spell phrases []
  rw [List.append_nil, Draft.foldl_put] at hread
  rw [hread, Draft.read]
  simp [Draft.start]

/-! ### Counting the positional arguments -/

/-- Numbers of positional arguments other than two, and the fault for them. -/
inductive Miscounted : List String → UsageFault → Prop
  | missing {given : List String} : given.length < 2 → Miscounted given .missingPositional
  | unexpected (file symbol extra : String) (more : List String) :
      Miscounted (file :: symbol :: extra :: more) (.unexpectedPositional extra)

/-- Two positional arguments name a declaration; any other number is refused. -/
theorem two_or_miscounted (given : List String) :
    (∃ file symbol, given = [file, symbol]) ∨ ∃ fault, Miscounted given fault := by
  match given with
  | [] => exact .inr ⟨_, .missing Nat.two_pos⟩
  | [_] => exact .inr ⟨_, .missing Nat.one_lt_two⟩
  | [file, symbol] => exact .inl ⟨file, symbol, rfl⟩
  | file :: symbol :: extra :: more => exact .inr ⟨_, .unexpected file symbol extra more⟩

/-- Phrases with two positional arguments are accepted. -/
theorem parse_spell {phrases : List Phrase} {file symbol : String}
    (h : positionals phrases = [file, symbol]) :
    parse (spell phrases) = .ok (describe file symbol phrases) := by
  rw [parse, read_start, h]
  rfl

/-- Phrases with any other number of them are refused for that. -/
theorem parse_spell_miscounted {phrases : List Phrase} {fault : UsageFault}
    (h : Miscounted (positionals phrases) fault) : parse (spell phrases) = .error fault := by
  rw [parse, read_start]
  generalize positionals phrases = given at h
  cases h with
  | missing hlength =>
    match given with
    | [] | [_] => rfl
    | _ :: _ :: _ => exact absurd hlength (by simp)
  | unexpected => rfl

/-- Something malformed is reported whatever the positional arguments are. -/
theorem parse_malformed (phrases : List Phrase) {rest : List String} {fault : UsageFault}
    (h : Malformed rest fault) : parse (spell phrases ++ rest) = .error fault := by
  rw [parse, Draft.read_spell, Draft.read_malformed _ h]
  rfl

/-- The three ways in which a list may be read. -/
theorem parse_cases (args : List String) :
    (∃ phrases file symbol, spell phrases = args ∧ positionals phrases = [file, symbol] ∧
      parse args = .ok (describe file symbol phrases)) ∨
    (∃ phrases rest fault, args = spell phrases ++ rest ∧ Malformed rest fault ∧
      parse args = .error fault) ∨
    ∃ phrases fault, args = spell phrases ∧ Miscounted (positionals phrases) fault ∧
      parse args = .error fault := by
  obtain ⟨phrases, rest, rfl, rfl | ⟨fault, hrest⟩⟩ := exists_phrases args
  · rw [List.append_nil]
    rcases two_or_miscounted (positionals phrases) with ⟨file, symbol, htwo⟩ | ⟨fault, hcount⟩
    · exact .inl ⟨phrases, file, symbol, rfl, htwo, parse_spell htwo⟩
    · exact .inr (.inr ⟨phrases, fault, rfl, hcount, parse_spell_miscounted hcount⟩)
  · exact .inr (.inl ⟨phrases, rest, fault, rfl, hrest, parse_malformed phrases hrest⟩)

/-! ### Interleavings -/

/-- What positional phrases say nothing about is said by the options alone. -/
theorem filterMap_options {α : Type} {say : Phrase → Option α}
    (hsay : ∀ text plain, say (.positional text plain) = none) (phrases : List Phrase) :
    (phrases.filter Phrase.isOption).filterMap say = phrases.filterMap say := by
  rw [List.filterMap_filter]
  refine List.filterMap_congr fun phrase _ => ?_
  cases phrase with
  | positional text plain => exact (hsay text plain).symm
  | models | config | output | limit => rfl

/-- It does not matter where between the options the positional arguments stand. -/
theorem describe_congr {phrases other : List Phrase}
    (h : phrases.filter Phrase.isOption = other.filter Phrase.isOption) (file symbol : String) :
    describe file symbol phrases = describe file symbol other := by
  have hsaid {α : Type} (say : Phrase → Option α)
      (hsay : ∀ text plain, say (.positional text plain) = none) :
      phrases.filterMap say = other.filterMap say := by
    rw [← filterMap_options hsay, h, filterMap_options hsay]
  have hshape := hsaid Phrase.shape? fun _ _ => rfl
  have houtput := hsaid Phrase.output? fun _ _ => rfl
  have hlimit := hsaid Phrase.limit? fun _ _ => rfl
  rw [describe, describe, hshape, houtput, hlimit]

/-! ### The grammar -/

/-- **Extraction arguments are phrases with two positional arguments among them.** The list is
accepted exactly if it is written with such phrases, and it then says what they say. Two ways to
put the same options, in the same order, and the same positional arguments together are read alike.
A list is refused either for something malformed that comes after phrases, however many positional
arguments there are, or else for their number. -/
theorem parse_grammar :
    (∀ args result, parse args = .ok result ↔ ∃ phrases file symbol, spell phrases = args ∧
      positionals phrases = [file, symbol] ∧ describe file symbol phrases = result) ∧
    (∀ phrases other : List Phrase,
      phrases.filter Phrase.isOption = other.filter Phrase.isOption →
      positionals phrases = positionals other → parse (spell phrases) = parse (spell other)) ∧
    ∀ args fault, parse args = .error fault ↔
      (∃ phrases rest, args = spell phrases ++ rest ∧ Malformed rest fault) ∨
      ∃ phrases, args = spell phrases ∧ Miscounted (positionals phrases) fault := by
  refine ⟨fun args result => ⟨fun h => ?_, ?_⟩, fun phrases other hoptions hpositionals => ?_,
    fun args fault => ⟨fun h => ?_, ?_⟩⟩
  · rcases parse_cases args with ⟨phrases, file, symbol, hspell, htwo, hparse⟩ |
      ⟨_, _, _, -, -, hparse⟩ | ⟨_, _, -, -, hparse⟩
    · exact ⟨phrases, file, symbol, hspell, htwo, Except.ok.inj (hparse.symm.trans h)⟩
    · cases hparse.symm.trans h
    · cases hparse.symm.trans h
  · rintro ⟨phrases, file, symbol, rfl, htwo, rfl⟩
    exact parse_spell htwo
  · rcases two_or_miscounted (positionals phrases) with ⟨file, symbol, htwo⟩ | ⟨fault, hcount⟩
    · rw [parse_spell htwo, parse_spell (hpositionals ▸ htwo), describe_congr hoptions]
    · rw [parse_spell_miscounted hcount, parse_spell_miscounted (hpositionals ▸ hcount)]
  · rcases parse_cases args with ⟨_, _, _, -, -, hparse⟩ |
      ⟨phrases, rest, other, hargs, hrest, hparse⟩ | ⟨phrases, other, hargs, hcount, hparse⟩
    · cases hparse.symm.trans h
    · cases hparse.symm.trans h
      exact .inl ⟨phrases, rest, hargs, hrest⟩
    · cases hparse.symm.trans h
      exact .inr ⟨phrases, hargs, hcount⟩
  · rintro (⟨phrases, rest, rfl, hrest⟩ | ⟨phrases, rfl, hcount⟩)
    · exact parse_malformed phrases hrest
    · exact parse_spell_miscounted hcount

namespace Interleaved

/-- `--models`, `-o out.json` and `--max-depth=64`. -/
def options : List Phrase :=
  [.models, .output false "out.json", .limit "64" 64 (limit?_eq_some_iff.1 (by decide))]

/-- The declaration `raw` of `db.ts`. -/
def names : List Phrase := [.positional "db.ts" (by decide), .positional "raw" (by decide)]

/-- The two positional arguments may stand before the options or around them. -/
theorem parse_grammar_interleaved :
    let around := names.take 1 ++ options ++ names.drop 1
    around.filter Phrase.isOption = (names ++ options).filter Phrase.isOption ∧
      positionals around = positionals (names ++ options) ∧
      parse ["db.ts", "--models", "-o", "out.json", "--max-depth=64", "raw"] =
        parse ["db.ts", "raw", "--models", "-o", "out.json", "--max-depth=64"] := by
  intro around
  exact ⟨rfl, rfl, parse_grammar.2.1 around (names ++ options) rfl rfl⟩

end Interleaved

end Arguments

end StaticConfig
