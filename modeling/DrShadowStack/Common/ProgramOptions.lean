import DrShadowStack.Common.CString

/-!
# Command lines as Boost.Program_options reads them

The library in its default style, with unregistered options allowed. A word is read on its own
(`token`): `--name` and `--name=value` name or abbreviate an option, `-abc` is a group of flags,
`--` ends the options, and whatever else there is stands for itself. Only an option that lacks its
value takes the next word with it.

The functions that a program calls are a parameter (`Library`), of which nothing is assumed but what
their documentation says (`Documented`). `defaultStyle` is one such library.
-/

namespace ProgramOptions

/-- What an option takes. -/
inductive Semantic
  /-- Nothing: a flag, which has a short name as well. -/
  | flag (short : UInt8)
  /-- `value<std::string>()` -/
  | single (required : Bool)
  /-- `value<std::vector<std::string>>()`, one value at each occurrence. -/
  | list
deriving DecidableEq

/-- One option of `add_options()`. -/
structure OptionDescription where
  name : CString
  semantic : Semantic
deriving DecidableEq

/-- `options_description` -/
abbrev Description := List OptionDescription

/-- `positional_options_description`: the names of the first positions, and that of all others. -/
structure Positional where
  names : List CString
  trailing : CString

/-- What is parsed of a command line, with the original tokens that may be collected later. -/
inductive ParsedOption
  | named (name : CString) (value : List CString)
  | unregistered (original : CString)
  | positional (name : Option CString) (value original : CString)
deriving DecidableEq

/-- `variables_map`: the values of each option that was given. -/
abbrev VariablesMap := CString → Option (List CString)

/-- `args[name].as<std::string>()`, or `none` where the cast throws. -/
def VariablesMap.asString (vm : VariablesMap) (name : CString) : Option CString :=
  match vm name with
  | some [v] => some v
  | _ => none

theorem VariablesMap.asString_eq_some_iff {vm : VariablesMap} {name v : CString} :
    vm.asString name = some v ↔ vm name = some [v] := by
  unfold asString
  split
  · next w h => simp [h]
  · next hno => exact ⟨nofun, fun h => absurd h (hno v)⟩

/-! ## Reading one word -/

/-- What a name stands for. -/
inductive Found
  | nothing
  | one (o : OptionDescription)
  | ambiguous
deriving DecidableEq

/-- The characters of `--`. -/
def dashes : List UInt8 := [45, 45]

/-- The option has this name, long or short. -/
def OptionDescription.fullMatch (o : OptionDescription) (name : List UInt8) : Bool :=
  name == o.name.chars || match o.semantic with
    | .flag c => name == [45, c]
    | _ => false

/-- The name abbreviates that of the option. -/
def OptionDescription.approximateMatch (o : OptionDescription) (name : List UInt8) : Bool :=
  decide (name <+: o.name.chars)

/-- The option that has the name, or else the only one whose name it abbreviates. -/
def find (desc : Description) (name : List UInt8) : Found :=
  match desc.filter (·.fullMatch name) with
  | [o] => .one o
  | _ :: _ :: _ => .ambiguous
  | [] =>
    match desc.filter (·.approximateMatch name) with
    | [o] => .one o
    | _ :: _ :: _ => .ambiguous
    | [] => .nothing

/-- What a word says. -/
inductive Token
  /-- The end of the options. -/
  | terminator
  /-- An error. -/
  | malformed
  /-- Options with all that they take. -/
  | complete (opts : List ParsedOption)
  /-- An option whose value is the next word. -/
  | needsValue (name : CString)
deriving DecidableEq

/-- The name in a word `--name` or `--name=value`. -/
def longName (w : CString) : List UInt8 := (w.chars.takeWhile (· ≠ 61)).drop 2

/-- The value in a word `--name=value`. -/
def adjacentValue (w : CString) : Option CString :=
  if 61 ∈ w.chars then some (w.drop ((w.chars.takeWhile (· ≠ 61)).length + 1)) else none

/-- A word whose name stands for `found`. -/
def optionToken (w : CString) (found : Found) (adjacent : Option CString) : Token :=
  match found with
  | .nothing => .complete [.unregistered w]
  | .ambiguous => .malformed
  | .one o =>
    match o.semantic, adjacent with
    | .flag _, none => .complete [.named o.name []]
    | .flag _, some _ => .malformed
    | _, none => .needsValue o.name
    | _, some value => .complete [.named o.name [value]]

/-- A word that begins with two dashes and goes on. -/
def longToken (desc : Description) (w : CString) : Token :=
  if (adjacentValue w).map CString.chars = some [] then .malformed
  -- without a name the value stands for itself
  else if longName w = [] then .complete [.positional none ((adjacentValue w).getD w) w]
  else optionToken w (find desc (longName w)) (adjacentValue w)

/-- A group of short names; from the first on that is no flag, the word is unregistered. -/
def shortOptions (desc : Description) (w : CString) : List UInt8 → List ParsedOption
  | [] => []
  | c :: rest =>
    match desc.find? (·.semantic = .flag c) with
    | some o => .named o.name [] :: shortOptions desc w rest
    | none => [.unregistered w]

/-- How a word is read that is not taken as a value. -/
def token (desc : Description) (w : CString) : Token :=
  if w.chars = dashes then .terminator
  else if dashes <+: w.chars then longToken desc w
  else if [45] <+: w.chars ∧ w.chars ≠ [45] then .complete (shortOptions desc w (w.chars.drop 1))
  else .complete [.positional none w w]

/-! ## The library -/

/-- The name of a position. -/
def Positional.nameFor (pos : Positional) (i : ℕ) : CString := pos.names.getD i pos.trailing

/-- Give the positional options their names, in order, from position `i` on. -/
def Positional.assign (pos : Positional) : ℕ → List ParsedOption → List ParsedOption
  | _, [] => []
  | i, .positional _ value original :: opts =>
    .positional (some (pos.nameFor i)) value original :: pos.assign (i + 1) opts
  | i, o :: opts => o :: pos.assign i opts

/-- The value that a parsed option gives to the option `name`. -/
def ParsedOption.valueFor (name : CString) : ParsedOption → Option (List CString)
  | .named n value => if n = name then some value else none
  | .unregistered _ => none
  | .positional n value _ => if n = some name then some [value] else none

/-- What `collect_unrecognized` takes of an option, positional ones included. -/
def ParsedOption.collected : ParsedOption → List CString
  | .named _ _ => []
  | .unregistered original => [original]
  | .positional _ _ original => [original]

/-- The values that are given to an option, one list for each occurrence. -/
def occurrences (name : CString) (opts : List ParsedOption) : List (List CString) :=
  opts.filterMap (·.valueFor name)

section Occurrences

variable {name n original : CString} {opts rest : List ParsedOption}

@[simp] theorem occurrences_nil : occurrences name [] = [] := rfl

@[simp] theorem occurrences_named {value : List CString} :
    occurrences name (.named n value :: opts) =
      if n = name then value :: occurrences name opts else occurrences name opts := by
  unfold occurrences
  split_ifs with h
  · exact List.filterMap_cons_some (if_pos h)
  · exact List.filterMap_cons_none (if_neg h)

@[simp] theorem occurrences_unregistered :
    occurrences name (.unregistered original :: opts) = occurrences name opts := rfl

@[simp] theorem occurrences_positional {position : Option CString} {value : CString} :
    occurrences name (.positional position value original :: opts) =
      if position = some name then [value] :: occurrences name opts
      else occurrences name opts := by
  unfold occurrences
  split_ifs with h
  · exact List.filterMap_cons_some (if_pos h)
  · exact List.filterMap_cons_none (if_neg h)

@[simp] theorem occurrences_append :
    occurrences name (opts ++ rest) = occurrences name opts ++ occurrences name rest :=
  List.filterMap_append

theorem occurrences_flatMap_eq_nil {α : Type} {l : List α} {f : α → List ParsedOption}
    (h : ∀ a ∈ l, occurrences name (f a) = []) : occurrences name (l.flatMap f) = [] := by
  rw [occurrences, List.filterMap_flatMap]
  exact List.flatMap_eq_nil_iff.mpr h

end Occurrences

/-- No option that takes a single value, and no flag, occurs twice. -/
def NoneTwice (desc : Description) (opts : List ParsedOption) : Prop :=
  ∀ o ∈ desc, o.semantic ≠ .list → (occurrences o.name opts).length ≤ 1

instance (desc : Description) (opts : List ParsedOption) : Decidable (NoneTwice desc opts) :=
  inferInstanceAs (Decidable (∀ o ∈ desc, _))

/-- The map with the options added. -/
def stored (opts : List ParsedOption) (vm : VariablesMap) : VariablesMap := fun name =>
  if occurrences name opts = [] then vm name else some (occurrences name opts).flatten

/-- The functions of the library; `none` where they throw. -/
structure Library where
  /-- `command_line_parser( argc, argv ).options( desc ).allow_unregistered().run()` -/
  run : Description → List CString → Option (List ParsedOption)
  /-- The same with `.positional( pos )`. -/
  runPositional : Description → Positional → List CString → Option (List ParsedOption)
  store : Description → List ParsedOption → VariablesMap → Option VariablesMap
  /-- `notify`, for the options of all descriptions that were stored. -/
  notify : Description → VariablesMap → Bool
  /-- `collect_unrecognized( opts, include_positional )` -/
  collectUnrecognized : List ParsedOption → List CString
  /-- Whether an option takes a word as its value. One that looks like an option it may refuse. -/
  takes : Description → CString → Bool

/-- What the documentation of the library says. -/
structure Documented (lib : Library) : Prop where
  run_nil : ∀ desc, lib.run desc [] = some []
  /-- Behind the terminator all words stand for themselves. -/
  run_terminator : ∀ desc w ws, token desc w = .terminator →
    lib.run desc (w :: ws) = some (ws.map fun v => .positional none v v)
  run_malformed : ∀ desc w ws, token desc w = .malformed → lib.run desc (w :: ws) = none
  run_complete : ∀ desc w ws opts, token desc w = .complete opts →
    lib.run desc (w :: ws) = (lib.run desc ws).map (opts ++ ·)
  run_missing : ∀ desc w name, token desc w = .needsValue name → lib.run desc [w] = none
  run_value : ∀ desc w v ws name, token desc w = .needsValue name →
    lib.run desc (w :: v :: ws) =
      if lib.takes desc v then (lib.run desc ws).map (.named name [v] :: ·) else none
  takes_word : ∀ desc v, ¬[45] <+: v.chars → lib.takes desc v = true
  runPositional_eq : ∀ desc pos ws,
    lib.runPositional desc pos ws = (lib.run desc ws).map (pos.assign 0)
  /-- Options that were not stored before are stored unless one occurs twice that must not. -/
  store_run : ∀ desc ws opts vm, lib.run desc ws = some opts → (∀ o ∈ desc, vm o.name = none) →
    lib.store desc opts vm = if NoneTwice desc opts then some (stored opts vm) else none
  store_runPositional : ∀ desc pos ws opts vm, lib.runPositional desc pos ws = some opts →
    (∀ name ∈ pos.trailing :: pos.names, ∃ o ∈ desc, o.name = name) →
    (∀ o ∈ desc, vm o.name = none) →
    lib.store desc opts vm = if NoneTwice desc opts then some (stored opts vm) else none
  /-- A required option must have been given. -/
  notify_iff : ∀ desc vm, lib.notify desc vm = true ↔
    ∀ o ∈ desc, o.semantic = .single true → (vm o.name).isSome
  collectUnrecognized_eq : ∀ opts,
    lib.collectUnrecognized opts = opts.flatMap ParsedOption.collected

/-- Parsing word by word, as the documentation has it. -/
def parse (takes : CString → Bool) (desc : Description) : List CString → Option (List ParsedOption)
  | [] => some []
  | w :: ws =>
    match token desc w with
    | .terminator => some (ws.map fun v => .positional none v v)
    | .malformed => none
    | .complete opts => (parse takes desc ws).map (opts ++ ·)
    | .needsValue name =>
      match ws with
      | [] => none
      | v :: ws => if takes v then (parse takes desc ws).map (.named name [v] :: ·) else none

/-- A library that does what is documented, and refuses to take a value that begins with a dash. -/
def defaultStyle : Library where
  run := parse fun v => !decide ([45] <+: v.chars)
  runPositional desc pos ws :=
    (parse (fun v => !decide ([45] <+: v.chars)) desc ws).map (pos.assign 0)
  store desc opts vm := if NoneTwice desc opts then some (stored opts vm) else none
  notify desc vm := desc.all fun o => o.semantic ≠ .single true || (vm o.name).isSome
  collectUnrecognized opts := opts.flatMap ParsedOption.collected
  takes _ v := !decide ([45] <+: v.chars)

theorem documented_defaultStyle : Documented defaultStyle where
  run_nil _ := rfl
  run_terminator desc w ws h := by
    simp only [defaultStyle]
    rw [parse, h]
  run_malformed desc w ws h := by
    simp only [defaultStyle]
    rw [parse, h]
  run_complete desc w ws opts h := by
    simp only [defaultStyle]
    rw [parse, h]
  run_missing desc w name h := by
    simp only [defaultStyle]
    rw [parse, h]
  run_value desc w v ws name h := by
    simp only [defaultStyle]
    rw [parse, h]
    rfl
  takes_word desc v h := by simp [defaultStyle, h]
  runPositional_eq _ _ _ := rfl
  store_run _ _ _ _ _ _ := rfl
  store_runPositional _ _ _ _ _ _ _ _ := rfl
  notify_iff desc vm := by
    simp only [defaultStyle, List.all_eq_true, Bool.or_eq_true, decide_eq_true_eq, ne_eq]
    exact forall₂_congr fun o _ => imp_iff_not_or.symm
  collectUnrecognized_eq _ := rfl

/-! ## One word -/

/-- The options that a word says with all that they take. -/
def optionsOf (desc : Description) (w : CString) : List ParsedOption :=
  match token desc w with
  | .complete opts => opts
  | _ => []

/-- The word is kept: it is collected, as it is, and takes no other with it. -/
def keeps (desc : Description) (w : CString) : Bool :=
  match token desc w with
  | .complete opts => opts.flatMap ParsedOption.collected == [w]
  | _ => false

/-- All options are flags. -/
def AllFlags (desc : Description) : Prop := ∀ o ∈ desc, ∃ c, o.semantic = .flag c

/-- No option is a flag. -/
def NoFlags (desc : Description) : Prop := ∀ o ∈ desc, ∀ c, o.semantic ≠ .flag c

section Words

variable {desc : Description} {w name : CString} {opts : List ParsedOption}

theorem keeps_iff :
    keeps desc w = true ↔
      ∃ opts, token desc w = .complete opts ∧ opts.flatMap ParsedOption.collected = [w] := by
  unfold keeps
  cases token desc w <;> simp

theorem token_of_not_dash (h : ¬[45] <+: w.chars) :
    token desc w = .complete [.positional none w w] := by
  have hdashes : ¬dashes <+: w.chars := fun hd => h (List.IsPrefix.trans ⟨[45], rfl⟩ hd)
  have hne : w.chars ≠ dashes := fun heq => hdashes (heq ▸ List.prefix_refl _)
  rw [token, if_neg hne, if_neg hdashes, if_neg fun hand => h hand.1]

/-- The name is one of the option's, or it abbreviates the option's name. -/
def OptionDescription.Matches (o : OptionDescription) (n : List UInt8) : Prop :=
  o.fullMatch n = true ∨ n <+: o.name.chars

theorem find_eq_one {n : List UInt8} {o : OptionDescription} (h : find desc n = .one o) :
    o ∈ desc ∧ o.Matches n := by
  have hfilter : ∀ {q : OptionDescription → Bool} {o'}, desc.filter q = [o'] →
      o' ∈ desc ∧ q o' = true :=
    fun hq => List.mem_filter.mp (hq ▸ List.mem_singleton_self _)
  unfold find at h
  split at h
  · next hfull =>
    obtain rfl := Found.one.inj h
    exact ⟨(hfilter hfull).1, .inl (hfilter hfull).2⟩
  · cases h
  · split at h
    · next happrox =>
      obtain rfl := Found.one.inj h
      exact ⟨(hfilter happrox).1, .inr (of_decide_eq_true (hfilter happrox).2)⟩
    · cases h
    · cases h

/-- A word whose name stands for an option says this option. -/
theorem optionToken_one (w : CString) (o : OptionDescription) (adjacent : Option CString) :
    ((∃ c, o.semantic = .flag c) ∧ (optionToken w (.one o) adjacent = .malformed ∨
      optionToken w (.one o) adjacent = .complete [.named o.name []])) ∨
    (∀ c, o.semantic ≠ .flag c) ∧ (optionToken w (.one o) adjacent = .needsValue o.name ∨
      ∃ v, optionToken w (.one o) adjacent = .complete [.named o.name [v]]) := by
  obtain ⟨name, semantic⟩ := o
  cases semantic <;> cases adjacent <;> simp [optionToken]

/-- What a word may say: the end of the options, one option or value, or a group of flags. -/
inductive Reading (desc : Description) (w : CString) : Token → Prop
  | terminator : w.chars = dashes → Reading desc w .terminator
  | malformed : Reading desc w .malformed
  | positional (v : CString) : Reading desc w (.complete [.positional none v w])
  | unregistered : Reading desc w (.complete [.unregistered w])
  | flag (o : OptionDescription) (c : UInt8) : o ∈ desc → o.semantic = .flag c →
      Reading desc w (.complete [.named o.name []])
  | flags (c : UInt8) (cs : List UInt8) : Reading desc w (.complete (shortOptions desc w (c :: cs)))
  | needsValue (o : OptionDescription) : o ∈ desc → (∀ c, o.semantic ≠ .flag c) →
      Reading desc w (.needsValue o.name)
  | value (o : OptionDescription) (v : CString) : o ∈ desc → (∀ c, o.semantic ≠ .flag c) →
      Reading desc w (.complete [.named o.name [v]])

theorem reading_longToken (desc : Description) (w : CString) :
    Reading desc w (longToken desc w) := by
  unfold longToken
  split
  · exact .malformed
  split
  · exact .positional _
  rcases hfind : find desc (longName w) with _ | o | _
  · exact .unregistered
  · obtain ⟨ho, -⟩ := find_eq_one hfind
    rcases optionToken_one w o (adjacentValue w) with ⟨⟨c, hc⟩, hm | hf⟩ | ⟨hno, hn | ⟨v, hv⟩⟩
    · exact hm ▸ .malformed
    · exact hf ▸ .flag o c ho hc
    · exact hn ▸ .needsValue o ho hno
    · exact hv ▸ .value o v ho hno
  · exact .malformed

theorem reading (desc : Description) (w : CString) : Reading desc w (token desc w) := by
  unfold token
  split
  · next h => exact .terminator h
  split
  · exact reading_longToken desc w
  split
  · next hdash =>
    obtain ⟨⟨cs, hcs⟩, hne⟩ := hdash
    rw [← hcs] at hne ⊢
    cases cs with
    | nil => exact absurd rfl hne
    | cons c cs => exact .flags c cs
  · exact .positional w

theorem token_eq_terminator_iff : token desc w = .terminator ↔ w.chars = dashes := by
  constructor
  · intro h
    cases h ▸ reading desc w with
    | terminator hw => exact hw
  · intro h
    rw [token, if_pos h]

/-- Of a word at most the word itself is collected. -/
theorem collected_shortOptions (desc : Description) (w : CString) (cs : List UInt8) :
    (shortOptions desc w cs).flatMap ParsedOption.collected = [] ∨
      (shortOptions desc w cs).flatMap ParsedOption.collected = [w] := by
  induction cs with
  | nil => exact .inl rfl
  | cons c cs ih =>
    rw [shortOptions]
    split
    · simpa [ParsedOption.collected] using ih
    · exact .inr rfl

@[inherit_doc collected_shortOptions]
theorem collected_complete (h : token desc w = .complete opts) :
    opts.flatMap ParsedOption.collected = [] ∨ opts.flatMap ParsedOption.collected = [w] := by
  cases h ▸ reading desc w with
  | positional v => exact .inr rfl
  | unregistered => exact .inr rfl
  | flag o c => exact .inl rfl
  | flags c cs => exact collected_shortOptions desc w (c :: cs)
  | value o v => exact .inl rfl

/-- Where a word with two dashes gives an option, its name matches that of one. -/
theorem matches_of_named {value : List CString} (hdashes : dashes <+: w.chars)
    (h : .named name value ∈ optionsOf desc w) :
    longName w ≠ [] ∧ ∃ o ∈ desc, o.Matches (longName w) := by
  unfold optionsOf token at h
  by_cases hw : w.chars = dashes
  · simp [hw] at h
  rw [if_neg hw, if_pos hdashes] at h
  unfold longToken at h
  by_cases hadjacent : (adjacentValue w).map CString.chars = some []
  · simp [hadjacent] at h
  rw [if_neg hadjacent] at h
  by_cases hname : longName w = []
  · simp [hname] at h
  rw [if_neg hname] at h
  refine ⟨hname, ?_⟩
  rcases hfind : find desc (longName w) with _ | o | _
  · simp [hfind, optionToken] at h
  · exact ⟨o, find_eq_one hfind⟩
  · simp [hfind, optionToken] at h

/-- Without flags among the options only such a word gives one. -/
theorem NoFlags.dashes_of_named (hdesc : NoFlags desc) {value : List CString}
    (h : .named name value ∈ optionsOf desc w) : dashes <+: w.chars := by
  by_contra hdashes
  have hne : w.chars ≠ dashes := fun heq => hdashes (heq ▸ List.prefix_refl _)
  unfold optionsOf token at h
  rw [if_neg hne, if_neg hdashes] at h
  split_ifs at h
  · have hnone : ∀ c, desc.find? (·.semantic = .flag c) = none := fun c =>
      List.find?_eq_none.mpr fun o ho => by simpa using hdesc o ho c
    cases hcs : w.chars.drop 1 with
    | nil => simp [hcs, shortOptions] at h
    | cons c cs => simp [hcs, shortOptions, hnone] at h
  · simp at h

/-- The first character of a name that matches. -/
theorem OptionDescription.Matches.head {o : OptionDescription} {c : UInt8} {cs : List UInt8}
    (h : o.Matches (c :: cs)) :
    o.name.chars.head? = some c ∨ c = 45 ∧ ∃ short, o.semantic = .flag short := by
  rcases h with hfull | ⟨rest, hrest⟩
  · rw [fullMatch, Bool.or_eq_true, beq_iff_eq] at hfull
    rcases hfull with heq | hshort
    · exact .inl (by rw [← heq, List.head?_cons])
    · cases hsemantic : o.semantic with
      | flag short =>
        rw [hsemantic, beq_iff_eq] at hshort
        exact .inr ⟨(List.cons.inj hshort).1, short, rfl⟩
      | single required => simp [hsemantic] at hshort
      | list => simp [hsemantic] at hshort
  · exact .inl (by rw [← hrest, List.cons_append, List.head?_cons])

/-- A word gives values to the options of the description alone. -/
theorem occurrences_optionsOf (h : ∀ o ∈ desc, o.name ≠ name) (w : CString) :
    occurrences name (optionsOf desc w) = [] := by
  have hshort : ∀ cs, occurrences name (shortOptions desc w cs) = [] := by
    intro cs
    induction cs with
    | nil => rfl
    | cons c cs ih =>
      rw [shortOptions]
      split
      · next o hfind =>
        rw [occurrences_named, if_neg (h o (List.mem_of_find?_eq_some hfind)), ih]
      · rfl
  unfold optionsOf
  generalize htoken : token desc w = t
  cases htoken ▸ reading desc w with
  | flags c cs => exact hshort (c :: cs)
  | flag o c ho => simp [h o ho]
  | value o v ho => simp [h o ho]
  | positional v => rfl
  | unregistered => rfl
  | _ => rfl

/-- The positional options of a word have no name yet. -/
theorem named_of_occurrences (h : occurrences name (optionsOf desc w) ≠ []) :
    ∃ value, .named name value ∈ optionsOf desc w := by
  have hunnamed : ∀ n v original, .positional n v original ∈ optionsOf desc w → n = none := by
    have hshort : ∀ cs n v original, .positional n v original ∉ shortOptions desc w cs := by
      intro cs n v original
      induction cs with
      | nil => simp [shortOptions]
      | cons c cs ih =>
        rw [shortOptions]
        split
        · simpa using ih
        · simp
    intro n v original hmem
    unfold optionsOf at hmem
    generalize htoken : token desc w = t at hmem
    cases htoken ▸ reading desc w with
    | positional v' => exact (ParsedOption.positional.inj (List.mem_singleton.mp hmem)).1
    | flags c cs => exact absurd hmem (hshort (c :: cs) n v original)
    | _ => simp at hmem
  obtain ⟨value, hvalue⟩ := List.exists_mem_of_ne_nil _ h
  obtain ⟨o, ho, hfor⟩ := List.mem_filterMap.mp hvalue
  cases o with
  | named n v =>
    rw [ParsedOption.valueFor] at hfor
    split at hfor
    · next heq => exact ⟨v, heq ▸ ho⟩
    · cases hfor
  | unregistered original => cases hfor
  | positional n v original =>
    rw [ParsedOption.valueFor, hunnamed n v original ho] at hfor
    simp at hfor

/-- Without flags among the options a word that takes no other says one thing. -/
theorem NoFlags.complete (hdesc : NoFlags desc) (h : token desc w = .complete opts) :
    (∃ v, opts = [.positional none v w]) ∨ opts = [.unregistered w] ∨
      ∃ o ∈ desc, ∃ v, opts = [.named o.name [v]] := by
  cases h ▸ reading desc w with
  | positional v => exact .inl ⟨v, rfl⟩
  | unregistered => exact .inr (.inl rfl)
  | flag o c ho hc => exact absurd hc (hdesc o ho c)
  | flags c cs =>
    have hnone : desc.find? (·.semantic = .flag c) = none :=
      List.find?_eq_none.mpr fun o ho => by simpa using hdesc o ho c
    rw [shortOptions, hnone]
    exact .inr (.inl rfl)
  | value o v ho => exact .inr (.inr ⟨o, ho, v, rfl⟩)

end Words

end ProgramOptions
