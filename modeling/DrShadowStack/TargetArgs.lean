import DrShadowStack.ParseArgs

/-!
# What becomes of the target's words

The target's own words are on the command line that both parses read. A word that one of them takes
for an option, for its terminator or for an error does not reach the target as it was written
(`handsOver_iff`). And where all words are options of the program given by name there is no word
left to be the target, though the target was given (`parsesSafely_iff`).
-/

namespace DrShadowStack

open ProgramOptions

variable {build : Build} {lib : Library}

/-- `--ss_mode` -/
def modeWord : CString := separator ++ MODE

/-- The command line `--ss_mode mode target as` is parsed into its parts, and drrun gets `-- target
as`. -/
structure HandsOver (build : Build) (lib : Library) (mode target : CString) (as : List CString) :
    Prop where
  parsed : parseArgs build lib (modeWord :: mode :: target :: as) = .returned ⟨⟨mode⟩, target, as⟩
  handed : ∀ args, parseArgs build lib (modeWord :: mode :: target :: as) = .returned args →
    execArgs build args = drrunArgs build ⟨mode⟩ ++ separator :: target :: as

/-! ## The words of the target -/

section Words

variable {mode target : CString} {as : List CString}

theorem not_dash_of_isImplemented (h : SSMode.isImplemented ⟨mode⟩ = true) :
    ¬[45] <+: mode.chars := by
  simp only [SSMode.isImplemented, SSMode.isInternal, SSMode.isExternal, Bool.or_eq_true,
    beq_iff_eq] at h
  rcases h with rfl | rfl <;> decide

/-- The words in front of the target's are nothing to the first parse. -/
theorem accepts_usage_iff (hmode : ¬[45] <+: mode.chars) (htarget : ¬[45] <+: target.chars) :
    Accepts usageOptions (modeWord :: mode :: target :: as) ↔ Accepts usageOptions as := by
  have hword : token usageOptions modeWord = .complete [.unregistered modeWord] := by decide
  rw [accepts_cons hword fun _ => rfl, accepts_cons (token_of_not_dash hmode) fun _ => rfl,
    accepts_cons (token_of_not_dash htarget) fun _ => rfl]

/-- The second parse takes the mode and the target, and goes on with the words of the target. -/
theorem run_config_eq (hlib : Documented lib) (hmode : ¬[45] <+: mode.chars)
    (htarget : ¬[45] <+: target.chars) (as : List CString) :
    lib.runPositional configOptions targetOptions (modeWord :: mode :: target :: as) =
      (parse (lib.takes configOptions) configOptions as).map fun rest =>
        .named MODE [mode] :: .positional (some TARGET) target target ::
          targetOptions.assign 1 rest := by
  have hword : token configOptions modeWord = .needsValue MODE := by decide
  have htakes : lib.takes configOptions mode = true := hlib.takes_word configOptions mode hmode
  rw [hlib.runPositional_eq, hlib.run_value configOptions modeWord mode _ MODE hword,
    if_pos htakes, hlib.run_complete configOptions target as _ (token_of_not_dash htarget),
    hlib.run_eq]
  cases parse (lib.takes configOptions) configOptions as <;> rfl

/-- The options that the second parse finds, where it finds those of the target in `rest`. -/
def configParsed (mode target : CString) (rest : List ParsedOption) : List ParsedOption :=
  .named MODE [mode] :: .positional (some TARGET) target target :: targetOptions.assign 1 rest

theorem collected_configParsed (rest : List ParsedOption) :
    (configParsed mode target rest).flatMap ParsedOption.collected =
      target :: rest.flatMap ParsedOption.collected := by
  rw [configParsed, List.flatMap_cons, List.flatMap_cons, collected_assign]
  rfl

/-- Words that are kept leave mode and target as they are given. -/
theorem occurrences_kept {rest : List ParsedOption}
    (h : ∀ o ∈ rest, ∀ name value, o ≠ .named name value) :
    occurrences MODE (configParsed mode target rest) = [[mode]] ∧
      occurrences TARGET (configParsed mode target rest) = [[target]] := by
  have hmode : occurrences MODE (targetOptions.assign 1 rest) = [] :=
    occurrences_assign le_rfl (by decide) h
  have htarget : occurrences TARGET (targetOptions.assign 1 rest) = [] :=
    occurrences_assign le_rfl (by decide) h
  have hne : TARGET ≠ MODE := by decide
  unfold configParsed
  constructor
  · simp [hmode, hne]
  · simp [htarget, hne.symm]

theorem noneTwice_kept {rest : List ParsedOption}
    (h : ∀ o ∈ rest, ∀ name value, o ≠ .named name value) :
    NoneTwice configOptions (configParsed mode target rest) := by
  obtain ⟨hmode, htarget⟩ := @occurrences_kept mode target rest h
  intro o ho hlist
  simp only [configOptions, List.mem_cons, List.not_mem_nil, or_false] at ho
  rcases ho with rfl | rfl | rfl
  · exact Nat.le_of_eq (congrArg List.length hmode)
  · exact Nat.le_of_eq (congrArg List.length htarget)
  · exact absurd rfl hlist

/-- Where all words are kept and the first parse has no part in them, they are handed over. -/
theorem parsed_of_kept (hlib : Documented lib) (hmode : SSMode.isImplemented ⟨mode⟩ = true)
    (htarget : ¬[45] <+: target.chars) (hkeeps : ∀ w ∈ as, keeps configOptions w = true)
    (haccepts : Accepts usageOptions as) :
    parseArgs build lib (modeWord :: mode :: target :: as) =
      .returned ⟨⟨mode⟩, target, as⟩ := by
  have hdash := not_dash_of_isImplemented hmode
  obtain ⟨rest, hparse, hcollected, hnamed⟩ :=
    @NoFlags.parse_keeps _ (lib.takes configOptions) _ noFlags_configOptions hkeeps
  have hrun : lib.runPositional configOptions targetOptions (modeWord :: mode :: target :: as) =
      some (configParsed mode target rest) := by
    rw [run_config_eq hlib hdash htarget, hparse]
    rfl
  obtain ⟨hoccMode, hoccTarget⟩ := @occurrences_kept mode target rest hnamed
  have htwice := @noneTwice_kept mode target rest hnamed
  have hvalid : SSMode.isValidMode ⟨mode⟩ = true := by
    simp only [SSMode.isImplemented, SSMode.isValidMode, Bool.or_eq_true] at hmode ⊢
    tauto
  refine parseArgs_returned_iff.mpr ⟨hvalid,
    configArgs build (modeWord :: mode :: target :: as) (configParsed mode target rest), ?_, ?_, ?_⟩
  · refine (parseArgsHelper_eq_iff hlib (by simp) (by simp)).mpr
      ⟨(accepts_usage_iff hdash htarget).mpr haccepts, fun h => ?_, ?_⟩
    · exact absurd h.1 (by simp)
    · refine (parseConfig_returned_iff hlib).mpr ⟨_, target, hrun, htwice, hoccTarget, ?_, rfl⟩
      rw [collected_configParsed, hcollected]
  · rw [VariablesMap.asString_eq_some_iff]
    unfold configArgs stored
    simp [hoccMode]
  · exact (configArgs_target_iff htwice (by simp [hoccTarget])).mpr hoccTarget

/-- Only words that are kept, and in which the first parse has no part, are handed over. -/
theorem kept_of_parsed (hlib : Documented lib) (hmode : ¬[45] <+: mode.chars)
    (htarget : ¬[45] <+: target.chars)
    (h : parseArgs build lib (modeWord :: mode :: target :: as) =
      .returned ⟨⟨mode⟩, target, as⟩) :
    (∀ w ∈ as, keeps configOptions w = true) ∧ Accepts usageOptions as := by
  obtain ⟨-, vm, hhelper, -, -⟩ := parseArgs_returned_iff.mp h
  obtain ⟨haccepts, -, hconfig⟩ := (parseArgsHelper_eq_iff hlib (by simp) (by simp)).mp hhelper
  refine ⟨?_, (accepts_usage_iff hmode htarget).mp haccepts⟩
  obtain ⟨opts, first, hrun, -, -, hcollected, -⟩ := (parseConfig_returned_iff hlib).mp hconfig
  rw [run_config_eq hlib hmode htarget] at hrun
  obtain ⟨rest, hparse, rfl⟩ := Option.map_eq_some_iff.mp hrun
  have hrest : rest.flatMap ParsedOption.collected = as :=
    (List.cons.inj ((collected_configParsed rest).symm.trans hcollected)).2
  exact (collected_parse hparse).2 (congrArg List.length hrest)

end Words

/-- **The target gets its words exactly where both parses leave them alone.** -/
theorem handsOver_iff (hlib : Documented lib) {mode target : CString}
    (hmode : SSMode.isImplemented ⟨mode⟩ = true) (htarget : ¬[45] <+: target.chars)
    (as : List CString) :
    HandsOver build lib mode target as ↔
      (∀ w ∈ as, keeps configOptions w = true) ∧ Accepts usageOptions as := by
  constructor
  · intro h
    exact kept_of_parsed hlib (not_dash_of_isImplemented hmode) htarget h.parsed
  · rintro ⟨hkeeps, haccepts⟩
    have hparsed := @parsed_of_kept build lib mode target as hlib hmode htarget hkeeps haccepts
    refine ⟨hparsed, fun args hargs => ?_⟩
    obtain rfl := Outcome.returned.inj (hparsed.symm.trans hargs)
    simp [execArgs]

/-- A build with the default configuration. -/
def releaseBuild : Build where
  drrunPath := CString.lit "/dynamorio/build/bin64/drrun"
  dynamorioClientSo := CString.lit "libss_dr_client.so"
  drDebugLogLevel := none
  defaultMode := INTERNAL_MODE_FLAG

theorem handsOver_iff_ls :
    HandsOver releaseBuild defaultStyle EXTERNAL_MODE_FLAG (CString.lit "ls")
        [CString.lit "-la", CString.lit "./"] ↔
      (∀ w ∈ [CString.lit "-la", CString.lit "./"], keeps configOptions w = true) ∧
        Accepts usageOptions [CString.lit "-la", CString.lit "./"] :=
  handsOver_iff documented_defaultStyle (by decide) (by decide) _

/-- A `--` of the target is dropped, its second `-v` is an error, and so is its option that
abbreviates one of the program's. -/
theorem not_handsOver_checkout :
    parseArgs releaseBuild defaultStyle [modeWord, INTERNAL_MODE_FLAG, CString.lit "git",
        CString.lit "checkout", separator, CString.lit "f"] =
      .returned ⟨⟨INTERNAL_MODE_FLAG⟩, CString.lit "git",
        [CString.lit "checkout", CString.lit "f"]⟩ ∧
    parseArgs releaseBuild defaultStyle [modeWord, INTERNAL_MODE_FLAG, CString.lit "ssh",
        CString.lit "-vv", CString.lit "host"] = .incorrectUsage none ∧
    parseArgs releaseBuild defaultStyle [modeWord, INTERNAL_MODE_FLAG, CString.lit "make",
        CString.lit "--t"] = .incorrectUsage none ∧
    ¬HandsOver releaseBuild defaultStyle INTERNAL_MODE_FLAG (CString.lit "git")
        [CString.lit "checkout", separator, CString.lit "f"] := by
  refine ⟨by decide, by decide, by decide, fun h => ?_⟩
  exact absurd h.parsed (by decide)

/-! ## The target given by its name -/

/-- The words give options by name, the target once and the mode at most once, and nothing else;
and the first parse accepts them. -/
structure GivenByNameAlone (lib : Library) (words : List CString) : Prop where
  accepts : Accepts usageOptions words
  named : ∃ given, NamedOnly (lib.takes configOptions) configOptions words given ∧
    (given.map Prod.fst).count TARGET = 1 ∧ (given.map Prod.fst).count MODE ≤ 1

/-- The parser exits for `--help` or `--version`, reports incorrect usage, or returns the first of
the collected words as the target and the others as its arguments. -/
def ParsesSafely (build : Build) (lib : Library) (words : List CString) : Prop :=
  match parseArgs build lib words with
  | .exited asked => asked = HELP ∨ asked = VERSION
  | .incorrectUsage _ => True
  | .outOfRange => False
  | .aborted => False
  | .returned args => ∃ opts, lib.runPositional configOptions targetOptions words = some opts ∧
      lib.collectUnrecognized opts = args.target :: args.targetArgs

section ByName

variable {words : List CString} {opts : List ParsedOption}

/-- A name does not match an option of both parses. -/
theorem not_matches_usage {n : List UInt8} (hn : n ≠ [])
    (h : ∃ o ∈ configOptions, o.Matches n) : ¬∃ u ∈ usageOptions, u.Matches n := by
  rintro ⟨u, hu, hmatches⟩
  obtain ⟨o, ho, hmatches'⟩ := h
  obtain ⟨c, cs, rfl⟩ := List.exists_cons_of_ne_nil hn
  have hhead : o.name.chars.head? = some c := by
    rcases hmatches'.head with hhead | ⟨-, short, hshort⟩
    · exact hhead
    · exact absurd hshort (noFlags_configOptions o ho short)
  have hconfig : ∀ o ∈ configOptions, o.name.chars.head? = some 115 ∨
      o.name.chars.head? = some 116 := by decide
  have husage : ∀ u ∈ usageOptions, u.name.chars.head? = some 104 ∨
      u.name.chars.head? = some 118 := by decide
  have hc : c = 115 ∨ c = 116 := by simpa [hhead] using hconfig o ho
  have hc' : c = 104 ∨ c = 118 ∨ c = 45 := by
    rcases hmatches.head with hhead' | ⟨rfl, -⟩
    · have := husage u hu
      rw [hhead', Option.some.injEq, Option.some.injEq] at this
      tauto
    · exact .inr (.inr rfl)
  rcases hc with rfl | rfl <;> simp at hc'

/-- An option of the configuration that is given with its value in one word is none of the usage
options. -/
theorem not_exits_of_named {w name v : CString}
    (htoken : token configOptions w = .complete [.named name [v]]) : ¬Exits [w] := by
  have hmem : .named name [v] ∈ optionsOf configOptions w := by simp [optionsOf, htoken]
  have hdashes := noFlags_configOptions.dashes_of_named hmem
  obtain ⟨hn, hmatches⟩ := matches_of_named hdashes hmem
  have hno : ∀ n, occurrences n (optionsOf usageOptions w) = [] := by
    intro n
    by_contra hocc
    obtain ⟨value, hvalue⟩ := named_of_occurrences hocc
    exact not_matches_usage hn hmatches (matches_of_named hdashes hvalue).2
  have hunset : ∀ n, usageArgs [w] n = none := by
    intro n
    have hnone : occurrences n ((beforeTerminator [w]).flatMap (optionsOf usageOptions)) = [] := by
      refine occurrences_flatMap_eq_nil fun w' hw' => ?_
      obtain rfl := List.mem_singleton.mp ((List.takeWhile_sublist _).mem hw')
      exact hno n
    rw [usageArgs, stored, if_pos hnone]
  rintro ⟨-, hgiven⟩
  simp [hunset] at hgiven

/-- The one word that gives the target by its name does not make the parser exit. -/
theorem GivenByNameAlone.not_exits (h : GivenByNameAlone lib words) : ¬Exits words := by
  intro hexits
  obtain ⟨given, hgiven, htarget, -⟩ := h.named
  cases hgiven with
  | nil => exact absurd hexits.1 (by simp)
  | terminator htoken => simp at htarget
  | next htoken htakes hrest => exact absurd hexits.1 (by simp)
  | adjacent htoken hrest =>
    cases hrest with
    | nil => exact not_exits_of_named htoken hexits
    | _ => exact absurd hexits.1 (by simp)

/-- The second parse collects nothing exactly of words that give options by name. -/
theorem collected_nil_iff (hlib : Documented lib) :
    lib.runPositional configOptions targetOptions words = some opts ∧
        opts.flatMap ParsedOption.collected = [] ↔
      ∃ given, NamedOnly (lib.takes configOptions) configOptions words given ∧
        opts = parsedOf given := by
  rw [hlib.runPositional_eq, hlib.run_eq]
  constructor
  · rintro ⟨hrun, hcollected⟩
    obtain ⟨rest, hparse, rfl⟩ := Option.map_eq_some_iff.mp hrun
    rw [collected_assign] at hcollected
    obtain ⟨given, hgiven, rfl⟩ := noFlags_configOptions.namedOnly_iff.mpr ⟨hparse, hcollected⟩
    exact ⟨given, hgiven, assign_parsedOf targetOptions 0 given⟩
  · rintro ⟨given, hgiven, rfl⟩
    obtain ⟨hparse, hcollected⟩ := noFlags_configOptions.namedOnly_iff.mp ⟨given, hgiven, rfl⟩
    refine ⟨?_, hcollected⟩
    rw [hparse, Option.map_some, assign_parsedOf]

/-- Storing and `notify` accept the target given once and the mode at most once. -/
theorem accepted_parsedOf_iff (given : List (CString × CString)) :
    NoneTwice configOptions (parsedOf given) ∧ occurrences TARGET (parsedOf given) ≠ [] ↔
      (given.map Prod.fst).count TARGET = 1 ∧ (given.map Prod.fst).count MODE ≤ 1 := by
  have htwice : NoneTwice configOptions (parsedOf given) ↔
      (given.map Prod.fst).count MODE ≤ 1 ∧ (given.map Prod.fst).count TARGET ≤ 1 := by
    simp [NoneTwice, configOptions, length_occurrences_parsedOf]
  rw [htwice, ← List.length_pos_iff_ne_nil, length_occurrences_parsedOf]
  omega

/-- The empty vector is indexed exactly when the words give the target by name and leave none. -/
theorem outOfRange_iff_givenByNameAlone (hlib : Documented lib) :
    parseArgs build lib words = .outOfRange ↔ GivenByNameAlone lib words := by
  rw [parseArgs_outOfRange_iff, parseArgsHelper_eq_iff hlib (by simp) (by simp),
    parseConfig_outOfRange_iff hlib]
  constructor
  · rintro ⟨haccepts, -, opts, hrun, htwice, hgiven, hcollected⟩
    obtain ⟨given, hnamed, rfl⟩ := (collected_nil_iff hlib).mp ⟨hrun, hcollected⟩
    exact ⟨haccepts, given, hnamed, (accepted_parsedOf_iff given).mp ⟨htwice, hgiven⟩⟩
  · intro h
    obtain ⟨given, hnamed, hcounts⟩ := h.named
    obtain ⟨hrun, hcollected⟩ := (collected_nil_iff hlib).mpr ⟨given, hnamed, rfl⟩
    obtain ⟨htwice, hgiven⟩ := (accepted_parsedOf_iff given).mpr hcounts
    exact ⟨h.accepts, h.not_exits, _, hrun, htwice, hgiven, hcollected⟩

/-- The mode is set behind the parse of the configuration, by an option or by default. -/
theorem configArgs_mode (hlib : Documented lib)
    (hrun : lib.runPositional configOptions targetOptions words = some opts)
    (htwice : NoneTwice configOptions opts) :
    ∃ m, (configArgs build words opts).asString MODE = some m := by
  simp only [VariablesMap.asString_eq_some_iff]
  have hfresh : usageArgs words MODE = none :=
    usageArgs_config words ⟨MODE, .single false⟩ (by decide)
  have hle := htwice ⟨MODE, .single false⟩ (by decide) (by decide)
  unfold configArgs stored
  cases hocc : occurrences MODE opts with
  | nil => exact ⟨build.defaultMode, by simp [hfresh]⟩
  | cons value values =>
    rw [hocc] at hle
    obtain rfl : values = [] := List.eq_nil_of_length_eq_zero (by simpa using hle)
    rw [hlib.runPositional_eq, hlib.run_eq] at hrun
    obtain ⟨rest, hparse, rfl⟩ := Option.map_eq_some_iff.mp hrun
    obtain ⟨v, rfl⟩ := noFlags_configOptions.occurrences_values hparse targetOptions 0 value
      (hocc ▸ List.mem_singleton_self _)
    exact ⟨v, by simp [hocc]⟩

/-- The parse of the configuration neither exits nor lets an exception through. -/
theorem parseConfig_cases (hlib : Documented lib) :
    parseConfig build lib words (usageArgs words) = .incorrectUsage none ∨
      parseConfig build lib words (usageArgs words) = .outOfRange ∨
      ∃ r, parseConfig build lib words (usageArgs words) = .returned r := by
  rw [parseConfig_eq hlib]
  split
  · exact .inl rfl
  split_ifs
  · split
    · exact .inr (.inl rfl)
    · split_ifs
      · exact .inr (.inr ⟨_, rfl⟩)
      · exact .inl rfl
  · exact .inl rfl

/-- Both casts in `parse_args` succeed. -/
theorem parseArgs_ne_aborted (hlib : Documented lib) : parseArgs build lib words ≠ .aborted := by
  intro h
  rw [parseArgs] at h
  cases hhelper : parseArgsHelper build lib words with
  | aborted =>
    obtain ⟨-, -, hconfig⟩ := (parseArgsHelper_eq_iff hlib (by simp) (by simp)).mp hhelper
    rcases @parseConfig_cases build lib words hlib with hconfig' | hconfig' | ⟨r, hconfig'⟩ <;>
      cases hconfig.symm.trans hconfig'
  | returned r =>
    obtain ⟨vm, targetArgs⟩ := r
    obtain ⟨-, -, hconfig⟩ := (parseArgsHelper_eq_iff hlib (by simp) (by simp)).mp hhelper
    obtain ⟨opts, first, hrun, htwice, hfirst, -, rfl⟩ :=
      (parseConfig_returned_iff hlib).mp hconfig
    obtain ⟨m, hm⟩ := @configArgs_mode build lib words opts hlib hrun htwice
    have htarget := (@configArgs_target_iff build words opts first htwice (by simp [hfirst])).mpr
      hfirst
    rcases extractArgs_cases (configArgs build words opts) targetArgs with
      ⟨args, hextract⟩ | ⟨logged, hextract⟩ | ⟨-, hnone | hnone⟩
    · simp [hhelper, Outcome.bind, hextract] at h
    · simp [hhelper, Outcome.bind, hextract] at h
    · cases hm.symm.trans hnone
    · cases htarget.symm.trans hnone
  | _ => simp [hhelper, Outcome.bind] at h

theorem asked_of_exited (hlib : Documented lib) {asked : CString}
    (h : parseArgs build lib words = .exited asked) : asked = HELP ∨ asked = VERSION := by
  rw [parseArgs_exited_iff, parseArgsHelper_eq hlib] at h
  split_ifs at h
  · exact .inl (Outcome.exited.inj h).symm
  · exact .inr (Outcome.exited.inj h).symm
  · rcases @parseConfig_cases build lib words hlib with hconfig | hconfig | ⟨r, hconfig⟩ <;>
      cases h.symm.trans hconfig

/-- What is returned was collected. -/
theorem collected_of_returned (hlib : Documented lib) {args : Args}
    (h : parseArgs build lib words = .returned args) :
    ∃ opts, lib.runPositional configOptions targetOptions words = some opts ∧
      lib.collectUnrecognized opts = args.target :: args.targetArgs := by
  obtain ⟨-, vm, hhelper, -, htarget⟩ := parseArgs_returned_iff.mp h
  obtain ⟨-, -, hconfig⟩ := (parseArgsHelper_eq_iff hlib (by simp) (by simp)).mp hhelper
  obtain ⟨opts, first, hrun, htwice, hfirst, hcollected, rfl⟩ :=
    (parseConfig_returned_iff hlib).mp hconfig
  have hfirst' := (@configArgs_target_iff build words opts first htwice (by simp [hfirst])).mpr
    hfirst
  obtain rfl := Option.some.inj (hfirst'.symm.trans htarget)
  exact ⟨opts, hrun, (hlib.collectUnrecognized_eq opts).trans hcollected⟩

end ByName

/-- **The parser is safe exactly where a word is left to be the target**, or storing the options
fails. -/
theorem parsesSafely_iff (hlib : Documented lib) (build : Build) (words : List CString) :
    ParsesSafely build lib words ↔ ¬GivenByNameAlone lib words := by
  rw [← @outOfRange_iff_givenByNameAlone build lib words hlib, ParsesSafely]
  cases h : parseArgs build lib words with
  | exited asked => simpa using asked_of_exited hlib h
  | incorrectUsage logged => simp
  | outOfRange => simp
  | aborted => exact absurd h (parseArgs_ne_aborted hlib)
  | returned args => simpa using collected_of_returned hlib h

theorem parsesSafely_iff_version :
    ParsesSafely releaseBuild defaultStyle [separator ++ VERSION] ↔
      ¬GivenByNameAlone defaultStyle [separator ++ VERSION] :=
  parsesSafely_iff documented_defaultStyle releaseBuild _

/-- `--target ls` satisfies the required option, and leaves no word. -/
theorem not_parsesSafely_target :
    parseArgs releaseBuild defaultStyle [separator ++ TARGET, CString.lit "ls"] = .outOfRange ∧
      ¬ParsesSafely releaseBuild defaultStyle [separator ++ TARGET, CString.lit "ls"] := by
  have h : parseArgs releaseBuild defaultStyle [separator ++ TARGET, CString.lit "ls"] =
      .outOfRange := by decide
  refine ⟨h, ?_⟩
  rw [ParsesSafely, h]
  exact not_false

end DrShadowStack
