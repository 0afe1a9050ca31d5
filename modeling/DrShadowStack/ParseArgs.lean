import DrShadowStack.Common.CommandLine

/-!
# The command line (`parse_args.cpp`, `ss_mode.cpp`, `start_program` of `shadow_stack.cpp`)

The command line is parsed twice, first for the usage options and then for the configuration, each
time with the options of the other parse unregistered. The target and its arguments are what the
second parse leaves unregistered or positional.
-/

namespace DrShadowStack

open ProgramOptions

/-! ## The mode -/

/-- The flag that must be passed to invoke internal mode. -/
def INTERNAL_MODE_FLAG : CString := CString.lit "int"

/-- The flag that must be passed to invoke protected internal mode. -/
def PROT_INTERNAL_MODE_FLAG : CString := CString.lit "prot_int"

/-- The flag that must be passed to invoke external mode. -/
def EXTERNAL_MODE_FLAG : CString := CString.lit "ext"

/-- A shadow stack mode. -/
structure SSMode where
  str : CString
deriving DecidableEq

namespace SSMode

def isInternal (mode : SSMode) : Bool := mode.str == INTERNAL_MODE_FLAG

def isProtectedInternal (mode : SSMode) : Bool := mode.str == PROT_INTERNAL_MODE_FLAG

def isExternal (mode : SSMode) : Bool := mode.str == EXTERNAL_MODE_FLAG

/-- True if any mode is valid. -/
def isValidMode (mode : SSMode) : Bool :=
  mode.isInternal || mode.isProtectedInternal || mode.isExternal

/-- `main` has a branch for the mode, and does not terminate over it. -/
def isImplemented (mode : SSMode) : Bool := mode.isInternal || mode.isExternal

end SSMode

/-! ## The options -/

/-- The key of the target arguments. -/
def TARGET_ARGS : CString := CString.lit "target-args"

/-- The key of the target. -/
def TARGET : CString := CString.lit "target"

/-- The key of the mode. -/
def MODE : CString := CString.lit "ss_mode"

def HELP : CString := CString.lit "help"

def VERSION : CString := CString.lit "version"

/-- Usage options: how the user wants to use the program. -/
def usageOptions : Description := [⟨HELP, .flag 104⟩, ⟨VERSION, .flag 118⟩]

/-- Configuration options. -/
def configOptions : Description :=
  [⟨MODE, .single false⟩, ⟨TARGET, .single true⟩, ⟨TARGET_ARGS, .list⟩]

/-- The target and its arguments are positional. -/
def targetOptions : Positional := ⟨[TARGET], TARGET_ARGS⟩

/-- What the build configuration sets. -/
structure Build where
  drrunPath : CString
  dynamorioClientSo : CString
  /-- Only of a debug build. -/
  drDebugLogLevel : Option CString
  defaultMode : CString

/-- What the parser returns. -/
structure Args where
  mode : SSMode
  target : CString
  targetArgs : List CString
deriving DecidableEq

/-- How a parser ends. -/
inductive Outcome (α : Type)
  /-- `exit`, after the text that an option asked for. -/
  | exited (asked : CString)
  /-- `incorrect_usage()`, after a message of its own. -/
  | incorrectUsage (logged : Option CString)
  /-- The first element of an empty vector was used. -/
  | outOfRange
  /-- An exception left `parse_args`. -/
  | aborted
  | returned (a : α)
deriving DecidableEq

/-- Go on with what was returned. -/
def Outcome.bind {α β : Type} (o : Outcome α) (f : α → Outcome β) : Outcome β :=
  match o with
  | .exited asked => .exited asked
  | .incorrectUsage logged => .incorrectUsage logged
  | .outOfRange => .outOfRange
  | .aborted => .aborted
  | .returned a => f a

/-- The part of `parse_args_helper` behind the usage options: what throws ends in the `catch`. -/
def parseConfig (build : Build) (lib : Library) (words : List CString) (args : VariablesMap) :
    Outcome (VariablesMap × List CString) :=
  let parsed := (lib.runPositional configOptions targetOptions words).bind fun raw =>
    (lib.store configOptions raw args).map (Prod.mk raw)
  match parsed with
  | none => .incorrectUsage none
  | some (raw, args) =>
    -- done parsing, check for errors
    if lib.notify (usageOptions ++ configOptions) args = false then .incorrectUsage none
    else
      -- if no mode was specified, use the default
      let args : VariablesMap :=
        if args MODE = none then Function.update args MODE (some [build.defaultMode]) else args
      match lib.collectUnrecognized raw with
      | [] => .outOfRange
      | first :: targetArgs =>
        if args.asString TARGET = some first then .returned (args, targetArgs)
        else .incorrectUsage none

/-- The words behind the name of the program, parsed into a variables map and the arguments of the
target. -/
def parseArgsHelper (build : Build) (lib : Library) (words : List CString) :
    Outcome (VariablesMap × List CString) :=
  let argc := words.length + 1
  let parsed := (lib.run usageOptions words).bind fun raw =>
    lib.store usageOptions raw fun _ => none
  match parsed with
  | none => .incorrectUsage none
  | some args =>
    if (args HELP).isSome ∧ argc = 2 then .exited HELP
    else if (args VERSION).isSome ∧ argc = 2 then .exited VERSION
    else parseConfig build lib words args

/-- Verify the mode, and extract the arguments; the casts throw where an option has no value. -/
def extractArgs (vm : VariablesMap) (targetArgs : List CString) : Outcome Args :=
  match vm.asString MODE, vm.asString TARGET with
  | some str, some target =>
    if SSMode.isValidMode ⟨str⟩ then .returned ⟨⟨str⟩, target, targetArgs⟩
    else .incorrectUsage (some (CString.lit "Invalid mode given"))
  | _, _ => .aborted

/-- Returns an `Args` containing the parsed arguments. -/
def parseArgs (build : Build) (lib : Library) (words : List CString) : Outcome Args :=
  (parseArgsHelper build lib words).bind fun r => extractArgs r.1 r.2

/-- The arguments for drrun in front of the `--`. -/
def drrunArgs (build : Build) (mode : SSMode) : List CString :=
  build.drrunPath ::
    (match build.drDebugLogLevel with
      | none => []
      | some level =>
        [CString.lit "-debug", CString.lit "-ops", CString.lit "-loglevel " ++ level]) ++
    [CString.lit "-c", build.dynamorioClientSo, mode.str]

/-- `--` as a word. -/
def separator : CString := CString.lit "--"

/-- The array that `start_program` hands to `execvp`, without the null at its end. -/
def execArgs (build : Build) (args : Args) : List CString :=
  drrunArgs build args.mode ++ [separator, args.target] ++ args.targetArgs

/-! ## The two parses -/

section Parses

variable {build : Build} {lib : Library} {words : List CString}

theorem allFlags_usageOptions : AllFlags usageOptions := by
  simp [AllFlags, usageOptions]

theorem noFlags_configOptions : NoFlags configOptions := by
  simp [NoFlags, configOptions]

/-- The usage options that the words give. -/
def usageArgs (words : List CString) : VariablesMap :=
  stored ((beforeTerminator words).flatMap (optionsOf usageOptions)) fun _ => none

theorem usage_ne_config : ∀ o ∈ configOptions, ∀ u ∈ usageOptions, u.name ≠ o.name := by decide

/-- The usage options leave those of the configuration unset. -/
theorem usageArgs_config (words : List CString) :
    ∀ o ∈ configOptions, usageArgs words o.name = none := by
  intro o ho
  have hnone : occurrences o.name ((beforeTerminator words).flatMap (optionsOf usageOptions)) =
      [] :=
    occurrences_flatMap_eq_nil fun w _ => occurrences_optionsOf (usage_ne_config o ho) w
  rw [usageArgs, stored, if_pos hnone]

/-- The map behind the parse of the configuration, with the default mode where none is given. -/
def configArgs (build : Build) (words : List CString) (opts : List ParsedOption) : VariablesMap :=
  let args := stored opts (usageArgs words)
  if args MODE = none then Function.update args MODE (some [build.defaultMode]) else args

theorem stored_target (words : List CString) (opts : List ParsedOption) :
    stored opts (usageArgs words) TARGET =
      if occurrences TARGET opts = [] then none else some (occurrences TARGET opts).flatten := by
  rw [stored, usageArgs_config words ⟨TARGET, .single true⟩ (by decide)]

theorem configArgs_target (build : Build) (words : List CString) (opts : List ParsedOption) :
    configArgs build words opts TARGET = stored opts (usageArgs words) TARGET := by
  have hne : TARGET ≠ MODE := by decide
  unfold configArgs
  split
  · rw [Function.update_of_ne hne]
  · rfl

/-- Of an option that occurs once the value is the one given there. -/
theorem configArgs_target_iff {opts : List ParsedOption} {v : CString}
    (htwice : NoneTwice configOptions opts) (hgiven : occurrences TARGET opts ≠ []) :
    (configArgs build words opts).asString TARGET = some v ↔ occurrences TARGET opts = [[v]] := by
  have hle := htwice ⟨TARGET, .single true⟩ (by decide) (by decide)
  rw [VariablesMap.asString_eq_some_iff, configArgs_target, stored_target, if_neg hgiven]
  obtain ⟨vs, rest, hocc⟩ := List.exists_cons_of_ne_nil hgiven
  rw [hocc] at hle ⊢
  obtain rfl : rest = [] := List.eq_nil_of_length_eq_zero (by simpa using hle)
  simp

/-- The target is the one option that is required. -/
theorem notify_eq_false_iff (hlib : Documented lib) (opts : List ParsedOption) :
    lib.notify (usageOptions ++ configOptions) (stored opts (usageArgs words)) = false ↔
      occurrences TARGET opts = [] := by
  have hrequired : lib.notify (usageOptions ++ configOptions) (stored opts (usageArgs words)) =
      true ↔ (stored opts (usageArgs words) TARGET).isSome := by
    rw [hlib.notify_iff]
    simp [usageOptions, configOptions]
  rw [← Bool.not_eq_true, hrequired, stored_target]
  by_cases h : occurrences TARGET opts = []
  · simp [h]
  · simp [h]

theorem parseConfig_eq (hlib : Documented lib) (build : Build) (words : List CString) :
    parseConfig build lib words (usageArgs words) =
      match lib.runPositional configOptions targetOptions words with
      | none => .incorrectUsage none
      | some opts =>
        if NoneTwice configOptions opts ∧ occurrences TARGET opts ≠ [] then
          match opts.flatMap ParsedOption.collected with
          | [] => .outOfRange
          | first :: targetArgs =>
            if occurrences TARGET opts = [[first]] then
              .returned (configArgs build words opts, targetArgs)
            else .incorrectUsage none
        else .incorrectUsage none := by
  unfold parseConfig
  cases hrun : lib.runPositional configOptions targetOptions words with
  | none => rfl
  | some opts =>
    have hstore := hlib.store_runPositional configOptions targetOptions words opts
      (usageArgs words) hrun (by decide) (usageArgs_config words)
    simp only [Option.bind_some, hstore]
    by_cases htwice : NoneTwice configOptions opts
    · rw [if_pos htwice]
      by_cases hgiven : occurrences TARGET opts = []
      · rw [if_neg fun hand => hand.2 hgiven]
        exact if_pos ((notify_eq_false_iff hlib opts).mpr hgiven)
      · rw [if_pos ⟨htwice, hgiven⟩]
        refine (if_neg (mt (notify_eq_false_iff hlib opts).mp hgiven)).trans ?_
        rw [hlib.collectUnrecognized_eq]
        cases opts.flatMap ParsedOption.collected with
        | nil => rfl
        | cons first targetArgs =>
          have hiff := @configArgs_target_iff build words opts first htwice hgiven
          unfold configArgs at hiff ⊢
          simp only [hiff]
    · rw [if_neg htwice, if_neg fun hand => htwice hand.1]
      rfl

theorem parseConfig_returned_iff (hlib : Documented lib) {vm : VariablesMap}
    {targetArgs : List CString} :
    parseConfig build lib words (usageArgs words) = .returned (vm, targetArgs) ↔
      ∃ opts first, lib.runPositional configOptions targetOptions words = some opts ∧
        NoneTwice configOptions opts ∧ occurrences TARGET opts = [[first]] ∧
        opts.flatMap ParsedOption.collected = first :: targetArgs ∧
        configArgs build words opts = vm := by
  rw [parseConfig_eq hlib]
  constructor
  · intro h
    split at h
    · cases h
    · next opts hrun =>
      split at h
      · next hstored =>
        split at h
        · cases h
        · next first rest hcollected =>
          split at h
          · next hfirst =>
            obtain ⟨rfl, rfl⟩ := Prod.mk.inj (Outcome.returned.inj h)
            exact ⟨opts, first, hrun, hstored.1, hfirst, hcollected, rfl⟩
          · cases h
      · cases h
  · rintro ⟨opts, first, hrun, htwice, hfirst, hcollected, rfl⟩
    have hgiven : occurrences TARGET opts ≠ [] := by simp [hfirst]
    simp only [hrun, hcollected]
    rw [if_pos ⟨htwice, hgiven⟩, if_pos hfirst]

theorem parseConfig_outOfRange_iff (hlib : Documented lib) :
    parseConfig build lib words (usageArgs words) = .outOfRange ↔
      ∃ opts, lib.runPositional configOptions targetOptions words = some opts ∧
        NoneTwice configOptions opts ∧ occurrences TARGET opts ≠ [] ∧
        opts.flatMap ParsedOption.collected = [] := by
  rw [parseConfig_eq hlib]
  constructor
  · intro h
    split at h
    · cases h
    · next opts hrun =>
      split at h
      · next hstored =>
        split at h
        · next hcollected => exact ⟨opts, hrun, hstored.1, hstored.2, hcollected⟩
        · split at h <;> cases h
      · cases h
  · rintro ⟨opts, hrun, htwice, hgiven, hcollected⟩
    simp only [hrun, hcollected]
    rw [if_pos ⟨htwice, hgiven⟩]

/-- **The two parses together.** -/
theorem parseArgsHelper_eq (hlib : Documented lib) (build : Build) (words : List CString) :
    parseArgsHelper build lib words =
      if Accepts usageOptions words then
        if (usageArgs words HELP).isSome ∧ words.length + 1 = 2 then .exited HELP
        else if (usageArgs words VERSION).isSome ∧ words.length + 1 = 2 then .exited VERSION
        else parseConfig build lib words (usageArgs words)
      else .incorrectUsage none := by
  have husage : ∀ vm, ((lib.run usageOptions words).bind fun raw =>
      lib.store usageOptions raw fun _ => none) = some vm ↔
        Accepts usageOptions words ∧ vm = usageArgs words :=
    fun vm => allFlags_usageOptions.store_eq_some_iff hlib fun _ _ => rfl
  unfold parseArgsHelper
  by_cases haccepts : Accepts usageOptions words
  · simp only [(husage _).mpr ⟨haccepts, rfl⟩]
    rw [if_pos haccepts]
  · -- the first parse throws, or storing what it parsed
    have hnone := Option.eq_none_iff_forall_ne_some.mpr fun vm hvm =>
      haccepts ((husage vm).mp hvm).1
    simp only [hnone]
    rw [if_neg haccepts]

/-- The only word asks for help or for the version. -/
def Exits (words : List CString) : Prop :=
  words.length + 1 = 2 ∧ ((usageArgs words HELP).isSome ∨ (usageArgs words VERSION).isSome)

/-- The parse of the configuration decides where the first one has neither failed nor exited. -/
theorem parseArgsHelper_eq_iff (hlib : Documented lib) {r : Outcome (VariablesMap × List CString)}
    (hasked : ∀ asked, r ≠ .exited asked) (hlogged : ∀ logged, r ≠ .incorrectUsage logged) :
    parseArgsHelper build lib words = r ↔
      Accepts usageOptions words ∧ ¬Exits words ∧
        parseConfig build lib words (usageArgs words) = r := by
  rw [parseArgsHelper_eq hlib, Exits]
  split_ifs with haccepts hhelp hversion
  · exact ⟨fun h => absurd h.symm (hasked HELP), fun h => absurd ⟨hhelp.2, .inl hhelp.1⟩ h.2.1⟩
  · exact ⟨fun h => absurd h.symm (hasked VERSION),
      fun h => absurd ⟨hversion.2, .inr hversion.1⟩ h.2.1⟩
  · refine ⟨fun h => ⟨haccepts, ?_, h⟩, fun h => h.2.2⟩
    rintro ⟨hlength, hgiven | hgiven⟩
    · exact hhelp ⟨hgiven, hlength⟩
    · exact hversion ⟨hgiven, hlength⟩
  · exact ⟨fun h => absurd h.symm (hlogged none), fun h => absurd h.1 haccepts⟩

theorem extractArgs_returned_iff {vm : VariablesMap} {targetArgs : List CString} {args : Args} :
    extractArgs vm targetArgs = .returned args ↔
      vm.asString MODE = some args.mode.str ∧ vm.asString TARGET = some args.target ∧
        targetArgs = args.targetArgs ∧ args.mode.isValidMode = true := by
  obtain ⟨⟨str⟩, target, rest⟩ := args
  unfold extractArgs
  cases hmode : vm.asString MODE with
  | none => simp
  | some m =>
    cases htarget : vm.asString TARGET with
    | none => simp
    | some t =>
      by_cases hvalid : SSMode.isValidMode ⟨m⟩ = true
      · simp only [hvalid, if_true, Outcome.returned.injEq, Args.mk.injEq, SSMode.mk.injEq,
          Option.some.injEq]
        constructor
        · rintro ⟨rfl, rfl, rfl⟩
          exact ⟨rfl, rfl, rfl, hvalid⟩
        · rintro ⟨rfl, rfl, rfl, -⟩
          exact ⟨rfl, rfl, rfl⟩
      · simp only [hvalid, Bool.false_eq_true, if_false, reduceCtorEq, Option.some.injEq, false_iff]
        rintro ⟨rfl, -, -, hvalid'⟩
        exact hvalid hvalid'

/-- What can come of extracting the arguments. -/
theorem extractArgs_cases (vm : VariablesMap) (targetArgs : List CString) :
    (∃ args, extractArgs vm targetArgs = .returned args) ∨
      (∃ logged, extractArgs vm targetArgs = .incorrectUsage logged) ∨
      extractArgs vm targetArgs = .aborted ∧
        (vm.asString MODE = none ∨ vm.asString TARGET = none) := by
  unfold extractArgs
  cases vm.asString MODE with
  | none => simp
  | some m =>
    cases vm.asString TARGET with
    | none => simp
    | some t => by_cases hvalid : SSMode.isValidMode ⟨m⟩ = true <;> simp [hvalid]

/-- Extracting the arguments neither exits nor uses a first element. -/
theorem extractArgs_ne (vm : VariablesMap) (targetArgs : List CString) :
    (∀ asked, extractArgs vm targetArgs ≠ .exited asked) ∧
      extractArgs vm targetArgs ≠ .outOfRange := by
  rcases extractArgs_cases vm targetArgs with ⟨args, h⟩ | ⟨logged, h⟩ | ⟨h, -⟩
  · simp [h]
  · simp [h]
  · simp [h]

theorem parseArgs_exited_iff {asked : CString} :
    parseArgs build lib words = .exited asked ↔
      parseArgsHelper build lib words = .exited asked := by
  rw [parseArgs]
  cases parseArgsHelper build lib words with
  | returned r => simp [Outcome.bind, (extractArgs_ne r.1 r.2).1]
  | _ => simp [Outcome.bind]

theorem parseArgs_outOfRange_iff :
    parseArgs build lib words = .outOfRange ↔
      parseArgsHelper build lib words = .outOfRange := by
  rw [parseArgs]
  cases parseArgsHelper build lib words with
  | returned r => simp [Outcome.bind, (extractArgs_ne r.1 r.2).2]
  | _ => simp [Outcome.bind]

theorem parseArgs_returned_iff {args : Args} :
    parseArgs build lib words = .returned args ↔
      args.mode.isValidMode = true ∧ ∃ vm,
        parseArgsHelper build lib words = .returned (vm, args.targetArgs) ∧
          vm.asString MODE = some args.mode.str ∧ vm.asString TARGET = some args.target := by
  rw [parseArgs]
  cases parseArgsHelper build lib words with
  | returned r =>
    obtain ⟨vm, targetArgs⟩ := r
    simp only [Outcome.bind, extractArgs_returned_iff, Outcome.returned.injEq, Prod.mk.injEq]
    constructor
    · rintro ⟨hmode, htarget, rfl, hvalid⟩
      exact ⟨hvalid, vm, ⟨rfl, rfl⟩, hmode, htarget⟩
    · rintro ⟨hvalid, _, ⟨rfl, rfl⟩, hmode, htarget⟩
      exact ⟨hmode, htarget, rfl, hvalid⟩
  | _ => simp [Outcome.bind]

end Parses

end DrShadowStack
