import DrShadowStack.TargetArgs

/-!
# Command lines that are read back

Behind a `--` in front of the target both parses leave every word alone. So all arguments that come
of any command line can be written as one that is parsed into them again (`readsBack_iff`), whatever
the target and its words look like.
-/

namespace DrShadowStack

open ProgramOptions

variable {build : Build} {lib : Library} {given : Option CString} {target : CString}
  {as : List CString} {args : Args}

/-- The words that give the mode, if one is given. -/
def modeWords : Option CString → List CString
  | none => []
  | some mode => [modeWord, mode]

/-- `[--ss_mode mode] -- target as` -/
def commandLine (given : Option CString) (target : CString) (as : List CString) : List CString :=
  modeWords given ++ separator :: target :: as

/-- The options that the second parse finds in it. -/
def lineParsed (given : Option CString) (target : CString) (as : List CString) :
    List ParsedOption :=
  (given.toList.map fun mode => .named MODE [mode]) ++
    .positional (some TARGET) target target ::
      targetOptions.assign 1 (as.map fun v => .positional none v v)

/-- The first parse reads nothing behind the terminator. -/
theorem accepts_commandLine (hgiven : ∀ mode ∈ given, ¬[45] <+: mode.chars) :
    Accepts usageOptions (commandLine given target as) := by
  have hbehind : Accepts usageOptions (separator :: target :: as) := by
    have hnone : beforeTerminator (separator :: target :: as) = [] :=
      List.takeWhile_cons_of_neg (by decide)
    simp [Accepts, hnone, NoneTwice]
  cases given with
  | none => exact hbehind
  | some mode =>
    have hword : token usageOptions modeWord = .complete [.unregistered modeWord] := by decide
    refine (accepts_cons hword fun _ => rfl).mpr ?_
    exact (accepts_cons (token_of_not_dash (hgiven mode rfl)) fun _ => rfl).mpr hbehind

/-- The second parse takes the mode, and all words behind the terminator as they stand. -/
theorem run_commandLine (hlib : Documented lib) (hgiven : ∀ mode ∈ given, ¬[45] <+: mode.chars) :
    lib.runPositional configOptions targetOptions (commandLine given target as) =
      some (lineParsed given target as) := by
  have hbehind : lib.run configOptions (separator :: target :: as) =
      some ((target :: as).map fun v => .positional none v v) :=
    hlib.run_terminator _ _ _ (token_eq_terminator_iff.mpr rfl)
  rw [hlib.runPositional_eq]
  cases given with
  | none =>
    rw [commandLine, modeWords, List.nil_append, hbehind]
    rfl
  | some mode =>
    have hword : token configOptions modeWord = .needsValue MODE := by decide
    rw [commandLine, modeWords, List.cons_append, List.singleton_append,
      hlib.run_value configOptions modeWord mode _ MODE hword,
      if_pos (hlib.takes_word configOptions mode (hgiven mode rfl)), hbehind]
    rfl

theorem occurrences_lineParsed (given : Option CString) (target : CString) (as : List CString) :
    occurrences MODE (lineParsed given target as) = given.toList.map ([·]) ∧
      occurrences TARGET (lineParsed given target as) = [[target]] := by
  have hunnamed : ∀ o ∈ as.map fun v => ParsedOption.positional none v v,
      ∀ name value, o ≠ .named name value := by simp
  have hmode : occurrences MODE (targetOptions.assign 1 (as.map fun v => .positional none v v)) =
      [] := occurrences_assign le_rfl (by decide) hunnamed
  have htarget : occurrences TARGET
      (targetOptions.assign 1 (as.map fun v => .positional none v v)) = [] :=
    occurrences_assign le_rfl (by decide) hunnamed
  have hne : TARGET ≠ MODE := by decide
  unfold lineParsed
  cases given <;> simp [hmode, htarget, hne, hne.symm]

theorem noneTwice_lineParsed (given : Option CString) (target : CString) (as : List CString) :
    NoneTwice configOptions (lineParsed given target as) := by
  obtain ⟨hmode, htarget⟩ := occurrences_lineParsed given target as
  intro o ho hlist
  simp only [configOptions, List.mem_cons, List.not_mem_nil, or_false] at ho
  rcases ho with rfl | rfl | rfl
  · rw [hmode]
    cases given <;> simp
  · exact Nat.le_of_eq (congrArg List.length htarget)
  · exact absurd rfl hlist

theorem collected_lineParsed (given : Option CString) (target : CString) (as : List CString) :
    (lineParsed given target as).flatMap ParsedOption.collected = target :: as := by
  have hgiven : (given.toList.map fun mode => ParsedOption.named MODE [mode]).flatMap
      ParsedOption.collected = [] := by cases given <;> rfl
  rw [lineParsed, List.flatMap_append, hgiven, List.nil_append, List.flatMap_cons,
    collected_assign, List.flatMap_map]
  simp [ParsedOption.collected]

/-- The mode is the one that is given, or the default. -/
theorem configArgs_lineParsed (build : Build) (words : List CString) :
    (configArgs build words (lineParsed given target as)).asString MODE =
      some (given.getD build.defaultMode) := by
  obtain ⟨hmode, -⟩ := occurrences_lineParsed given target as
  have hunset : usageArgs words MODE = none :=
    usageArgs_config words ⟨MODE, .single false⟩ (by decide)
  rw [VariablesMap.asString_eq_some_iff]
  unfold configArgs stored
  cases given with
  | none => simp [hmode, hunset]
  | some mode => simp [hmode]

/-- **What comes of the command line** is decided by its mode alone. -/
theorem parseArgs_commandLine (hlib : Documented lib) (build : Build)
    (hgiven : ∀ mode ∈ given, ¬[45] <+: mode.chars) (target : CString) (as : List CString) :
    parseArgs build lib (commandLine given target as) = .returned args ↔
      args.mode.isValidMode = true ∧ args = ⟨⟨given.getD build.defaultMode⟩, target, as⟩ := by
  obtain ⟨-, hoccTarget⟩ := occurrences_lineParsed given target as
  have htarget : (configArgs build (commandLine given target as)
      (lineParsed given target as)).asString TARGET = some target :=
    (configArgs_target_iff (noneTwice_lineParsed given target as) (by simp [hoccTarget])).mpr
      hoccTarget
  have hhelper : parseArgsHelper build lib (commandLine given target as) = .returned
      (configArgs build (commandLine given target as) (lineParsed given target as), as) := by
    refine (parseArgsHelper_eq_iff hlib (by simp) (by simp)).mpr
      ⟨accepts_commandLine hgiven, fun h => ?_, ?_⟩
    · -- there are at least two words
      have hlength := h.1
      simp only [commandLine, List.length_append, List.length_cons] at hlength
      omega
    · exact (parseConfig_returned_iff hlib).mpr ⟨_, target, run_commandLine hlib hgiven,
        noneTwice_lineParsed given target as, hoccTarget, collected_lineParsed given target as, rfl⟩
  rw [parseArgs_returned_iff]
  refine and_congr_right fun _ => ?_
  constructor
  · rintro ⟨vm, hvm, hmode, htarget'⟩
    obtain ⟨rfl, has⟩ := Prod.mk.inj (Outcome.returned.inj (hhelper.symm.trans hvm))
    rw [configArgs_lineParsed] at hmode
    rw [htarget] at htarget'
    obtain ⟨⟨mode⟩, target', as'⟩ := args
    rw [Option.some.inj hmode, Option.some.inj htarget', has]
  · rintro rfl
    exact ⟨_, hhelper, configArgs_lineParsed build _, htarget⟩

/-- A valid mode does not look like an option. -/
theorem not_dash_of_isValidMode {mode : CString} (h : SSMode.isValidMode ⟨mode⟩ = true) :
    ¬[45] <+: mode.chars := by
  simp only [SSMode.isValidMode, SSMode.isInternal, SSMode.isProtectedInternal, SSMode.isExternal,
    Bool.or_eq_true, beq_iff_eq] at h
  rcases h with (rfl | rfl) | rfl <;> decide

/-- The arguments can be written as a command line: with their mode or, if it is the default,
without. The words of the target reach drrun, behind a `--` of its own. -/
structure ReadsBack (build : Build) (lib : Library) (args : Args) : Prop where
  given : parseArgs build lib (commandLine (some args.mode.str) args.target args.targetArgs) =
    .returned args
  default : args.mode.str = build.defaultMode →
    parseArgs build lib (commandLine none args.target args.targetArgs) = .returned args
  handed : (execArgs build args).drop (drrunArgs build args.mode).length =
    commandLine none args.target args.targetArgs

/-- **Arguments are read back exactly if some command line has given them.** -/
theorem readsBack_iff (hlib : Documented lib) (build : Build) (args : Args) :
    ReadsBack build lib args ↔ ∃ words, parseArgs build lib words = .returned args := by
  constructor
  · intro h
    exact ⟨_, h.given⟩
  · rintro ⟨words, hwords⟩
    have hvalid := (parseArgs_returned_iff.mp hwords).1
    refine ⟨?_, fun hdefault => ?_, ?_⟩
    · have hdash : ∀ mode ∈ some args.mode.str, ¬[45] <+: mode.chars := by
        intro mode hmode
        obtain rfl := Option.some.inj hmode
        exact not_dash_of_isValidMode hvalid
      exact (parseArgs_commandLine hlib build hdash _ _).mpr ⟨hvalid, rfl⟩
    · refine (parseArgs_commandLine hlib build (by simp) _ _).mpr ⟨hvalid, ?_⟩
      rw [Option.getD_none, ← hdefault]
    · rw [execArgs, List.append_assoc, List.drop_left]
      rfl

theorem readsBack_iff_checkout :
    ReadsBack releaseBuild defaultStyle ⟨⟨INTERNAL_MODE_FLAG⟩, CString.lit "git",
        [CString.lit "checkout", separator, CString.lit "f"]⟩ ↔
      ∃ words, parseArgs releaseBuild defaultStyle words = .returned ⟨⟨INTERNAL_MODE_FLAG⟩,
        CString.lit "git", [CString.lit "checkout", separator, CString.lit "f"]⟩ :=
  readsBack_iff documented_defaultStyle releaseBuild _

end DrShadowStack
