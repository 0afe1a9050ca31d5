import DrShadowStack.Launcher
import DrShadowStack.TargetArgs

/-!
# What drrun is started with

The program becomes drrun only where everything went well, and then with the arguments, the
environment and the dispositions that the client behind it relies on. The client that drrun loads
finds the path of the server in that environment, and no descriptor of an earlier run. Of the other
variables nothing is asked: drrun may set some of its own.
-/

namespace DrShadowStack.Launcher

open Prog CString Utilities ProcessGroup Reporting ExternalServer

variable {ptrSize : ℕ} {build : Build} {answers : LaunchAnswers} {words : List CString}
  {environ : Environ} {signals : Dispositions} {args : Args} {socketPath : CString}
  {target : Target}

/-- In internal mode the path is empty, and in external mode a server listens there, whose child is
the process. -/
def PathOfMode (answers : LaunchAnswers) (args : Args) (socketPath : CString) : Prop :=
  args.mode.isInternal = true ∧ socketPath = CString.empty ∨
    args.mode.isExternal = true ∧ answers.fork = 0 ∧ serverName answers = some socketPath ∧
      ∃ sock address,
        QS.createServer answers.server answers.garbage socketPath = .returned (sock, address)

/-- The dispositions of a process that has been set up. -/
def launchSignals (answers : LaunchAnswers) (signals : Dispositions) : Dispositions := fun i =>
  if i = SIGPIPE ∨ i = SIGCHLD then .ignored
  else if i ∈ List.range' 1 answers.group.nsig ∧ Changes answers.group i then .defaultSignalHandler
  else signals i

/-- The log could be opened, and no signal failed to be changed. -/
structure SetUp (answers : LaunchAnswers) : Prop where
  log : answers.unlinks = true ∧ answers.opens = true
  changes : ∀ i ∈ List.range' 1 answers.group.nsig, ¬FailsToChange answers.group i

/-- What has to go well in either mode before the process takes its part. -/
structure Prepared (build : Build) (answers : LaunchAnswers) (words : List CString) (args : Args) :
    Prop where
  setUp : SetUp answers
  parsed : parseArgs build answers.lib words = .returned args
  strdup : answers.strdup = true
  ignores : answers.ignores SIGCHLD = true ∧ answers.ignores SIGPIPE = true

/-- What has to go well for the process to become drrun, and what drrun is then started with. -/
structure Launchable (build : Build) (answers : LaunchAnswers) (words : List CString)
    (environ : Environ) (signals : Dispositions) (args : Args) (socketPath : CString)
    (target : Target) : Prop extends Prepared build answers words args where
  mode : PathOfMode answers args socketPath
  setenv : answers.setenv DR_SS_ENV_SOCK = true ∧ answers.setenv DR_SS_ENV_FD = true
  execs : answers.execs = true
  argv : target.argv = execArgs build args
  environ : target.environ = environ.filter IsOther ++ [Environ.entry DR_SS_ENV_SOCK socketPath,
    Environ.entry DR_SS_ENV_FD CString.empty]
  signals : target.signals = launchSignals answers signals

/-- What has to go well for the process to serve a client on `sock`. -/
structure Serving (build : Build) (answers : LaunchAnswers) (words : List CString) (args : Args)
    (sock : ℤ) : Prop extends Prepared build answers words args where
  mode : args.mode.isExternal = true
  listens : ∃ name fd address, serverName answers = some name ∧
    QS.createServer answers.server answers.garbage name = .returned (fd, address)
  fork : answers.fork ≠ -1 ∧ answers.fork ≠ 0
  accept : answers.accept = sock ∧ sock ≠ -1

section Roles

theorem isExternal_of_isInternal {mode : SSMode} (h : mode.isInternal = true) :
    mode.isExternal = false := by
  rw [SSMode.isInternal, beq_iff_eq] at h
  rw [SSMode.isExternal, h]
  decide

theorem launched_eq_some_iff {l : Launched} :
    launched build answers environ signals args socketPath = some l ↔
      (answers.setenv DR_SS_ENV_SOCK = true ∧ answers.setenv DR_SS_ENV_FD = true) ∧
        answers.execs = true ∧ l = .drrun
          ⟨execArgs build args, DrShadowStack.startProgram environ socketPath, signals⟩ := by
  rw [launched, Option.ite_none_right_eq_some, Bool.and_eq_true, Bool.and_eq_true, and_assoc,
    Option.some.injEq, eq_comm (a := l)]

/-- The role of a process in external mode. -/
theorem externalRole_eq_some_iff {r : Role} :
    externalRole build answers environ signals args = some r ↔
      ∃ name, serverName answers = some name ∧
        ((QS.createServer answers.server answers.garbage name = .outOfBounds ∧
            r = .becomes .undefined) ∨
          (∃ server, QS.createServer answers.server answers.garbage name = .returned server) ∧
            forkRole build answers environ signals args name = some r) := by
  rw [externalRole, Option.bind_eq_some_iff]
  refine exists_congr fun name => and_congr_right fun _ => ?_
  cases QS.createServer answers.server answers.garbage name with
  | assertFailed => simp
  | outOfBounds => simp [eq_comm]
  | returned server => simp

theorem forkRole_eq_some_iff {r : Role} :
    forkRole build answers environ signals args socketPath = some r ↔
      (answers.fork = 0 ∧ ∃ l, launched build answers environ signals args socketPath = some l ∧
          r = .becomes l) ∨
        answers.fork ≠ -1 ∧ answers.fork ≠ 0 ∧ answers.accept ≠ -1 ∧
          r = .serves answers.accept := by
  rw [forkRole]
  split_ifs with hfail hchild haccept
  · simp [hfail]
  · simp [hchild, eq_comm]
  · simp [hchild, haccept]
  · simp [hchild, hfail, haccept, eq_comm]

/-- The role in the mode of the arguments, behind the setup of the group. -/
theorem modeRole_eq_some_iff {r : Role} {signals' : Dispositions}
    (hremapped : remapped answers.group .defaultSignalHandler
      (List.range' 1 answers.group.nsig) signals = some signals') :
    modeRole build answers environ signals' args = some r ↔
      (answers.ignores SIGCHLD = true ∧ answers.ignores SIGPIPE = true) ∧
        (args.mode.isInternal = true ∧
            (∃ l, launched build answers environ (launchSignals answers signals) args
              CString.empty = some l ∧ r = .becomes l) ∨
          args.mode.isExternal = true ∧
            externalRole build answers environ (launchSignals answers signals) args = some r) := by
  have hsignals : Function.update (Function.update signals' SIGCHLD .ignored) SIGPIPE .ignored =
      launchSignals answers signals := by
    rw [remapped, Option.ite_none_left_eq_some] at hremapped
    obtain rfl := Option.some.inj hremapped.2
    funext i
    rw [Function.update_apply, Function.update_apply, launchSignals]
    by_cases hpipe : i = SIGPIPE <;> by_cases hchld : i = SIGCHLD <;> simp [hpipe, hchld]
  rw [modeRole, ignored, hsignals]
  by_cases hignores : (answers.ignores SIGCHLD && answers.ignores SIGPIPE) = true
  · rw [if_pos hignores, Option.bind_some]
    rw [Bool.and_eq_true] at hignores
    cases hint : args.mode.isInternal with
    | true =>
      rw [if_pos rfl, isExternal_of_isInternal hint, Option.map_eq_some_iff]
      simp [hignores, eq_comm]
    | false =>
      cases hext : args.mode.isExternal <;> simp [hignores]
  · rw [if_neg hignores]
    rw [Bool.and_eq_true] at hignores
    simp [hignores]

theorem parsed_eq_some_iff {p : Option Args} :
    parsed build answers words = some p ↔
      (p = none ∧ parseArgs build answers.lib words = .outOfRange) ∨
        ∃ args, p = some args ∧ parseArgs build answers.lib words = .returned args ∧
          answers.strdup = true := by
  rw [parsed]
  cases parseArgs build answers.lib words with
  | returned args => by_cases hstrdup : answers.strdup = true <;> simp [hstrdup, eq_comm]
  | outOfRange => simp [@eq_comm _ none p]
  | _ => simp

/-- The three parts of a process that is prepared. -/
theorem Prepared.role_eq_some_iff {r : Role} (h : Prepared build answers words args) :
    role build answers words environ signals = some r ↔
      (∃ socketPath l, PathOfMode answers args socketPath ∧
          launched build answers environ (launchSignals answers signals) args socketPath = some l ∧
          r = .becomes l) ∨
        (∃ name, args.mode.isExternal = true ∧ serverName answers = some name ∧
          QS.createServer answers.server answers.garbage name = .outOfBounds ∧
          r = .becomes .undefined) ∨
        ∃ name server, args.mode.isExternal = true ∧ serverName answers = some name ∧
          QS.createServer answers.server answers.garbage name = .returned server ∧
          (answers.fork ≠ -1 ∧ answers.fork ≠ 0) ∧ answers.accept ≠ -1 ∧
          r = .serves answers.accept := by
  obtain ⟨signals', hremapped⟩ : ∃ signals', remapped answers.group .defaultSignalHandler
      (List.range' 1 answers.group.nsig) signals = some signals' := by
    rw [remapped, if_neg (by simpa using h.setUp.changes)]
    exact ⟨_, rfl⟩
  have hparsed : Launcher.parsed build answers words = some (some args) :=
    parsed_eq_some_iff.mpr (.inr ⟨args, rfl, h.parsed, h.strdup⟩)
  rw [role, if_pos (by simpa using h.setUp.log), hremapped, Option.bind_some, hparsed,
    Option.bind_some]
  refine ((modeRole_eq_some_iff hremapped).trans (and_iff_right h.ignores)).trans ?_
  constructor
  · rintro (⟨hint, l, hl, rfl⟩ | ⟨hext, hrole⟩)
    · exact .inl ⟨_, l, .inl ⟨hint, rfl⟩, hl, rfl⟩
    obtain ⟨name, hname, ⟨hbounds, rfl⟩ | ⟨⟨server, hserver⟩, hfork⟩⟩ :=
      externalRole_eq_some_iff.mp hrole
    · exact .inr (.inl ⟨name, hext, hname, hbounds, rfl⟩)
    rcases forkRole_eq_some_iff.mp hfork with ⟨hchild, l, hl, rfl⟩ | ⟨hfail, hchild, haccept, rfl⟩
    · exact .inl ⟨name, l, .inr ⟨hext, hchild, hname, server.1, server.2, hserver⟩, hl, rfl⟩
    · exact .inr (.inr ⟨name, server, hext, hname, hserver, ⟨hfail, hchild⟩, haccept, rfl⟩)
  · rintro (⟨socketPath, l, ⟨hint, rfl⟩ | ⟨hext, hchild, hname, sock, address, hserver⟩, hl, rfl⟩ |
      ⟨name, hext, hname, hbounds, rfl⟩ |
      ⟨name, server, hext, hname, hserver, ⟨hfail, hchild⟩, haccept, rfl⟩)
    · exact .inl ⟨hint, l, hl, rfl⟩
    · exact .inr ⟨hext, externalRole_eq_some_iff.mpr ⟨socketPath, hname, .inr ⟨⟨_, hserver⟩,
        forkRole_eq_some_iff.mpr (.inl ⟨hchild, l, hl, rfl⟩)⟩⟩⟩
    · exact .inr ⟨hext, externalRole_eq_some_iff.mpr ⟨name, hname, .inl ⟨hbounds, rfl⟩⟩⟩
    · exact .inr ⟨hext, externalRole_eq_some_iff.mpr ⟨name, hname, .inr ⟨⟨_, hserver⟩,
        forkRole_eq_some_iff.mpr (.inr ⟨hfail, hchild, haccept, rfl⟩)⟩⟩⟩

/-- A process that has a role is prepared, or its words led out of range. -/
theorem prepared_of_role {r : Role} (h : role build answers words environ signals = some r) :
    (∃ args, Prepared build answers words args) ∨
      r = .becomes .undefined ∧ SetUp answers ∧
        parseArgs build answers.lib words = .outOfRange := by
  rw [role, Option.ite_none_right_eq_some, Bool.and_eq_true] at h
  obtain ⟨hlog, h⟩ := h
  obtain ⟨signals', hremapped, h⟩ := Option.bind_eq_some_iff.mp h
  obtain ⟨p, hparsed, h⟩ := Option.bind_eq_some_iff.mp h
  have hsetUp : SetUp answers :=
    ⟨hlog, by simpa using (Option.ite_none_left_eq_some.mp hremapped).1⟩
  obtain ⟨rfl, hwords⟩ | ⟨args, rfl, hwords, hstrdup⟩ := parsed_eq_some_iff.mp hparsed
  · exact .inr ⟨(Option.some.inj h).symm, hsetUp, hwords⟩
  · exact .inl ⟨args, hsetUp, hwords, hstrdup, ((modeRole_eq_some_iff hremapped).mp h).1⟩

end Roles

/-- The process becomes drrun exactly where it has been set up for it. -/
theorem role_eq_drrun_iff :
    role build answers words environ signals = some (.becomes (.drrun target)) ↔
      ∃ args socketPath,
        Launchable build answers words environ signals args socketPath target := by
  constructor
  · intro h
    obtain ⟨args, hprepared⟩ | ⟨hundefined, -⟩ := prepared_of_role h
    · rcases hprepared.role_eq_some_iff.mp h with ⟨socketPath, l, hmode, hlaunched, hl⟩ |
        ⟨_, -, -, -, hl⟩ | ⟨_, _, -, -, -, -, -, hl⟩
      · obtain rfl := Role.becomes.inj hl
        obtain ⟨hsetenv, hexecs, htarget⟩ := launched_eq_some_iff.mp hlaunched
        obtain rfl := Launched.drrun.inj htarget
        exact ⟨args, socketPath, hprepared, hmode, hsetenv, hexecs, rfl,
          startProgram_eq_append environ socketPath, rfl⟩
      · cases hl
      · cases hl
    · cases hundefined
  · rintro ⟨args, socketPath, h⟩
    refine h.role_eq_some_iff.mpr (.inl ⟨socketPath, _, h.mode, ?_, rfl⟩)
    refine launched_eq_some_iff.mpr ⟨h.setenv, h.execs, congrArg Launched.drrun ?_⟩
    obtain ⟨argv, environ', signals'⟩ := target
    rw [startProgram_eq_append, ← h.argv, ← h.environ, ← h.signals]

/-- The process serves a client exactly where it has been set up for it. -/
theorem role_eq_serves_iff {sock : ℤ} :
    role build answers words environ signals = some (.serves sock) ↔
      ∃ args, Serving build answers words args sock := by
  constructor
  · intro h
    obtain ⟨args, hprepared⟩ | ⟨hundefined, -⟩ := prepared_of_role h
    · rcases hprepared.role_eq_some_iff.mp h with ⟨_, _, -, -, hr⟩ | ⟨_, -, -, -, hr⟩ |
        ⟨name, server, hext, hname, hserver, hfork, haccept, hr⟩
      · cases hr
      · cases hr
      · obtain rfl := Role.serves.inj hr
        exact ⟨args, hprepared, hext, ⟨name, server.1, server.2, hname, hserver⟩, hfork, rfl,
          haccept⟩
    · cases hundefined
  · rintro ⟨args, h⟩
    obtain ⟨name, fd, address, hname, hserver⟩ := h.listens
    obtain ⟨rfl, haccept⟩ := h.accept
    exact h.role_eq_some_iff.mpr (.inr (.inr
      ⟨name, _, h.mode, hname, hserver, h.fork, haccept, rfl⟩))

/-- What the client of drrun has set up, by the path that it finds and by what the kernel and
DynamoRIO answer to it. -/
def clientOf (args : Args) (environ : Environ) (socketPath : CString) (answers : StartAnswers) :
    Option Started :=
  if answers.opens && answers.drmgrInit && answers.strdup then
    if args.mode.isInternal then
      if answers.drsymInit && answers.registerTlsField != -1 then
        some ((setUp answers .internalSS none).register answers)
      else none
    else
      (QS.makeUnixServer answers.garbage socketPath).bind fun address =>
        (ExternalSS.createClient answers.socket).bind fun sock =>
          if answers.setenv then
            some ((setUp answers .externalSS (some ⟨⟨sock,
              environ.setenv DR_SS_ENV_FD (ExternalSS.sockStr sock)⟩, some address⟩)).register
              answers)
          else none
  else none

/-- The two variables of the program are the same in both environments. -/
def SameSocket (environ environ' : Environ) : Prop :=
  ∀ name ∈ [DR_SS_ENV_SOCK, DR_SS_ENV_FD], environ'.getenv name = environ.getenv name

/-- What fits the server's address fits the client's. -/
theorem connected_of_fits {environ' : Environ} {answers' : StartAnswers}
    (h : socketPath.strlen + 1 ≤ QS.SUN_PATH_SIZE) :
    connected environ' answers' socketPath =
      ((QS.makeUnixServer answers'.garbage socketPath).bind fun address =>
        (ExternalSS.createClient answers'.socket).bind fun sock =>
          if answers'.setenv then
            some ⟨⟨sock, environ'.setenv DR_SS_ENV_FD (ExternalSS.sockStr sock)⟩, some address⟩
          else none).map some := by
  cases hfits : QS.makeUnixServer answers'.garbage socketPath with
  | none => exact absurd (QS.strcpy_eq_none_iff.mp hfits) (Nat.not_lt.mpr h)
  | some address =>
    rw [connected, QS.createClient_eq hfits]
    cases ExternalSS.createClient answers'.socket with
    | none => rfl
    | some sock => cases answers'.setenv <;> rfl

namespace Launchable

variable {environ' : Environ}

theorem getenv_sock
    (h : Launchable build answers words environ signals args socketPath target) :
    target.environ.getenv DR_SS_ENV_SOCK = some socketPath := by
  rw [h.environ, ← startProgram_eq_append, getenv_sock_startProgram]

theorem getenv_fd (h : Launchable build answers words environ signals args socketPath target) :
    target.environ.getenv DR_SS_ENV_FD = some CString.empty := by
  rw [h.environ, ← startProgram_eq_append]
  exact Environ.getenv_setenv _ _ _

/-- The client finds a path, and no descriptor. -/
theorem getenv_of_same (h : Launchable build answers words environ signals args socketPath target)
    (hsame : SameSocket target.environ environ') :
    environ'.getenv DR_SS_ENV_SOCK = some socketPath ∧
      environ'.getenv DR_SS_ENV_FD = some CString.empty :=
  ⟨(hsame _ (by simp)).trans h.getenv_sock, (hsame _ (by simp)).trans h.getenv_fd⟩

/-- In external mode the server listens at the path. -/
theorem exists_createServer
    (h : Launchable build answers words environ signals args socketPath target)
    (hint : ¬args.mode.isInternal = true) :
    ∃ sock address,
      QS.createServer answers.server answers.garbage socketPath = .returned (sock, address) :=
  (h.mode.resolve_left fun hmode => hint hmode.1).2.2.2

/-- So it sets up what the mode, the path and the answers say. -/
theorem started_eq (h : Launchable build answers words environ signals args socketPath target)
    (hsame : SameSocket target.environ environ') (name : CString) (answers' : StartAnswers) :
    started [name, args.mode.str] environ' answers' =
      (clientOf args environ' socketPath answers').map some := by
  obtain ⟨hsock, hfd⟩ := h.getenv_of_same hsame
  have hconnection : connection environ' answers' socketPath =
      connected environ' answers' socketPath := by simp [connection, hfd]
  have hmode : startedMode environ' answers' args.mode socketPath =
      if args.mode.isInternal then
        if answers'.drsymInit && answers'.registerTlsField != -1 then
          some (some (setUp answers' .internalSS none))
        else none
      else (connected environ' answers' socketPath).map
        (Option.map fun c => setUp answers' .externalSS (some c)) := by
    rw [startedMode, hconnection]
    rcases h.mode with ⟨hint, -⟩ | ⟨hext, -⟩
    · rw [if_pos hint, if_pos hint]
    · rw [if_pos hext]
  simp only [started, hsock, clientOf, hmode]
  split
  · split
    · split <;> rfl
    · next hint =>
      obtain ⟨sock, address, hserver⟩ := h.exists_createServer hint
      rw [connected_of_fits (QS.fits_of_createServer hserver)]
      cases QS.makeUnixServer answers'.garbage socketPath with
      | none => rfl
      | some address =>
        cases ExternalSS.createClient answers'.socket with
        | none => rfl
        | some sock => cases answers'.setenv <;> rfl
  · rfl

end Launchable

/-- What the child of the fork is answered where nothing goes wrong; the signals that the C library
keeps for itself are invalid. -/
def childAnswers : LaunchAnswers where
  unlinks := true
  opens := true
  group := ⟨1, 64, fun i => if i = 32 ∨ i = 33 then .invalid else .changed,
    fun _ => CString.empty⟩
  ignores _ := true
  lib := ProgramOptions.defaultStyle
  askedText _ := []
  strdup := true
  tmpDir := some (CString.lit "/tmp")
  uniquePath := zeroDigits
  server := ⟨3, true, true⟩
  garbage := .zeros
  fork := 0
  accept := -1
  setenv _ := true
  execs := true

/-- `./shadow_stack --ss_mode ext ls` -/
def lsArgs : Args := ⟨⟨EXTERNAL_MODE_FLAG⟩, CString.lit "ls", []⟩

@[inherit_doc lsArgs]
def lsWords : List CString := [modeWord, lsArgs.mode.str, lsArgs.target]

/-- The environment below another run, which has left its descriptor there. -/
def outerEnviron : Environ :=
  [Environ.entry DR_SS_ENV_FD (CString.lit "7"), CString.lit "HOME=/root"]

/-- The file of the server. -/
def lsPath : CString := CString.lit "/tmp/00000000000000000000000000000000000000000000000000"

/-- What drrun is started with. -/
def lsTarget : Target where
  argv := execArgs releaseBuild lsArgs
  environ := outerEnviron.tail ++
    [Environ.entry DR_SS_ENV_SOCK lsPath, Environ.entry DR_SS_ENV_FD CString.empty]
  signals := launchSignals childAnswers fun _ => .standard

theorem launchable_ls :
    Launchable releaseBuild childAnswers lsWords outerEnviron (fun _ => .standard) lsArgs lsPath
      lsTarget where
  setUp := ⟨⟨rfl, rfl⟩, by decide⟩
  parsed := by decide
  strdup := rfl
  ignores := ⟨rfl, rfl⟩
  mode := .inr ⟨by decide, rfl, rfl, 3, _, rfl⟩
  setenv := ⟨rfl, rfl⟩
  execs := rfl
  argv := rfl
  environ := by decide
  signals := rfl

end DrShadowStack.Launcher
