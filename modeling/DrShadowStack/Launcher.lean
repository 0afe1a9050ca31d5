import DrShadowStack.ClientStart
import DrShadowStack.GroupSetup
import DrShadowStack.ServerLoop
import DrShadowStack.TempName

/-!
# The program itself (`shadow_stack.cpp`)

`main` sets up the process group, reads the command line, cleans the environment and then becomes
drrun, in internal mode at once and in external mode in the child of a fork, while the parent serves
the child's client. What the kernel and the libraries answer is left open (`LaunchAnswers`), the
result of `fork` included, so that a run is that of one process.

## Shape of the proof

Up to the server the program only reports besides what it computes, which is the part that it plays
(`role`). The server goes on from there as `Reporting.Server.serves` has it.
-/

namespace DrShadowStack.Launcher

open Prog CString Utilities ProcessGroup Reporting ExternalServer

/-- What the kernel and the libraries answer while the program runs. -/
structure LaunchAnswers where
  /-- There is no old log once it was to be removed. -/
  unlinks : Bool
  opens : Bool
  group : SetupAnswers
  /-- `signal` succeeds with `SIG_IGN`. -/
  ignores : ℕ → Bool
  lib : ProgramOptions.Library
  /-- The text that `--help` or `--version` asks for. -/
  askedText : CString → Text
  strdup : Bool
  /-- `temp_directory_path`, which may throw. -/
  tmpDir : Option CString
  /-- `unique_path`, which may throw. -/
  uniquePath : CString → Option CString
  server : QS.ServerAnswers
  /-- What is on the stack when the server's address is filled in. -/
  garbage : QS.SunPath
  fork : ℤ
  accept : ℤ
  /-- `setenv` succeeds for the variable. -/
  setenv : CString → Bool
  execs : Bool

/-- What drrun is started with: its arguments, the environment, and the dispositions of the signals
before the kernel resets those that have a handler. -/
structure Target where
  argv : List CString
  environ : Environ
  signals : Dispositions

/-- How the program goes on where it does not end: as drrun, or in a way that the language leaves
undefined. -/
inductive Launched
  | drrun (target : Target)
  | undefined

/-! ## The functions -/

/-- Calls setup functions. -/
def runBeforeEverything (env : Env) (fuel : ℕ) (answers : LaunchAnswers) (signals : Dispositions) :
    Prog State Dispositions := do
  Utilities.setup env fuel true answers.unlinks answers.opens
  log env fuel (bytesOf "DrShadowStack initalized")
  log env fuel (bytesOf "Setting up the group now...")
  ProcessGroup.setup env fuel answers.group false signals

/-- Called if used incorrectly. -/
def incorrectUsage (env : Env) (fuel : ℕ) : Prog State Unit :=
  terminate env fuel
    (some (CString.lit "Incorrect usage\nFor usage information, use the --help flag\n")) true

/-- The branches of `parse_args_helper` that print a text and exit; what throws ends in its
`catch`. -/
def printAsked (env : Env) (fuel : ℕ) (text : Text) : Prog State Unit :=
  catching (incorrectUsage env fuel) do
    Utilities.message { env with unwinds := true } fuel text
    -- `exit`
    throw .killed

/-- Returns the parsed arguments, or `none` where an element of an empty vector was used. -/
def parse (env : Env) (fuel : ℕ) (build : Build) (answers : LaunchAnswers) (words : List CString) :
    Prog State (Option Args) :=
  match parseArgs build answers.lib words with
  | .exited asked => do
    printAsked env fuel (answers.askedText asked)
    -- not reached
    throw .killed
  | .incorrectUsage none => do
    incorrectUsage env fuel
    throw .killed
  | .incorrectUsage (some logged) => do
    -- a mode was given, and is not valid
    safeStrdup env fuel answers.strdup
    logError env fuel logged.chars
    incorrectUsage env fuel
    throw .killed
  | .outOfRange => pure none
  | .aborted => throw (if env.unwinds then .threw else .aborted)
  | .returned args => do
    safeStrdup env fuel answers.strdup
    pure (some args)

/-- An entry of the variable, removed with every other one, is no longer in the array. -/
theorem length_unsetenv_lt {environ : Environ} {name : CString}
    (h : (environ.getenv name).isSome = true) :
    (environ.unsetenv name).length < environ.length := by
  obtain ⟨e, he, hvalue⟩ : ∃ e ∈ environ, (Environ.valueOf name e).isSome = true := by
    simpa [Environ.getenv, List.findSome?_isSome_iff] using h
  refine List.length_filter_lt_length_iff_exists.mpr ⟨e, he, ?_⟩
  simpa [Option.isSome_iff_ne_none] using hvalue

/-- `while ( getenv( name ) != nullptr ) { unsetenv( name ); }` -/
def deleteVariable (environ : Environ) (name : CString) : Environ :=
  if _h : (environ.getenv name).isSome = true then deleteVariable (environ.unsetenv name) name
  else environ
termination_by environ.length
decreasing_by exact length_unsetenv_lt _h

/-- Ignores the signals that the program has no use for. -/
def ignoreSignals (env : Env) (fuel : ℕ) (answers : LaunchAnswers) (signals : Dispositions) :
    Prog State Dispositions := do
  assert env fuel (answers.ignores SIGCHLD) (some (CString.lit "signal() failed."))
  let signals := Function.update signals SIGCHLD .ignored
  assert env fuel (answers.ignores SIGPIPE) (some (CString.lit "signal() failed."))
  let signals := Function.update signals SIGPIPE .ignored
  log env fuel (bytesOf "Sigpipe and Sigchild ignored")
  pure signals

/-- Starts the program passed in via drrun. -/
def startProgram (env : Env) (fuel : ℕ) (build : Build) (answers : LaunchAnswers)
    (environ : Environ) (signals : Dispositions) (args : Args) (socketPath : CString) :
    Prog State Launched := do
  let execArgs := execArgs build args
  assert env fuel (answers.setenv DR_SS_ENV_SOCK) (some (CString.lit "setenv() failed"))
  let environ := environ.setenv DR_SS_ENV_SOCK socketPath
  log env fuel (DR_SS_ENV_SOCK.chars ++ bytesOf " environment variable set to \"" ++
    socketPath.chars ++ bytesOf "\"")
  assert env fuel (answers.setenv DR_SS_ENV_FD) (some (CString.lit "setenv() failed"))
  let environ := environ.setenv DR_SS_ENV_FD CString.empty
  log env fuel (DR_SS_ENV_FD.chars ++ bytesOf " environment variable set to \"\"")
  useStream env
  log env fuel (bytesOf "Starting dr_run\n\tCalling execvp on: " ++
    execArgs.flatMap fun arg => arg.chars ++ bytesOf " ")
  -- `execvp` returns only where it fails
  whenever (answers.execs = false) (err env fuel (some (CString.lit "execvp() failed.")))
  pure (.drrun ⟨execArgs, environ, signals⟩)

/-- Return a non-existent filename. -/
def tempName (env : Env) (fuel : ℕ) (answers : LaunchAnswers) : Prog State CString :=
  match answers.tmpDir with
  | none => throw (if env.unwinds then .threw else .aborted)
  | some tmpDir =>
    match DrShadowStack.tempName answers.uniquePath tmpDir with
    | none => do
      err env fuel (some (CString.lit "boost::filesystem::unique_path() failed."))
      -- not reached
      throw .killed
    | some name => pure name

/-- `QS::create_server`: the descriptor and the address it is bound to, or `none` where the address
does not fit. -/
def createServer (env : Env) (fuel : ℕ) (answers : LaunchAnswers) (fname : CString) :
    Prog State (Option (ℤ × QS.SunPath)) := do
  assert env fuel (answers.server.socket != -1) (some socketFailed)
  match QS.makeUnixServer answers.garbage fname with
  | none => pure none
  | some server => do
    assert env fuel answers.server.binds (some (CString.lit "bind() failed"))
    assert env fuel answers.server.listens (some (CString.lit "listen() failed."))
    log env fuel (bytesOf "Created server " ++ fname.chars ++
      bytesOf "\n\t- Listening for one client...")
    pure (some (answers.server.socket, server))

/-- `QS::accept_client` -/
def acceptClient (env : Env) (fuel : ℕ) (answers : LaunchAnswers) (sock : ℤ) : Prog State ℤ := do
  assert env fuel (answers.accept != -1) (some (CString.lit "accept() failed"))
  log env fuel (bytesOf "Server on fd " ++ Decimal.toString sock ++ bytesOf " accepted one client")
  pure answers.accept

/-- The parent process: it waits for the client, then it is the server. -/
def serve (ptrSize : ℕ) (env : Env) (fuel passes : ℕ) (answers : LaunchAnswers) (sock : ℤ) :
    Prog State Launched := do
  log env fuel (bytesOf "Waiting for client")
  let clientSock ← acceptClient env fuel answers sock
  let _ ← Server.startExternalShadowStack ptrSize env fuel passes clientSock
  terminate env fuel (some (CString.lit "Program exited. Killing group")) false
  -- not reached
  throw .killed

/-- The fork, whose parent keeps the server. -/
def forkClient (ptrSize : ℕ) (env : Env) (fuel passes : ℕ) (build : Build)
    (answers : LaunchAnswers) (environ : Environ) (signals : Dispositions) (args : Args)
    (serverName : CString) (sock : ℤ) : Prog State Launched :=
  onUnwind (terminate env fuel (some destructorCalled) true) do
    log env fuel (bytesOf "Starting initial fork...")
    assert env fuel (answers.fork != -1) (some (CString.lit "fork() failed"))
    if answers.fork = 0 then do
      log env fuel (bytesOf "Forming drrun args...")
      startProgram env fuel build answers environ signals args serverName
    else serve ptrSize env fuel passes answers sock

/-- Setup and start the external client. -/
def startExternalClient (ptrSize : ℕ) (env : Env) (fuel passes : ℕ) (build : Build)
    (answers : LaunchAnswers) (environ : Environ) (signals : Dispositions) (args : Args) :
    Prog State Launched := do
  let serverName ← tempName env fuel answers
  match ← createServer env fuel answers serverName with
  | none => pure .undefined
  | some (sock, _) =>
    forkClient ptrSize env fuel passes build answers environ signals args serverName sock

/-- Main function, behind the setup; `words` are the arguments behind the name of the program. -/
def start (ptrSize : ℕ) (env : Env) (fuel passes : ℕ) (build : Build) (answers : LaunchAnswers)
    (environ : Environ) (signals : Dispositions) (args : Args) : Prog State Launched := do
  -- delete the variables of an outer run
  let environ := deleteVariable (deleteVariable environ DR_SS_ENV_SOCK) DR_SS_ENV_FD
  let signals ← ignoreSignals env fuel answers signals
  log env fuel (bytesOf "DrShadowStack initalized")
  enableMultiThreadOrProcessMode env fuel
  if args.mode.isInternal then
    startProgram env fuel build answers environ signals args CString.empty
  else if args.mode.isExternal then
    startExternalClient ptrSize env fuel passes build answers environ signals args
  else do
    terminate env fuel (some (CString.lit "Unimplemented ss_mode called.")) true
    -- not reached
    throw .killed

/-- Main function. -/
def main (ptrSize : ℕ) (env : Env) (fuel passes : ℕ) (build : Build) (answers : LaunchAnswers)
    (words : List CString) (environ : Environ) (signals : Dispositions) : Prog State Launched := do
  let signals ← runBeforeEverything env fuel answers signals
  match ← parse env fuel build answers words with
  | none => pure .undefined
  | some args => start ptrSize env fuel passes build answers environ signals args

/-! ## The environment of drrun -/

/-- The loop ends, and the variable is gone. -/
theorem deleteVariable_eq (environ : Environ) (name : CString) :
    deleteVariable environ name = environ.unsetenv name := by
  rw [deleteVariable]
  split
  · -- `unsetenv` removes every entry, so the second look finds none
    rw [deleteVariable, dif_neg (by simp [Environ.getenv_unsetenv])]
  · next h => rw [Environ.unsetenv_of_getenv_eq_none (Option.not_isSome_iff_eq_none.mp h)]

/-- An entry of neither of the two variables. -/
def IsOther (e : CString) : Prop :=
  Environ.valueOf DR_SS_ENV_SOCK e = none ∧ Environ.valueOf DR_SS_ENV_FD e = none

instance : DecidablePred IsOther := fun _ => inferInstanceAs (Decidable (_ ∧ _))

theorem valueOf_fd_entry_sock (value : CString) :
    Environ.valueOf DR_SS_ENV_FD (Environ.entry DR_SS_ENV_SOCK value) = none := by
  rw [Environ.valueOf, if_neg]
  intro hpre
  have hsock : DR_SS_ENV_SOCK.chars <+: (Environ.entry DR_SS_ENV_SOCK value).chars :=
    (List.prefix_append DR_SS_ENV_SOCK.chars (CString.lit "=").chars).trans
      (List.prefix_append _ value.chars)
  exact absurd (List.prefix_of_prefix_length_le hpre hsock (by decide)) (by decide)

/-- **The environment of drrun**: what the program found in its own, without the variables of an
outer run, and one entry for each of the two. -/
theorem startProgram_eq_append (environ : Environ) (socketPath : CString) :
    DrShadowStack.startProgram environ socketPath =
      environ.filter IsOther ++ [Environ.entry DR_SS_ENV_SOCK socketPath,
        Environ.entry DR_SS_ENV_FD CString.empty] := by
  have hothers : (environ.unsetenv DR_SS_ENV_SOCK).unsetenv DR_SS_ENV_FD =
      environ.filter IsOther := by
    simp only [Environ.unsetenv, List.filter_filter]
    congr 1
    funext e
    rw [Bool.eq_iff_iff]
    simp [IsOther, and_comm]
  have hnone : ∀ name ∈ [DR_SS_ENV_SOCK, DR_SS_ENV_FD],
      Environ.getenv (environ.filter IsOther) name = none := by
    intro name hname
    refine Environ.getenv_eq_none_iff.mpr fun e he => ?_
    have hother : IsOther e := by simpa using (List.mem_filter.mp he).2
    rcases List.mem_cons.mp hname with rfl | hname
    · exact hother.1
    · rw [List.mem_singleton.mp hname]
      exact hother.2
  have hfd : Environ.getenv (environ.filter IsOther ++
      [Environ.entry DR_SS_ENV_SOCK socketPath]) DR_SS_ENV_FD = none := by
    refine Environ.getenv_eq_none_iff.mpr fun e he => ?_
    rcases List.mem_append.mp he with he | he
    · exact Environ.getenv_eq_none_iff.mp (hnone _ (by simp)) e he
    · rw [List.mem_singleton.mp he, valueOf_fd_entry_sock]
  rw [DrShadowStack.startProgram, hothers, Environ.setenv_of_getenv_eq_none (hnone _ (by simp)),
    Environ.setenv_of_getenv_eq_none hfd, List.append_assoc]
  rfl

/-! ## The part that a process plays -/

/-- What becomes of the process: another program, or the server of a client. -/
inductive Role
  | becomes (l : Launched)
  | serves (sock : ℤ)

/-- The dispositions with which the program starts drrun. -/
def ignored (answers : LaunchAnswers) (signals : Dispositions) : Option Dispositions :=
  if answers.ignores SIGCHLD && answers.ignores SIGPIPE then
    some (Function.update (Function.update signals SIGCHLD .ignored) SIGPIPE .ignored)
  else none

/-- What drrun is started with, if it is. -/
def launched (build : Build) (answers : LaunchAnswers) (environ : Environ) (signals : Dispositions)
    (args : Args) (socketPath : CString) : Option Launched :=
  if answers.setenv DR_SS_ENV_SOCK && answers.setenv DR_SS_ENV_FD && answers.execs then
    some (.drrun ⟨execArgs build args, DrShadowStack.startProgram environ socketPath, signals⟩)
  else none

/-- The name of the server's file. -/
def serverName (answers : LaunchAnswers) : Option CString :=
  answers.tmpDir.bind (DrShadowStack.tempName answers.uniquePath)

/-- What becomes of the process behind the fork. -/
def forkRole (build : Build) (answers : LaunchAnswers) (environ : Environ) (signals : Dispositions)
    (args : Args) (name : CString) : Option Role :=
  if answers.fork = -1 then none
  else if answers.fork = 0 then (launched build answers environ signals args name).map .becomes
  else if answers.accept = -1 then none
  else some (.serves answers.accept)

/-- What becomes of the process in external mode. -/
def externalRole (build : Build) (answers : LaunchAnswers) (environ : Environ)
    (signals : Dispositions) (args : Args) : Option Role :=
  (serverName answers).bind fun name =>
    match QS.createServer answers.server answers.garbage name with
    | .assertFailed => none
    | .outOfBounds => some (.becomes .undefined)
    | .returned _ => forkRole build answers environ signals args name

/-- What becomes of the process in the mode of the arguments. -/
def modeRole (build : Build) (answers : LaunchAnswers) (environ : Environ) (signals : Dispositions)
    (args : Args) : Option Role :=
  (ignored answers signals).bind fun signals =>
    if args.mode.isInternal then
      (launched build answers environ signals args CString.empty).map .becomes
    else if args.mode.isExternal then externalRole build answers environ signals args
    else none

/-- What the words are parsed to. -/
def parsed (build : Build) (answers : LaunchAnswers) (words : List CString) :
    Option (Option Args) :=
  match parseArgs build answers.lib words with
  | .outOfRange => some none
  | .returned args => if answers.strdup then some (some args) else none
  | _ => none

/-- What becomes of the process; `none` where it ends. -/
def role (build : Build) (answers : LaunchAnswers) (words : List CString) (environ : Environ)
    (signals : Dispositions) : Option Role :=
  if answers.unlinks && answers.opens then
    (remapped answers.group .defaultSignalHandler (List.range' 1 answers.group.nsig) signals).bind
      fun signals => (parsed build answers words).bind fun
        | none => some (.becomes .undefined)
        | some args => modeRole build answers environ signals args
  else none

/-! ## What reporting computes -/

section Computes

variable {env : Env} {fuel : ℕ} {build : Build} {answers : LaunchAnswers} {environ : Environ}
  {args : Args}

theorem runBeforeEverything_computes (signals : Dispositions) :
    Computes env fuel (runBeforeEverything env fuel answers signals)
      (if answers.unlinks && answers.opens then
        remapped answers.group .defaultSignalHandler (List.range' 1 answers.group.nsig) signals
      else none) := by
  have hgroup : Computes env fuel (do
      log env fuel (bytesOf "DrShadowStack initalized")
      log env fuel (bytesOf "Setting up the group now...")
      ProcessGroup.setup env fuel answers.group false signals) _ :=
    .seq (.log _) (.seq (.log _) (ProcessGroup.setup_computes false))
  have hsetup : Computes env fuel
      (Utilities.setup env fuel true answers.unlinks answers.opens) _ := setup_computes
  have hbind := hsetup.bind fun _ _ => hgroup
  rw [runBeforeEverything]
  cases hstart : answers.unlinks && answers.opens <;>
    simpa [hstart] using hbind

/-- Printing a text on request ends the process. -/
theorem printAsked_computes (text : Text) : Computes env fuel (printAsked env fuel text) none := by
  refine .catching ?_ (.terminate _ _)
  intro s xs
  have hmessage : Triple (Did env s · xs) (message { env with unwinds := true } fuel text)
      (fun _ t => True ∧ Did env s t xs) _ :=
    did_of_spec (show 6 + 4 ≤ assertDepth by decide) fun s₀ =>
      ((spec { env with unwinds := true } fuel).message s₀ 6 text).conseq (fun _ hs => hs)
        (fun _ _ hs => ⟨trivial, hs⟩) fun _ _ he => he
  refine .bind (hmessage.mono fun e t ht => ⟨ht.1, ht.2, .inr (.inr rfl)⟩) fun _ => ?_
  exact .stop fun t ht => ⟨ht.2, Stop.noConfusion, .inr (.inr rfl)⟩

theorem parse_computes (words : List CString) :
    Computes env fuel (parse env fuel build answers words) (parsed build answers words) := by
  rw [parse, parsed]
  cases parseArgs build answers.lib words with
  | exited asked => exact .unreached (printAsked_computes _)
  | incorrectUsage logged =>
    cases logged with
    | none => exact .unreached (.terminate _ _)
    | some logged =>
      have hrest : Computes env fuel (do
          logError env fuel logged.chars
          incorrectUsage env fuel
          throw .killed : Prog State (Option Args)) none :=
        .seq (.logError _) (.unreached (.terminate _ _))
      have hguard : Computes env fuel (do
          safeStrdup env fuel answers.strdup
          logError env fuel logged.chars
          incorrectUsage env fuel
          throw .killed : Prog State (Option Args)) (if answers.strdup then none else none) :=
        .guard fun _ => hrest
      rwa [ite_self] at hguard
  | outOfRange => exact .ret none
  | aborted => exact .stop (by split <;> exact Stop.noConfusion)
  | returned args => exact .guard fun _ => .ret (some args)

theorem ignoreSignals_computes (signals : Dispositions) :
    Computes env fuel (ignoreSignals env fuel answers signals) (ignored answers signals) := by
  have hguard : Computes env fuel (ignoreSignals env fuel answers signals)
      (if answers.ignores SIGCHLD then if answers.ignores SIGPIPE then
        some (Function.update (Function.update signals SIGCHLD .ignored) SIGPIPE .ignored) else none
      else none) := .guard fun _ => .guard fun _ => .seq (.log _) (.ret _)
  rw [ignored]
  cases hchld : answers.ignores SIGCHLD <;> rw [hchld] at hguard <;> exact hguard

theorem startProgram_computes (signals : Dispositions) (socketPath : CString) :
    Computes env fuel (startProgram env fuel build answers
        (deleteVariable (deleteVariable environ DR_SS_ENV_SOCK) DR_SS_ENV_FD) signals args
        socketPath)
      (launched build answers environ signals args socketPath) := by
  have hexec : Computes env fuel (do
      whenever (answers.execs = false) (err env fuel (some (CString.lit "execvp() failed.")))
      pure (.drrun ⟨execArgs build args, DrShadowStack.startProgram environ socketPath, signals⟩) :
        Prog State Launched) (if answers.execs then
        some (.drrun ⟨execArgs build args, DrShadowStack.startProgram environ socketPath, signals⟩)
      else none) := by
    cases answers.execs with
    | true => exact .ret _
    | false => exact .unreached (.err _)
  have hguard : Computes env fuel (startProgram env fuel build answers
        (deleteVariable (deleteVariable environ DR_SS_ENV_SOCK) DR_SS_ENV_FD) signals args
        socketPath) (if answers.setenv DR_SS_ENV_SOCK then if answers.setenv DR_SS_ENV_FD then
        if answers.execs then some (.drrun
          ⟨execArgs build args, DrShadowStack.startProgram environ socketPath, signals⟩)
        else none else none else none) := by
    rw [startProgram, deleteVariable_eq, deleteVariable_eq]
    exact .guard fun _ => .seq (.log _) (.guard fun _ => .seq (.log _) (.seq .useStream
      (.seq (.log _) hexec)))
  rw [launched]
  cases hsock : answers.setenv DR_SS_ENV_SOCK <;> cases hfd : answers.setenv DR_SS_ENV_FD <;>
    simpa [hsock, hfd] using hguard

theorem tempName_computes : Computes env fuel (tempName env fuel answers) (serverName answers) := by
  rw [tempName, serverName]
  cases answers.tmpDir with
  | none => exact .stop (by split <;> exact Stop.noConfusion)
  | some tmpDir =>
    simp only [Option.bind_some]
    cases DrShadowStack.tempName answers.uniquePath tmpDir with
    | none => exact .unreached (.err _)
    | some name => exact .ret name

theorem createServer_computes (name : CString) :
    Computes env fuel (createServer env fuel answers name)
      (QS.createServer answers.server answers.garbage name).outcome := by
  have hguard : Computes env fuel (createServer env fuel answers name)
      (if answers.server.socket != -1 then
        match QS.makeUnixServer answers.garbage name with
        | none => some none
        | some server => if answers.server.binds then if answers.server.listens then
            some (some (answers.server.socket, server)) else none else none
      else none) := by
    refine .guard fun _ => ?_
    cases QS.makeUnixServer answers.garbage name with
    | none => exact .ret none
    | some server => exact .guard fun _ => .guard fun _ => .seq (.log _) (.ret _)
  rw [QS.createServer]
  by_cases hsocket : answers.server.socket = -1
  · simpa [hsocket, QS.End.outcome] using hguard
  · cases hfits : QS.makeUnixServer answers.garbage name with
    | none => simpa [hsocket, hfits, QS.End.outcome] using hguard
    | some server =>
      cases hbinds : answers.server.binds <;> cases hlistens : answers.server.listens <;>
        simpa [hsocket, hfits, hbinds, hlistens, QS.End.outcome] using hguard

theorem acceptClient_computes (sock : ℤ) :
    Computes env fuel (acceptClient env fuel answers sock)
      (if answers.accept != -1 then some answers.accept else none) :=
  .guard fun _ => .seq (.log _) (.ret _)

end Computes

/-! ## Runs -/

/-- What there is to show of a process that plays a part and has ended. A server ended with nothing
written that it should not have, and if nothing failed, its client was refused, or it was served to
the end of its stream. -/
def Ended (ptrSize : ℕ) (env : Env) (fuel passes : ℕ) (s : State) :
    Option Role → Stop → State → Prop
  | some (.serves sock), e, t => ∃ xs, Did env s t xs ∧ Server.Causal ptrSize sock xs ∧
    (e = .outOfFuel →
      fuel < assertDepth ∨ passes * MESSAGE_SIZE ptrSize ≤ (Server.received sock xs).length) ∧
    (Impaired env s t ∨ e = .outOfFuel ∨ Server.Refused ptrSize sock xs ∨
      ∃ stk : PointerStack ptrSize, Server.Conversation sock stk xs ∧
        Server.Disconnected ptrSize sock xs)
  | r, e, t => Did env s t [] ∧ (e = .outOfFuel → fuel < assertDepth) ∧
    (Impaired env s t ∨ e = .outOfFuel ∨ r = none)

/-- The program only reports on its way to the part `r`. -/
def Plays (ptrSize : ℕ) (env : Env) (fuel passes : ℕ) (m : Prog State Launched)
    (r : Option Role) : Prop :=
  ∀ s, Triple (Did env s · []) m (fun l t => r = some (.becomes l) ∧ Did env s t [])
    (Ended ptrSize env fuel passes s r)

section Plays

variable {ptrSize : ℕ} {env : Env} {fuel passes : ℕ} {s t u : State} {e : Stop} {r : Option Role}

theorem causal_nil (sock : ℤ) : Server.Causal ptrSize sock [] := Server.Conversation.nil.causal

/-- Until a part is played, a process ends where something is wrong or there is none to play. -/
theorem Ended.of_did (ht : Did env s t []) (hshort : e = .outOfFuel → fuel < assertDepth)
    (hcause : Impaired env s t ∨ e = .outOfFuel ∨ r = none) :
    Ended ptrSize env fuel passes s r e t := by
  rcases r with _ | l | sock
  · exact ⟨ht, hshort, hcause⟩
  · exact ⟨ht, hshort, hcause⟩
  · refine ⟨[], ht, causal_nil sock, fun he => .inl (hshort he), ?_⟩
    exact hcause.imp_right (Or.imp_right fun hnone => by cases hnone)

/-- The destructor of a `TerminateOnDestruction` adds reports to it. -/
theorem Ended.destructor (h : Ended ptrSize env fuel passes s r .threw u) (ht : Reports env u t)
    (hshort : e = .outOfFuel → fuel < assertDepth) : Ended ptrSize env fuel passes s r e t := by
  have hcause : ∀ {A : Prop}, Impaired env s u ∨ Stop.threw = .outOfFuel ∨ A →
      Impaired env s t ∨ e = .outOfFuel ∨ A := by
    rintro A (himpaired | hthrew | ha)
    · exact .inl (himpaired.mono ht)
    · cases hthrew
    · exact .inr (.inr ha)
  rcases r with _ | l | sock
  · exact ⟨h.1.reports ht, hshort, hcause h.2.2⟩
  · exact ⟨h.1.reports ht, hshort, hcause h.2.2⟩
  · obtain ⟨xs, hu, hcausal, -, hends⟩ := h
    exact ⟨xs, hu.reports ht, hcausal, fun he => .inl (hshort he), hcause hends⟩

namespace Plays

variable {m : Prog State Launched}

theorem of_computes {o : Option Launched} (h : Computes env fuel m o) :
    Plays ptrSize env fuel passes m (o.map .becomes) := by
  intro s
  refine (h s []).conseq (fun _ ht => ht) (fun l t ht => ⟨?_, ht.2⟩)
    fun e t hR => .of_did hR.1 hR.2.1 ?_
  · rw [ht.1, Option.map_some]
  · exact hR.2.2.imp_right (Or.imp_right fun hnone => by rw [hnone, Option.map_none])

theorem bind {α : Type} {m : Prog State α} {o : Option α} {f : α → Prog State Launched}
    {g : α → Option Role} (hm : Computes env fuel m o)
    (hf : ∀ a, o = some a → Plays ptrSize env fuel passes (f a) (g a)) :
    Plays ptrSize env fuel passes (m >>= f) (o.bind g) := by
  intro s
  refine .bind ((hm s []).mono ?_) fun a => .of_fact (fun _ ht => ht.1) fun ha => ?_
  · rintro e t ⟨ht, hshort, hcause⟩
    refine .of_did ht hshort (hcause.imp_right (Or.imp_right fun hnone => ?_))
    rw [hnone, Option.bind_none]
  · rw [ha, Option.bind_some]
    exact (hf a ha s).conseq (fun _ ht => ht.2) (fun _ _ ht => ht) fun _ _ hR => hR

theorem seq {m : Prog State Unit} {n : Prog State Launched} (hm : Computes env fuel m (some ()))
    (hn : Plays ptrSize env fuel passes n r) :
    Plays ptrSize env fuel passes (m >>= fun _ => n) r :=
  bind hm fun _ _ => hn

theorem onUnwind (h : Plays ptrSize env fuel passes m r) (msg : Option CString) :
    Plays ptrSize env fuel passes (Prog.onUnwind (terminate env fuel msg true) m) r := by
  intro s
  refine (Triple.onUnwind (h s) (destructor_spec (R := Ended ptrSize env fuel passes s r) ?_)).mono
    fun _ _ hR => hR.2
  exact fun u e t hu ht hshort => hu.destructor ht hshort

end Plays

/-- Behind the server, the program has nothing to do but to terminate the group. -/
theorem serve_plays (answers : LaunchAnswers) (sock : ℤ) :
    Plays ptrSize env fuel passes (serve ptrSize env fuel passes answers sock)
      (if answers.accept != -1 then some (.serves answers.accept) else none) := by
  have hserver : ∀ clientSock, Plays ptrSize env fuel passes
      (do
        let _ ← Server.startExternalShadowStack ptrSize env fuel passes clientSock
        terminate env fuel (some (CString.lit "Program exited. Killing group")) false
        throw .killed) (some (.serves clientSock)) := by
    intro clientSock s
    have hstart := @Server.startExternalShadowStack_spec ptrSize env fuel passes clientSock s
    refine .bind (hstart.mono ?_) fun stk => ?_
    · rintro e t ⟨-, xs, ht, hcausal, hshort, hcause⟩
      exact ⟨xs, ht, hcausal, hshort, hcause.imp_right (Or.imp_right .inl)⟩
    · rintro u ⟨xs, hu, hconversation, hdisconnected⟩
      refine (Triple.bind (P := fun v => Did env s v xs) (Q := fun _ _ => False)
        ((terminate_did _ _).mono fun e t ht => ?_) fun _ => .of_false) u hu
      exact ⟨xs, ht.1, hconversation.causal, fun he => .inl (ht.2 he),
        .inr (.inr (.inr ⟨stk, hconversation, hdisconnected⟩))⟩
  have hbind : Plays ptrSize env fuel passes (serve ptrSize env fuel passes answers sock) _ :=
    .seq (.log _) (.bind (acceptClient_computes sock) fun clientSock _ => hserver clientSock)
  cases hne : answers.accept != -1 <;> simpa [hne] using hbind

/-- The child starts drrun, and the parent serves. -/
theorem forkClient_plays (build : Build) (answers : LaunchAnswers) (environ : Environ)
    (signals : Dispositions) (args : Args) (name : CString) (sock : ℤ) :
    Plays ptrSize env fuel passes (forkClient ptrSize env fuel passes build answers
        (deleteVariable (deleteVariable environ DR_SS_ENV_SOCK) DR_SS_ENV_FD) signals args name
        sock)
      (forkRole build answers environ signals args name) := by
  have hrole : forkRole build answers environ signals args name =
      (if answers.fork != -1 then some () else none).bind fun _ =>
        if answers.fork = 0 then (launched build answers environ signals args name).map .becomes
        else if answers.accept != -1 then some (.serves answers.accept) else none := by
    rw [forkRole]
    by_cases hfork : answers.fork = -1
    · simp [hfork]
    · by_cases haccept : answers.accept = -1 <;> simp [hfork, haccept]
  rw [hrole]
  refine .onUnwind (.seq (.log _) (.bind (.assert _ _) fun _ _ => ?_)) _
  split
  · exact .of_computes (.seq (.log _) (startProgram_computes signals name))
  · exact serve_plays answers sock

theorem startExternalClient_plays (build : Build) (answers : LaunchAnswers) (environ : Environ)
    (signals : Dispositions) (args : Args) :
    Plays ptrSize env fuel passes (startExternalClient ptrSize env fuel passes build answers
        (deleteVariable (deleteVariable environ DR_SS_ENV_SOCK) DR_SS_ENV_FD) signals args)
      (externalRole build answers environ signals args) := by
  refine .bind tempName_computes fun name _ => ?_
  have hserver : Computes env fuel (createServer env fuel answers name) _ :=
    createServer_computes name
  cases hcreate : QS.createServer answers.server answers.garbage name with
  | assertFailed =>
    rw [hcreate] at hserver
    exact .bind (g := fun _ => none) hserver fun r hr => by cases hr
  | outOfBounds =>
    rw [hcreate] at hserver
    refine .bind (g := fun _ => some (.becomes .undefined)) hserver fun r hr => ?_
    obtain rfl := Option.some.inj hr
    exact .of_computes (.ret .undefined)
  | returned server =>
    rw [hcreate] at hserver
    refine .bind (g := fun _ => forkRole build answers environ signals args name) hserver
      fun r hr => ?_
    obtain rfl := Option.some.inj hr
    exact forkClient_plays build answers environ signals args name server.1

theorem start_plays (build : Build) (answers : LaunchAnswers) (environ : Environ)
    (signals : Dispositions) (args : Args) :
    Plays ptrSize env fuel passes
      (start ptrSize env fuel passes build answers environ signals args)
      (modeRole build answers environ signals args) := by
  refine .bind (ignoreSignals_computes signals) fun signals' _ => ?_
  refine .seq (.log _) (.seq enableMultiThreadOrProcessMode_computes ?_)
  cases args.mode.isInternal with
  | true => exact .of_computes (startProgram_computes signals' _)
  | false =>
    cases args.mode.isExternal with
    | true => exact startExternalClient_plays build answers environ signals' args
    | false => exact .of_computes (o := none) (.unreached (.terminate _ _))

/-- **The program** plays its part, whatever goes wrong. -/
theorem main_plays (build : Build) (answers : LaunchAnswers) (words : List CString)
    (environ : Environ) (signals : Dispositions) :
    Plays ptrSize env fuel passes
      (main ptrSize env fuel passes build answers words environ signals)
      (role build answers words environ signals) := by
  have hmain : Plays ptrSize env fuel passes
      (main ptrSize env fuel passes build answers words environ signals) _ :=
    .bind (runBeforeEverything_computes signals) fun signals' _ =>
      .bind (parse_computes words) (g := fun
        | none => some (.becomes .undefined)
        | some args => modeRole build answers environ signals' args) fun r _ => by
        cases r with
        | none => exact .of_computes (.ret .undefined)
        | some args => exact start_plays build answers environ signals' args
  rw [role]
  cases hstart : answers.unlinks && answers.opens <;> rw [hstart] at hmain <;> exact hmain

end Plays

end DrShadowStack.Launcher
