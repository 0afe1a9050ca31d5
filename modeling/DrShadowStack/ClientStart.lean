import DrShadowStack.Logging
import DrShadowStack.ParseArgs
import DrShadowStack.TempName

/-!
# The start of the client (`dr_client_main`)

What runs in the process of the target before its first instruction, in either mode: the checks, the
setup of the mode, and the registration of the client's hooks. What the kernel and DynamoRIO answer
is left open (`StartAnswers`), like the outcomes of everything that is logged. The path of the
socket is copied without a look at its length, so the start returns an `Option`: `none` where the
copy leaves the array.

## Shape of the proof

Each function only reports besides what it computes, so the whole start does (`Computes`), by one
rule for each statement. Where it computes a client, every check has held (`protectsOrStops`).
-/

namespace DrShadowStack.Reporting

open Prog CString Utilities

/-! ## What the client registers -/

/-- The module of a mode. -/
inductive Module
  | internalSS
  | externalSS
deriving DecidableEq

/-- `SSHandlers`: the function pointers, as the modules whose functions they point to. -/
structure HandlerPointers where
  onCall : Option Module
  onRet : Option Module
  onSignal : Option Module
deriving DecidableEq

/-- Returns true if all function pointers are non-null. -/
def HandlerPointers.isValid (handlers : HandlerPointers) : Bool :=
  handlers.onCall.isSome && handlers.onRet.isSome && handlers.onSignal.isSome

/-- The events that the client registers functions for. -/
inductive Hook
  | filterSyscall (module : Module)
  | preSyscall (module : Module)
  | postSyscall (module : Module)
  | exit
  | kernelXfer
  | bbInstrumentation
deriving DecidableEq

/-- The client of a socket, and the address that its image has connected the socket to. -/
structure Connection where
  client : ExternalSS.Client
  address : Option QS.SunPath

/-- What a client has set up when it starts the target: of the socket, in external mode, and of the
thread's storage in internal mode nothing but that it is there. -/
structure Started where
  handlers : HandlerPointers
  connection : Option Connection
  /-- The hooks whose functions DynamoRIO has registered. -/
  hooks : List Hook

/-- What the kernel and DynamoRIO answer while the client starts. -/
structure StartAnswers where
  /-- The log file could be opened. -/
  opens : Bool
  drmgrInit : Bool
  strdup : Bool
  drsymInit : Bool
  registerTlsField : ℤ
  /-- The function of the hook is registered. -/
  registers : Hook → Bool
  socket : ExternalSS.Answers
  /-- What is on the stack when the server's address is filled in. -/
  garbage : QS.SunPath
  setenv : Bool

/-! ## The functions -/

/-- Calls setup functions. -/
def runBeforeEverything (env : Env) (fuel : ℕ) (answers : StartAnswers) : Prog State Unit := do
  Utilities.setup env fuel false true answers.opens
  enableMultiThreadOrProcessMode env fuel
  onUnwind (terminate env fuel (some destructorCalled) true) do
    log env fuel (bytesOf "DynamoRIO client started")
    log env fuel (bytesOf "Client 'DrShadowStack' initializing...")
    assert env fuel answers.drmgrInit (some (CString.lit "drmgr_init() failed."))

/-- The registrations of functions for these hooks; what DynamoRIO answers is not looked at. -/
def registered (answers : StartAnswers) (hooks : List Hook) : List Hook :=
  hooks.filter answers.registers

/-- The hooks of the system calls, which both modes register. -/
def syscallHooks (module : Module) : List Hook :=
  [.filterSyscall module, .preSyscall module, .postSyscall module]

/-- A mode that is set up: its handlers, and its hooks. -/
def setUp (answers : StartAnswers) (module : Module) (connection : Option Connection) : Started :=
  ⟨⟨some module, some module, some module⟩, connection, registered answers (syscallHooks module)⟩

/-- The hooks that `dr_client_main` registers in either mode. -/
def Started.register (answers : StartAnswers) (st : Started) : Started :=
  { st with hooks := st.hooks ++ registered answers [.exit, .kernelXfer, .bbInstrumentation] }

/-- `InternalSS::setup`, with `Sym::init` and the constructor of `TLS`. -/
def setupInternal (env : Env) (fuel : ℕ) (answers : StartAnswers) :
    Prog State (Option Started) := do
  assert env fuel answers.drsymInit (some (CString.lit "drsym_init() failed."))
  assert env fuel (answers.registerTlsField != -1)
    (some (CString.lit "drmgr_register_tls_field() failed."))
  log env fuel (bytesOf "Hooking syscalls...")
  pure (some (setUp answers .internalSS none))

/-- The message of both functions that create a socket. -/
def socketFailed : CString := CString.lit "socket() failed"

/-- `QS::create_client`: the descriptor and the address it is connected to, or `none` where the
address does not fit. -/
def createClient (env : Env) (fuel : ℕ) (answers : StartAnswers) (sockName : CString) :
    Prog State (Option (ℤ × QS.SunPath)) := do
  assert env fuel (answers.socket.socket != -1) (some socketFailed)
  match QS.makeUnixServer answers.garbage sockName with
  | none => pure none
  | some server => do
    assert env fuel answers.socket.connects (some (CString.lit "connect() failed"))
    log env fuel (bytesOf "New client connected to " ++ sockName.chars)
    pure (some (answers.socket.socket, server))

/-- The branch of `ExternalSS::setup` for an image that finds a connected socket. -/
def reuseSocket (env : Env) (fuel : ℕ) (environ : Environ) (fdStr socketPath : CString) :
    Prog State (Option Connection) := do
  log env fuel (bytesOf "Existing socket connected detected: " ++ socketPath.chars)
  match Decimal.stoi fdStr.chars with
  | none => throw (if env.unwinds then .threw else .aborted)
  | some sock => do
    log env fuel (bytesOf "\t- Using file descriptor " ++ Decimal.toString sock ++
      bytesOf " as socket fd, as it is already connected...")
    pure (some ⟨⟨sock, environ⟩, none⟩)

/-- The branch of `ExternalSS::setup` for the first image. -/
def connectSocket (env : Env) (fuel : ℕ) (environ : Environ) (answers : StartAnswers)
    (socketPath : CString) : Prog State (Option Connection) := do
  log env fuel (bytesOf "Client connecting to " ++ socketPath.chars)
  match ← createClient env fuel answers socketPath with
  | none => pure none
  | some (sock, address) => do
    assert env fuel answers.setenv (some (CString.lit "setenv() failed."))
    log env fuel (bytesOf "Set environment variable " ++ DR_SS_ENV_FD.chars ++ bytesOf " to " ++
      (ExternalSS.sockStr sock).chars)
    pure (some ⟨⟨sock, environ.setenv DR_SS_ENV_FD (ExternalSS.sockStr sock)⟩, some address⟩)

/-- `ExternalSS::setup` -/
def setupExternal (env : Env) (fuel : ℕ) (environ : Environ) (answers : StartAnswers)
    (socketPath : CString) : Prog State (Option Started) := do
  let fdStr := environ.getenv DR_SS_ENV_FD
  assert env fuel fdStr.isSome (some (CString.lit "getenv() failed."))
  let connection ← (match fdStr with
    -- not reached
    | none => throw .killed
    | some fdStr =>
      if fdStr.chars ≠ [] then reuseSocket env fuel environ fdStr socketPath
      else connectSocket env fuel environ answers socketPath : Prog State (Option Connection))
  match connection with
  | none => pure none
  | some connection => do
    log env fuel (bytesOf "Hooking syscalls...")
    pure (some (setUp answers .externalSS (some connection)))

/-- The setup function of the mode. -/
def setupMode (env : Env) (fuel : ℕ) (environ : Environ) (answers : StartAnswers) (mode : SSMode)
    (socketPath : CString) : Prog State (Option Started) :=
  if mode.isInternal then setupInternal env fuel answers
  else if mode.isExternal then setupExternal env fuel environ answers socketPath
  else do
    terminate env fuel (some (CString.lit "Unimplemented mode passed to the client")) true
    -- not reached
    throw .killed

/-- `strdup` that kills the group on failure. -/
def safeStrdup (env : Env) (fuel : ℕ) (strdup : Bool) : Prog State Unit :=
  assert env fuel strdup (some (CString.lit "strdup() failed."))

/-- `dr_client_main` behind its checks of the arguments and of the environment. -/
def startMode (env : Env) (fuel : ℕ) (environ : Environ) (answers : StartAnswers)
    (str socketPath : CString) : Prog State (Option Started) := do
  log env fuel (DR_SS_ENV_SOCK.chars ++ bytesOf " environment variable has value: \"" ++
    socketPath.chars ++ bytesOf "\"")
  safeStrdup env fuel answers.strdup
  assert env fuel (SSMode.isValidMode ⟨str⟩) (some (CString.lit "Invalid mode given to the client"))
  match ← setupMode env fuel environ answers ⟨str⟩ socketPath with
  | none => pure none
  | some st => do
    assert env fuel st.handlers.isValid (some (CString.lit "SSHandlers setup incomplete"))
    log env fuel (bytesOf "Registering events...")
    pure (some (st.register answers))

/-- `dr_client_main` behind its `TerminateOnDestruction`; `argv` has the name of the client and the
mode. -/
def startClient (env : Env) (fuel : ℕ) (argv : List CString) (environ : Environ)
    (answers : StartAnswers) : Prog State (Option Started) := do
  assert env fuel (argv.length == 2)
    (some (CString.lit "Incorrect usage of dr_client_main\nExpected args: <Mode>"))
  let socketPath := environ.getenv DR_SS_ENV_SOCK
  assert env fuel socketPath.isSome (some (CString.lit "getenv() failed."))
  match argv, socketPath with
  | [_, str], some socketPath => startMode env fuel environ answers str socketPath
  -- not reached
  | _, _ => throw .killed

/-- The main client function; `none` where a write has left its array. -/
def drClientMain (env : Env) (fuel : ℕ) (argv : List CString) (environ : Environ)
    (answers : StartAnswers) : Prog State (Option Started) := do
  runBeforeEverything env fuel answers
  onUnwind (terminate env fuel (some destructorCalled) true)
    (startClient env fuel argv environ answers)

/-! ## What it computes -/

/-- What the first image connects to; it also sets the environment. -/
def connected (environ : Environ) (answers : StartAnswers) (socketPath : CString) :
    Option (Option Connection) :=
  (QS.createClient answers.socket answers.garbage socketPath).outcome.bind fun
    | none => some none
    | some (sock, address) =>
      if answers.setenv then
        some (some ⟨⟨sock, environ.setenv DR_SS_ENV_FD (ExternalSS.sockStr sock)⟩, some address⟩)
      else none

/-- The connection that `ExternalSS::setup` finds or makes. -/
def connection (environ : Environ) (answers : StartAnswers) (socketPath : CString) :
    Option (Option Connection) :=
  match environ.getenv DR_SS_ENV_FD with
  | none => none
  | some fdStr =>
    if fdStr.chars ≠ [] then
      (Decimal.stoi fdStr.chars).map fun sock => some ⟨⟨sock, environ⟩, none⟩
    else connected environ answers socketPath

/-- What the setup of a mode has to start the target with. -/
def startedMode (environ : Environ) (answers : StartAnswers) (mode : SSMode)
    (socketPath : CString) : Option (Option Started) :=
  if mode.isInternal then
    if answers.drsymInit && answers.registerTlsField != -1 then
      some (some (setUp answers .internalSS none))
    else none
  else if mode.isExternal then
    (connection environ answers socketPath).map
      (Option.map fun c => setUp answers .externalSS (some c))
  else none

/-- What the client has set up when it starts the target: nothing where it stops, and `none` where a
write has left its array. -/
def started (argv : List CString) (environ : Environ) (answers : StartAnswers) :
    Option (Option Started) :=
  match argv, environ.getenv DR_SS_ENV_SOCK with
  | [_, str], some socketPath =>
    if answers.opens && answers.drmgrInit && answers.strdup then
      (startedMode environ answers ⟨str⟩ socketPath).map (Option.map (Started.register answers))
    else none
  | _, _ => none

/-- The flag of a mode. -/
def Module.flag : Module → CString
  | .internalSS => INTERNAL_MODE_FLAG
  | .externalSS => EXTERNAL_MODE_FLAG

section Modes

variable {environ : Environ} {answers : StartAnswers} {st : Option Started} {c : Connection}
  {str socketPath : CString}

/-- A connection that an image starts with: an earlier one has made it, or it is the first, and has
connected to the address of the path. -/
inductive Connects (environ : Environ) (answers : StartAnswers) (socketPath : CString) :
    Connection → Prop
  | reused {fdStr : CString} {sock : ℤ} : environ.getenv DR_SS_ENV_FD = some fdStr →
      fdStr.chars ≠ [] → Decimal.stoi fdStr.chars = some sock →
      Connects environ answers socketPath ⟨⟨sock, environ⟩, none⟩
  | connected {fdStr : CString} {sock : ℤ} {address : QS.SunPath} :
      environ.getenv DR_SS_ENV_FD = some fdStr → fdStr.chars = [] →
      QS.createClient answers.socket answers.garbage socketPath = .returned (sock, address) →
      answers.setenv = true →
      Connects environ answers socketPath
        ⟨⟨sock, environ.setenv DR_SS_ENV_FD (ExternalSS.sockStr sock)⟩, some address⟩

/-- The kernel is told the path of the environment. -/
theorem Connects.name_of_address (h : Connects environ answers socketPath c) :
    ∀ address ∈ c.address, address.name = socketPath.chars := by
  intro address haddress
  cases h with
  | reused => cases haddress
  | connected _ _ hreturned _ =>
    obtain rfl := Option.mem_some.mp haddress
    exact QS.name_of_createClient hreturned

theorem connected_eq_some_some_iff :
    connected environ answers socketPath = some (some c) ↔
      ∃ sock address,
        QS.createClient answers.socket answers.garbage socketPath = .returned (sock, address) ∧
        answers.setenv = true ∧
        ⟨⟨sock, environ.setenv DR_SS_ENV_FD (ExternalSS.sockStr sock)⟩, some address⟩ = c := by
  rw [connected]
  cases QS.createClient answers.socket answers.garbage socketPath with
  | assertFailed => simp [QS.End.outcome]
  | outOfBounds => simp [QS.End.outcome]
  | returned r =>
    obtain ⟨sock, address⟩ := r
    simp [QS.End.outcome, and_assoc]

theorem connected_eq_some_none_iff :
    connected environ answers socketPath = some none ↔
      answers.socket.socket ≠ -1 ∧ QS.SUN_PATH_SIZE < socketPath.strlen + 1 := by
  rw [← @QS.createClient_outOfBounds_iff answers.garbage, connected]
  cases QS.createClient answers.socket answers.garbage socketPath with
  | assertFailed => simp [QS.End.outcome]
  | outOfBounds => simp [QS.End.outcome]
  | returned r => simp [QS.End.outcome]

theorem connection_eq_some_some_iff :
    connection environ answers socketPath = some (some c) ↔
      Connects environ answers socketPath c := by
  rw [connection]
  constructor
  · intro h
    split at h
    · cases h
    · next fdStr hfd =>
      split at h
      · next hfound =>
        obtain ⟨sock, hsock, hc⟩ := Option.map_eq_some_iff.mp h
        obtain rfl := Option.some.inj hc
        exact .reused hfd hfound hsock
      · next hempty =>
        obtain ⟨sock, address, hreturned, hsetenv, rfl⟩ := connected_eq_some_some_iff.mp h
        exact .connected hfd (not_not.mp hempty) hreturned hsetenv
  · intro h
    cases h with
    | reused hfd hfound hsock => simp [hfd, hfound, hsock]
    | connected hfd hempty hreturned hsetenv =>
      simp only [hfd, hempty, ne_eq, not_true, if_false]
      exact connected_eq_some_some_iff.mpr ⟨_, _, hreturned, hsetenv, rfl⟩

/-- Only the first image copies the path, which need not fit. -/
theorem connection_eq_some_none_iff :
    connection environ answers socketPath = some none ↔
      (∃ fdStr, environ.getenv DR_SS_ENV_FD = some fdStr ∧ fdStr.chars = []) ∧
        answers.socket.socket ≠ -1 ∧ QS.SUN_PATH_SIZE < socketPath.strlen + 1 := by
  rw [connection]
  cases hfd : environ.getenv DR_SS_ENV_FD with
  | none => simp
  | some fdStr =>
    by_cases hempty : fdStr.chars = []
    · simp [hempty, connected_eq_some_none_iff]
    · simp [hempty]

/-- As far as the socket goes, an image that reuses one is set up as its earlier model has it. -/
theorem connection_of_reused {sock : ℤ}
    (h : ExternalSS.setup environ answers.socket = some (⟨sock, environ⟩, .reused sock)) :
    connection environ answers socketPath = some (some ⟨⟨sock, environ⟩, none⟩) := by
  rw [ExternalSS.setup] at h
  rw [connection]
  cases hfd : environ.getenv DR_SS_ENV_FD with
  | none => simp [hfd] at h
  | some fdStr =>
    by_cases hempty : fdStr.chars = []
    · simp [hfd, hempty] at h
    · have hsock : Decimal.stoi fdStr.chars = some sock := by simpa [hfd, hempty] using h
      simp [hempty, hsock]

theorem startedMode_internal :
    startedMode environ answers ⟨INTERNAL_MODE_FLAG⟩ socketPath =
      if answers.drsymInit && answers.registerTlsField != -1 then
        some (some (setUp answers .internalSS none))
      else none := by
  rw [startedMode, if_pos (by decide)]

theorem startedMode_external :
    startedMode environ answers ⟨EXTERNAL_MODE_FLAG⟩ socketPath =
      (connection environ answers socketPath).map
        (Option.map fun c => setUp answers .externalSS (some c)) := by
  rw [startedMode, if_neg (by decide), if_pos (by decide)]

/-- No other mode can be set up. -/
theorem startedMode_other (hint : str ≠ INTERNAL_MODE_FLAG) (hext : str ≠ EXTERNAL_MODE_FLAG) :
    startedMode environ answers ⟨str⟩ socketPath = none := by
  rw [startedMode, if_neg (by simpa [SSMode.isInternal] using hint),
    if_neg (by simpa [SSMode.isExternal] using hext)]

/-- What a module needs to be set up, with the connection that it then has. -/
inductive SetsUp (environ : Environ) (answers : StartAnswers) (socketPath : CString) :
    Module → Option Connection → Prop
  | internalSS : answers.drsymInit = true → answers.registerTlsField ≠ -1 →
      SetsUp environ answers socketPath .internalSS none
  | externalSS {c : Connection} : Connects environ answers socketPath c →
      SetsUp environ answers socketPath .externalSS (some c)

theorem startedMode_eq_some_iff :
    startedMode environ answers ⟨str⟩ socketPath = some st ↔
      (∃ module c, str = module.flag ∧ SetsUp environ answers socketPath module c ∧
          st = some (setUp answers module c)) ∨
        str = EXTERNAL_MODE_FLAG ∧ connection environ answers socketPath = some none ∧
          st = none := by
  constructor
  · intro h
    by_cases hint : str = INTERNAL_MODE_FLAG
    · subst hint
      rw [startedMode_internal, Option.ite_none_right_eq_some, Bool.and_eq_true, bne_iff_ne] at h
      obtain ⟨⟨hsym, htls⟩, hst⟩ := h
      exact .inl ⟨_, _, rfl, .internalSS hsym htls, (Option.some.inj hst).symm⟩
    by_cases hext : str = EXTERNAL_MODE_FLAG
    · subst hext
      rw [startedMode_external, Option.map_eq_some_iff] at h
      obtain ⟨_ | c, hc, rfl⟩ := h
      · exact .inr ⟨rfl, hc, rfl⟩
      · exact .inl ⟨_, _, rfl, .externalSS (connection_eq_some_some_iff.mp hc), rfl⟩
    · rw [startedMode_other hint hext] at h
      cases h
  · rintro (⟨module, c, rfl, ⟨hsym, htls⟩ | hc, rfl⟩ | ⟨rfl, hc, rfl⟩)
    · rw [Module.flag, startedMode_internal, if_pos (by simp [hsym, htls])]
    · rw [Module.flag, startedMode_external, connection_eq_some_some_iff.mpr hc]
      rfl
    · rw [startedMode_external, hc]
      rfl

end Modes

section Computes

variable {env : Env} {fuel : ℕ} {argv : List CString} {environ : Environ}
  {answers : StartAnswers}

theorem runBeforeEverything_computes :
    Computes env fuel (runBeforeEverything env fuel answers)
      (if answers.opens && answers.drmgrInit then some () else none) := by
  have hlog : Computes env fuel (onUnwind (terminate env fuel (some destructorCalled) true) do
      log env fuel (bytesOf "DynamoRIO client started")
      log env fuel (bytesOf "Client 'DrShadowStack' initializing...")
      assert env fuel answers.drmgrInit (some (CString.lit "drmgr_init() failed.")))
      (if answers.drmgrInit then some () else none) :=
    .onUnwind (.seq (.log _) (.seq (.log _) (.assert _ _))) _
  have hsetup : Computes env fuel (Utilities.setup env fuel false true answers.opens) _ :=
    setup_computes
  have hbind := hsetup.bind fun _ _ => Computes.seq enableMultiThreadOrProcessMode_computes hlog
  rw [runBeforeEverything]
  cases hopens : answers.opens <;> rw [hopens] at hbind <;> exact hbind

theorem setupInternal_computes :
    Computes env fuel (setupInternal env fuel answers)
      (if answers.drsymInit && answers.registerTlsField != -1 then
        some (some (setUp answers .internalSS none))
      else none) := by
  have hassert : Computes env fuel (setupInternal env fuel answers)
      (if answers.drsymInit then
        if answers.registerTlsField != -1 then some (some (setUp answers .internalSS none))
        else none
      else none) :=
    .guard fun _ => .guard fun _ => .seq (.log _) (.ret _)
  cases hsym : answers.drsymInit <;> rw [hsym] at hassert <;> exact hassert

theorem createClient_computes (sockName : CString) :
    Computes env fuel (createClient env fuel answers sockName)
      (QS.createClient answers.socket answers.garbage sockName).outcome := by
  have hguard : Computes env fuel (createClient env fuel answers sockName)
      (if answers.socket.socket != -1 then
        match QS.makeUnixServer answers.garbage sockName with
        | none => some none
        | some server => if answers.socket.connects then
            some (some (answers.socket.socket, server)) else none
      else none) := by
    refine .guard fun _ => ?_
    cases QS.makeUnixServer answers.garbage sockName with
    | none => exact .ret none
    | some server => exact .guard fun _ => .seq (.log _) (.ret _)
  rw [QS.createClient]
  by_cases hsocket : answers.socket.socket = -1
  · simpa [hsocket, QS.End.outcome] using hguard
  · cases hfits : QS.makeUnixServer answers.garbage sockName with
    | none => simpa [hsocket, hfits, QS.End.outcome] using hguard
    | some server =>
      cases hconnects : answers.socket.connects <;>
        simpa [hsocket, hfits, hconnects, QS.End.outcome] using hguard

theorem reuseSocket_computes (fdStr socketPath : CString) :
    Computes env fuel (reuseSocket env fuel environ fdStr socketPath)
      ((Decimal.stoi fdStr.chars).map fun sock => some ⟨⟨sock, environ⟩, none⟩) := by
  refine .seq (.log _) ?_
  cases Decimal.stoi fdStr.chars with
  | none => exact .stop (by split <;> exact Stop.noConfusion)
  | some sock => exact .seq (.log _) (.ret _)

theorem connectSocket_computes (socketPath : CString) :
    Computes env fuel (connectSocket env fuel environ answers socketPath)
      (connected environ answers socketPath) := by
  refine .seq (.log _) ((createClient_computes socketPath).bind fun r _ => ?_)
  cases r with
  | none => exact .ret none
  | some r => exact .guard fun _ => .seq (.log _) (.ret _)

theorem setupExternal_computes (socketPath : CString) :
    Computes env fuel (setupExternal env fuel environ answers socketPath)
      ((connection environ answers socketPath).map
        (Option.map fun c => setUp answers .externalSS (some c))) := by
  rw [setupExternal, connection]
  cases hfd : environ.getenv DR_SS_ENV_FD with
  | none => exact .guard (r := none) fun hsome => by cases hsome
  | some fdStr =>
    have hconnection : Computes env fuel
        (if fdStr.chars ≠ [] then reuseSocket env fuel environ fdStr socketPath
          else connectSocket env fuel environ answers socketPath)
        (if fdStr.chars ≠ [] then
          (Decimal.stoi fdStr.chars).map fun sock => some ⟨⟨sock, environ⟩, none⟩
        else connected environ answers socketPath) := by
      split
      · exact reuseSocket_computes _ _
      · exact connectSocket_computes _
    rw [Option.map_eq_bind]
    refine .guard fun _ => hconnection.bind fun c _ => ?_
    cases c with
    | none => exact .ret none
    | some c => exact .seq (.log _) (.ret _)

theorem setupMode_computes (mode : SSMode) (socketPath : CString) :
    Computes env fuel (setupMode env fuel environ answers mode socketPath)
      (startedMode environ answers mode socketPath) := by
  rw [setupMode, startedMode]
  cases mode.isInternal with
  | true => exact setupInternal_computes
  | false =>
    cases mode.isExternal with
    | true => exact setupExternal_computes _
    | false => exact .unreached (.terminate _ _)

theorem startMode_computes (str socketPath : CString) :
    Computes env fuel (startMode env fuel environ answers str socketPath)
      (if answers.strdup then
        (startedMode environ answers ⟨str⟩ socketPath).map (Option.map (Started.register answers))
      else none) := by
  have heq : (startedMode environ answers ⟨str⟩ socketPath).map
        (Option.map (Started.register answers)) =
      if SSMode.isValidMode ⟨str⟩ then
        (startedMode environ answers ⟨str⟩ socketPath).bind fun
          | none => some none
          | some st => if st.handlers.isValid then some (some (st.register answers)) else none
      else none := by
    cases hst : startedMode environ answers ⟨str⟩ socketPath with
    | none => exact (ite_self none).symm
    | some st =>
      rcases startedMode_eq_some_iff.mp hst with ⟨module, c, rfl, -, rfl⟩ | ⟨rfl, -, rfl⟩
      · rw [if_pos (by cases module <;> decide)]
        rfl
      · rfl
  rw [heq]
  refine .seq (.log _) (.guard fun _ => .guard fun _ => ?_)
  refine (setupMode_computes _ _).bind fun st _ => ?_
  cases st with
  | none => exact .ret none
  | some st => exact .guard fun _ => .seq (.log _) (.ret _)

theorem startClient_computes (argv : List CString) :
    Computes env fuel (startClient env fuel argv environ answers)
      (match argv, environ.getenv DR_SS_ENV_SOCK with
      | [_, str], some socketPath =>
        if answers.strdup then
          (startedMode environ answers ⟨str⟩ socketPath).map (Option.map (Started.register answers))
        else none
      | _, _ => none) := by
  by_cases hargc : argv.length = 2
  · obtain ⟨name, str, rfl⟩ := List.length_eq_two.mp hargc
    refine .guard fun _ => ?_
    cases hsock : environ.getenv DR_SS_ENV_SOCK with
    | none => exact .guard_false rfl
    | some socketPath => exact .guard fun _ => startMode_computes _ _
  · have hnone : ∀ (α : Type) (f : CString → CString → Option α),
        (match argv, environ.getenv DR_SS_ENV_SOCK with
          | [_, str], some socketPath => f str socketPath
          | _, _ => none) = none := by
      intro α f
      split
      · simp at hargc
      · rfl
    rw [hnone]
    exact .guard_false (by simpa using hargc)

/-- **The start of the client.** -/
theorem drClientMain_computes (argv : List CString) :
    Computes env fuel (drClientMain env fuel argv environ answers)
      (started argv environ answers) := by
  have hmain : Computes env fuel (drClientMain env fuel argv environ answers) _ :=
    runBeforeEverything_computes.bind fun _ _ =>
      .onUnwind (startClient_computes argv) (some destructorCalled)
  have heq : started argv environ answers =
      (if answers.opens && answers.drmgrInit then some () else none).bind fun _ =>
        match argv, environ.getenv DR_SS_ENV_SOCK with
        | [_, str], some socketPath =>
          if answers.strdup then
            (startedMode environ answers ⟨str⟩ socketPath).map
              (Option.map (Started.register answers))
          else none
        | _, _ => none := by
    unfold started
    cases answers.opens && answers.drmgrInit with
    | true => rfl
    | false =>
      rw [if_neg Bool.false_ne_true, Option.bind_none]
      split <;> rfl
  rw [heq]
  exact hmain

end Computes

/-! ## The target starts under the shadow stack -/

/-- The hooks that a client asks for. -/
def allHooks (module : Module) : List Hook :=
  syscallHooks module ++ [.exit, .kernelXfer, .bbInstrumentation]

/-- What the client needs to start in a mode, with the path and the connection that it has. -/
structure Startable (argv : List CString) (environ : Environ) (answers : StartAnswers)
    (module : Module) (socketPath : CString) (c : Option Connection) : Prop where
  argv : ∃ name, argv = [name, module.flag]
  path : environ.getenv DR_SS_ENV_SOCK = some socketPath
  opens : answers.opens = true
  drmgrInit : answers.drmgrInit = true
  strdup : answers.strdup = true
  mode : SetsUp environ answers socketPath module c

/-- The first image of a client copies a path that does not fit. -/
structure Overflows (argv : List CString) (environ : Environ) (answers : StartAnswers) : Prop where
  argv : ∃ name, argv = [name, EXTERNAL_MODE_FLAG]
  path : ∃ socketPath, environ.getenv DR_SS_ENV_SOCK = some socketPath ∧
    QS.SUN_PATH_SIZE < socketPath.strlen + 1
  opens : answers.opens = true
  drmgrInit : answers.drmgrInit = true
  strdup : answers.strdup = true
  fd : ∃ fdStr, environ.getenv DR_SS_ENV_FD = some fdStr ∧ fdStr.chars = []
  socket : answers.socket.socket ≠ -1

section Started

variable {argv : List CString} {environ : Environ} {answers : StartAnswers} {st : Started}

theorem started_eq_some_iff {r : Option Started} :
    started argv environ answers = some r ↔
      ∃ name str socketPath, argv = [name, str] ∧ environ.getenv DR_SS_ENV_SOCK = some socketPath ∧
        (answers.opens = true ∧ answers.drmgrInit = true ∧ answers.strdup = true) ∧
        ∃ r', startedMode environ answers ⟨str⟩ socketPath = some r' ∧
          r'.map (Started.register answers) = r := by
  unfold started
  constructor
  · intro h
    split at h
    · next name str socketPath hsock =>
      rw [Option.ite_none_right_eq_some, Bool.and_eq_true, Bool.and_eq_true] at h
      obtain ⟨⟨⟨hopens, hdrmgr⟩, hstrdup⟩, h⟩ := h
      exact ⟨name, str, socketPath, rfl, hsock, ⟨hopens, hdrmgr, hstrdup⟩,
        Option.map_eq_some_iff.mp h⟩
    · cases h
  · rintro ⟨name, str, socketPath, rfl, hsock, ⟨hopens, hdrmgr, hstrdup⟩, r', hr', rfl⟩
    simp only [hsock, hopens, hdrmgr, hstrdup, Bool.and_self, if_true, hr', Option.map_some]

theorem started_pair_eq_some_iff {name str : CString} {r : Option Started} :
    started [name, str] environ answers = some r ↔
      ∃ socketPath, environ.getenv DR_SS_ENV_SOCK = some socketPath ∧
        (answers.opens = true ∧ answers.drmgrInit = true ∧ answers.strdup = true) ∧
        ∃ r', startedMode environ answers ⟨str⟩ socketPath = some r' ∧
          r'.map (Started.register answers) = r := by
  rw [started_eq_some_iff]
  constructor
  · rintro ⟨name', str', socketPath, hargv, h⟩
    simp only [List.cons.injEq, and_true] at hargv
    obtain ⟨rfl, rfl⟩ := hargv
    exact ⟨socketPath, h⟩
  · rintro ⟨socketPath, h⟩
    exact ⟨name, str, socketPath, rfl, h⟩

/-- The client starts the target where every check holds, asking for every hook. -/
theorem started_eq_some_some_iff :
    started argv environ answers = some (some st) ↔
      ∃ module socketPath c, Startable argv environ answers module socketPath c ∧ st =
        ⟨⟨some module, some module, some module⟩, c, registered answers (allHooks module)⟩ := by
  rw [started_eq_some_iff]
  constructor
  · rintro ⟨name, str, socketPath, rfl, hsock, ⟨hopens, hdrmgr, hstrdup⟩, r, hr, hst⟩
    obtain ⟨module, c, rfl, hmode, rfl⟩ | ⟨-, -, rfl⟩ := startedMode_eq_some_iff.mp hr
    · refine ⟨module, socketPath, c, ⟨⟨name, rfl⟩, hsock, hopens, hdrmgr, hstrdup, hmode⟩, ?_⟩
      rw [← Option.some.inj hst, Started.register, setUp, registered, registered, registered,
        allHooks, List.filter_append]
    · cases hst
  · rintro ⟨module, socketPath, c, h, rfl⟩
    obtain ⟨name, rfl⟩ := h.argv
    refine ⟨name, _, socketPath, rfl, h.path, ⟨h.opens, h.drmgrInit, h.strdup⟩, _,
      startedMode_eq_some_iff.mpr (.inl ⟨module, c, rfl, h.mode, rfl⟩), ?_⟩
    rw [Option.map_some, Started.register, setUp, registered, registered, registered, allHooks,
      List.filter_append]

theorem started_eq_some_none_iff :
    started argv environ answers = some none ↔ Overflows argv environ answers := by
  rw [started_eq_some_iff]
  constructor
  · rintro ⟨name, str, socketPath, rfl, hsock, ⟨hopens, hdrmgr, hstrdup⟩, r, hr, hnone⟩
    obtain ⟨module, c, -, -, rfl⟩ | ⟨rfl, hc, -⟩ := startedMode_eq_some_iff.mp hr
    · cases hnone
    · obtain ⟨hfd, hsocket, hlong⟩ := connection_eq_some_none_iff.mp hc
      exact ⟨⟨name, rfl⟩, ⟨socketPath, hsock, hlong⟩, hopens, hdrmgr, hstrdup, hfd, hsocket⟩
  · intro h
    obtain ⟨name, rfl⟩ := h.argv
    obtain ⟨socketPath, hsock, hlong⟩ := h.path
    have hc := connection_eq_some_none_iff.mpr ⟨h.fd, h.socket, hlong⟩
    exact ⟨name, _, socketPath, rfl, hsock, ⟨h.opens, h.drmgrInit, h.strdup⟩, none,
      startedMode_eq_some_iff.mpr (.inr ⟨rfl, hc, rfl⟩), rfl⟩

end Started

/-- The target starts in the mode that the command line names, connected to the socket of the
environment, or not at all. Of the hooks those are in place that DynamoRIO has registered. -/
def ProtectsOrStops (env : Env) (fuel : ℕ) (argv : List CString) (environ : Environ)
    (answers : StartAnswers) (s : State) : EStateM.Result Stop State (Option Started) → Prop
  | .ok (some st) t => Did env s t [] ∧ ∃ module socketPath c,
    Startable argv environ answers module socketPath c ∧
    (∀ address ∈ c.bind Connection.address, address.name = socketPath.chars) ∧
    st = ⟨⟨some module, some module, some module⟩, c, (allHooks module).filter answers.registers⟩
  | .ok none t => Did env s t [] ∧ Overflows argv environ answers
  | .error e t => Did env s t [] ∧ (e = .outOfFuel → fuel < assertDepth) ∧
    (Impaired env s t ∨ e = .outOfFuel ∨ (¬Overflows argv environ answers ∧
      ∀ module socketPath c, ¬Startable argv environ answers module socketPath c))

/-- **The target is never started without a check.** -/
theorem protectsOrStops (env : Env) (fuel : ℕ) (argv : List CString) (environ : Environ)
    (answers : StartAnswers) (s : State) :
    ProtectsOrStops env fuel argv environ answers s
      (drClientMain env fuel argv environ answers s) := by
  have hmain : Computes env fuel (drClientMain env fuel argv environ answers) _ :=
    drClientMain_computes argv
  cases hrun : drClientMain env fuel argv environ answers s with
  | ok r t =>
    obtain ⟨hr, ht⟩ := (hmain s []).returned (.refl env s) hrun
    cases r with
    | none => exact ⟨ht, started_eq_some_none_iff.mp hr⟩
    | some st =>
      obtain ⟨module, socketPath, c, hstartable, hst⟩ := started_eq_some_some_iff.mp hr
      refine ⟨ht, module, socketPath, c, hstartable, ?_, hst⟩
      intro address haddress
      obtain ⟨c, rfl, haddress⟩ := Option.bind_eq_some_iff.mp haddress
      cases hstartable.mode with
      | externalSS hconnects => exact hconnects.name_of_address address haddress
  | error e t =>
    obtain ⟨ht, hshort, hcause⟩ := (hmain s []).stopped (.refl env s) hrun
    refine ⟨ht, hshort, hcause.imp_right (Or.imp_right fun hnone => ⟨fun hover => ?_, ?_⟩)⟩
    · rw [started_eq_some_none_iff.mpr hover] at hnone
      cases hnone
    · intro module socketPath c hstartable
      rw [started_eq_some_some_iff.mpr ⟨module, socketPath, c, hstartable, rfl⟩] at hnone
      cases hnone

end DrShadowStack.Reporting
