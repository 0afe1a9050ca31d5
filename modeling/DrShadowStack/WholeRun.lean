import DrShadowStack.EndToEnd
import DrShadowStack.LaunchedTarget

/-!
# From the command line to the last ret

The process that the program has started its target in, with the client's start and the handlers of
its events, and in external mode beside it the program's own process, which serves it. The words of
the command line are all that the two have in common; the kernel answers each as it likes. Between
the program and the client stands drrun, of which is used what its usage says (`Drrun.Conveys`).
-/

namespace DrShadowStack.Launcher

open Prog CString Utilities ProcessGroup Reporting ExternalServer

variable {ptrSize : ℕ} {build : Build} {answers : LaunchAnswers} {words : List CString}
  {environ : Environ} {signals : Dispositions} {args : Args} {target : Target}

/-! ## What drrun hands to the client -/

/-- What drrun makes of what it is started with: the arguments and the environment of the client. -/
structure Drrun where
  clientArgv : List CString → List CString
  clientEnviron : Environ → Environ

/-- The words between `-c` and `--` are the client and its options, which it gets as its arguments,
and the program's two variables stay in the environment. -/
structure Drrun.Conveys (drrun : Drrun) (build : Build) : Prop where
  clientArgv : ∀ args : Args, args.mode.isImplemented = true →
    drrun.clientArgv (execArgs build args) = [build.dynamorioClientSo, args.mode.str]
  clientEnviron : ∀ environ, SameSocket environ (drrun.clientEnviron environ)

/-! ## The two processes -/

/-- The process of the target: the client starts, and the handlers that it has set are called on the
events. -/
def runTarget (env : Env) (fuel : ℕ) (around : Surroundings ptrSize) (drrun : Drrun)
    (target : Target) (answers : StartAnswers) (evs : List (Event ptrSize)) :
    Prog State Unit := do
  match ← drClientMain env fuel (drrun.clientArgv target.argv) (drrun.clientEnviron target.environ)
    answers with
  -- not reached, the path having fit the server's address
  | none => throw .killed
  | some st =>
    match st.handlers.onRet, st.connection with
    | some .internalSS, _ => do
      let _ ← Internal.runEvents env fuel around [] evs
    | some .externalSS, some c => do
      let _ ← External.runEvents env fuel around c.client evs
    -- not reached, every mode that is set up being complete
    | _, _ => throw .killed

/-- What drrun is started with makes the client start in the mode of the arguments. -/
theorem Launchable.drClientMain_computes {env : Env} {fuel : ℕ} {socketPath : CString}
    {drrun : Drrun} (h : Launchable build answers words environ signals args socketPath target)
    (hdrrun : drrun.Conveys build) (answers' : StartAnswers) :
    Computes env fuel (drClientMain env fuel (drrun.clientArgv target.argv)
        (drrun.clientEnviron target.environ) answers')
      ((clientOf args (drrun.clientEnviron target.environ) socketPath answers').map some) := by
  have himplemented : args.mode.isImplemented = true := by
    rcases h.mode with ⟨hint, -⟩ | ⟨hext, -⟩
    · exact Bool.or_eq_true_iff.mpr (.inl hint)
    · exact Bool.or_eq_true_iff.mpr (.inr hext)
  rw [h.argv, hdrrun.clientArgv args himplemented,
    ← h.started_eq (hdrrun.clientEnviron target.environ) build.dynamorioClientSo answers']
  exact Reporting.drClientMain_computes _

/-- Of the program's own process, whatever becomes of it, nothing is written on the client's socket
that is not due. -/
theorem causal_main (env : Env) (fuel passes : ℕ) (build : Build) (answers : LaunchAnswers)
    (words : List CString) (environ : Environ) (signals : Dispositions) (s : State) :
    Server.Causal ptrSize answers.accept
      (transfers env s
        (final (main ptrSize env fuel passes build answers words environ signals s))) := by
  have hplays := @main_plays ptrSize env fuel passes build answers words environ signals s
  cases hrun : main ptrSize env fuel passes build answers words environ signals s with
  | ok l t =>
    rw [final, (hplays.returned (.refl env s) hrun).2.transfers_eq]
    exact causal_nil _
  | error e t =>
    have hended := hplays.stopped (.refl env s) hrun
    rw [final]
    rcases hrole : role build answers words environ signals with _ | l | sock <;>
      rw [hrole] at hended
    · rw [hended.1.transfers_eq]
      exact causal_nil _
    · rw [hended.1.transfers_eq]
      exact causal_nil _
    · obtain ⟨xs, ht, hcausal, -⟩ := hended
      obtain ⟨args, hserving⟩ := role_eq_serves_iff.mp hrole
      rw [ht.transfers_eq, hserving.accept.1]
      exact hcausal

/-- The client of a launched target, by the mode. -/
theorem client_of_clientOf {environ' : Environ} {socketPath : CString} {answers' : StartAnswers}
    {st : Started} (h : clientOf args environ' socketPath answers' = some st) :
    if args.mode.isInternal then st.handlers.onRet = some .internalSS
    else st.handlers.onRet = some .externalSS ∧ ∃ c, st.connection = some c ∧
      c.client.Ready ∧ c.client.sock = answers'.socket.socket := by
  rw [clientOf, Option.ite_none_right_eq_some] at h
  obtain ⟨-, h⟩ := h
  split at h
  · next hint =>
    rw [if_pos hint]
    obtain ⟨-, h⟩ := Option.ite_none_right_eq_some.mp h
    rw [← Option.some.inj h]
    rfl
  · next hint =>
    rw [if_neg hint]
    obtain ⟨address, -, h⟩ := Option.bind_eq_some_iff.mp h
    obtain ⟨sock, hsock, h⟩ := Option.bind_eq_some_iff.mp h
    obtain ⟨-, h⟩ := Option.ite_none_right_eq_some.mp h
    obtain ⟨-, hsock⟩ := Option.ite_none_right_eq_some.mp hsock
    obtain rfl := Option.some.inj hsock
    rw [← Option.some.inj h]
    exact ⟨rfl, _, rfl, ⟨Environ.getenv_setenv _ _ _, answers'.socket.socket_int⟩, rfl⟩

/-- The two ends of a socket: either process has received a prefix of what the other has written. -/
structure Linked (sock : ℤ) (xs : List Effect) (sock' : ℤ) (ys : List Effect) : Prop where
  up : Server.received sock' ys <+: Server.written sock xs
  down : Server.received sock xs <+: Server.written sock' ys

/-- **The target that the words name is run behind the shadow stack.** Once the program has become
drrun, whatever events the handlers in the target's process get through, the shadow stack accepts
every ret among them. In external mode the program's other process serves them: it may have got
anywhere, and failed in anything. -/
theorem accepted_of_launched {env env₁ env₂ : Env} {fuel fuel₁ fuel₂ passes passes₂ : ℕ}
    {s s₁ s₂ t t₁ : State} {around : Surroundings ptrSize} {drrun : Drrun}
    {answers₁ : StartAnswers} {answers₂ : LaunchAnswers} {evs : List (Event ptrSize)}
    (hdrrun : drrun.Conveys build) (hargs : parseArgs build answers.lib words = .returned args)
    (hlaunch : main ptrSize env fuel passes build answers words environ signals s =
      .ok (.drrun target) t)
    (hrun : runTarget env₁ fuel₁ around drrun target answers₁ evs s₁ = .ok () t₁)
    (hserved : args.mode.isExternal = true → ¬env₁.IsReportFd answers₁.socket.socket ∧
      ∃ conversation, conversation <+: transfers env₂ s₂
          (final (main ptrSize env₂ fuel₂ passes₂ build answers₂ words environ signals s₂)) ∧
        Linked answers₁.socket.socket (transfers env₁ s₁ t₁) answers₂.accept conversation) :
    target.argv = drrunArgs build args.mode ++ separator :: args.target :: args.targetArgs ∧
      ∃ ss, PartialRun.run ShadowStack.step [] evs = some ss := by
  have hplays := @main_plays ptrSize env fuel passes build answers words environ signals s
  obtain ⟨args', socketPath, hlaunchable⟩ :=
    role_eq_drrun_iff.mp (hplays.returned (.refl env s) hlaunch).1
  obtain rfl : args' = args := Outcome.returned.inj (hlaunchable.parsed.symm.trans hargs)
  refine ⟨by rw [hlaunchable.argv, execArgs, List.append_assoc]; rfl, ?_⟩
  obtain ⟨r, u, hmain, hhandled⟩ := bind_eq_ok.mp hrun
  obtain ⟨hstarted, hu⟩ := (hlaunchable.drClientMain_computes hdrrun answers₁ s₁ []).returned
    (.refl env₁ s₁) hmain
  obtain ⟨st, hst, rfl⟩ := Option.map_eq_some_iff.mp hstarted
  have hclient := client_of_clientOf hst
  simp only at hhandled
  rcases hlaunchable.mode with ⟨hint, -⟩ | ⟨hext, -⟩
  · rw [if_pos hint] at hclient
    rw [hclient] at hhandled
    obtain ⟨ss, v, hevents, -⟩ := bind_eq_ok.mp hhandled
    exact ⟨ss, ((Internal.runEvents_did around [] evs).returned hu hevents).1⟩
  · have hint : ¬args'.mode.isInternal = true := fun hint => by
      rw [isExternal_of_isInternal hint] at hext
      cases hext
    rw [if_neg hint] at hclient
    obtain ⟨honRet, c, hc, hready, hsock⟩ := hclient
    rw [honRet, hc] at hhandled
    obtain ⟨c', v, hevents, hv⟩ := bind_eq_ok.mp hhandled
    obtain ⟨hfd, conversation, hprefix, hlinked⟩ := hserved hext
    rw [← hsock] at hfd hlinked
    obtain ⟨-, -, ys, hys, hexchanged⟩ :=
      (External.runEvents_did hready hfd evs).returned hu hevents
    obtain rfl : v = t₁ := by cases hv; rfl
    rw [List.nil_append] at hys
    rw [hys.transfers_eq] at hlinked
    exact Option.isSome_iff_exists.mp (run_isSome_of_linked hexchanged.carries
      hexchanged.length_received
      ((causal_main env₂ fuel₂ passes₂ build answers₂ words environ signals s₂).mono hprefix)
      hlinked.up hlinked.down)

/-- A process whose writes are complete, and that is offered these messages. -/
def offering (recv : ℕ → Option (List UInt8)) : Env where
  logFd := 4
  stdoutFd := 1
  errorFd := 2
  verbose := false
  unwinds := true
  write _ := some 1000
  recv := recv
  gettid _ := 0
  throws _ := false
  strerror _ := CString.empty

/-- A process before its first operation. -/
def fresh : State where
  isMultiThreadOrProccess := false
  terminateAlreadyCalled := false
  clock := 0
  trace := []

/-- `./shadow_stack --ss_mode ext ls`, below another run. -/
def runLs (env : Env) (passes : ℕ) (answers : LaunchAnswers) :
    EStateM.Result Stop State Launched :=
  main 8 env 3 passes releaseBuild answers lsWords outerEnviron (fun _ => .standard) fresh

/-- The child of the fork becomes drrun. -/
theorem runLs_child :
    runLs (offering fun _ => none) 0 childAnswers =
      .ok (.drrun lsTarget) (final (runLs (offering fun _ => none) 0 childAnswers)) := by
  have hreturned : (value? (runLs (offering fun _ => none) 0 childAnswers)).isSome = true := by
    decide +kernel
  obtain ⟨l, hl⟩ := Option.isSome_iff_exists.mp hreturned
  have hrun := eq_ok_of_value? hl
  have hrole := (main_plays _ _ _ _ _ fresh).returned (.refl _ fresh) hrun
  rw [role_eq_drrun_iff.mpr ⟨lsArgs, lsPath, launchable_ls⟩] at hrole
  rw [Role.becomes.inj (Option.some.inj hrole.1), ← hrun]

/-- The run of the parent: its 38th operation is its first `recv`. -/
def parentEnv : Env := offering fun i => callAndRetMessages[i - 38]?

def parentAnswers : LaunchAnswers := { childAnswers with fork := 7, accept := 5 }

/-- The surroundings of the target's process, whose every answer is a `Continue`. -/
def targetEnv : Env := offering fun _ => some (Message.Continue.message 8)

theorem zero_notMem_clientOption : 0 ∉ bytesOf "-c" := by decide

/-- `-c` as a word. -/
def clientOption : CString := ⟨bytesOf "-c", zero_notMem_clientOption⟩

/-- A drrun that looks for the two words, and leaves the environment alone. -/
def scanning : Drrun where
  clientArgv argv := ((argv.takeWhile (· ≠ separator)).dropWhile (· ≠ clientOption)).tail
  clientEnviron environ := environ

theorem conveys_scanning : scanning.Conveys releaseBuild where
  clientArgv args himplemented := by
    have hmode : args.mode.str ≠ separator := fun hseparator =>
      not_dash_of_isImplemented himplemented (hseparator ▸ by decide)
    have hdrrun : releaseBuild.drrunPath ≠ separator ∧ releaseBuild.drrunPath ≠ clientOption := by
      decide
    have hclient : releaseBuild.dynamorioClientSo ≠ separator := by decide
    have hoption : clientOption ≠ separator := by decide
    have hc : CString.lit "-c" = clientOption := rfl
    have hlevel : releaseBuild.drDebugLogLevel = none := rfl
    simp [scanning, execArgs, drrunArgs, hlevel, hdrrun, hmode, hclient, hc, hoption]
  clientEnviron _ _ _ := rfl

/-- The process of `ls`: a call, and the ret that matches it. -/
def runCallAndRet : EStateM.Result Stop State Unit :=
  runTarget targetEnv 3 noImages scanning lsTarget (noImages.answers 0)
    [.call (5 : AppPc 8), .ret 5] fresh

theorem linked_ls :
    ∃ conversation, conversation <+: transfers parentEnv fresh
        (final (runLs parentEnv 3 parentAnswers)) ∧
      Linked 3 (transfers targetEnv fresh (final runCallAndRet)) 5 conversation := by
  refine ⟨_, List.take_prefix 3 _, ?_, ?_⟩
  · decide +kernel
  · decide +kernel

theorem accepted_of_launched_ls :
    lsTarget.argv = drrunArgs releaseBuild lsArgs.mode ++ separator :: lsArgs.target :: [] ∧
      ∃ ss, PartialRun.run ShadowStack.step [] [.call (5 : AppPc 8), .ret 5] = some ss := by
  have htarget : runCallAndRet = .ok () (final runCallAndRet) :=
    eq_ok_of_value? (by decide +kernel)
  exact accepted_of_launched conveys_scanning launchable_ls.parsed runLs_child htarget
    fun _ => ⟨by decide, linked_ls⟩

end DrShadowStack.Launcher
