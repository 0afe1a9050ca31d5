import DrShadowStack.ClientStart
import DrShadowStack.ServerLoop
import DrShadowStack.Wire

/-!
# The client's handlers over whole runs

The handlers of both modes with their logging, their reports and the outcomes of their system calls,
run on the events of one thread. An `execve` ends with the start of the client in the image that it
starts.
-/

namespace DrShadowStack.Reporting

open Prog CString Utilities

variable {ptrSize : ℕ}

/-- What is told of the delivery of a signal. -/
structure XferInfo (ptrSize : ℕ) where
  sig : ℤ
  strsignal : CString
  targetPc : AppPc ptrSize

/-- What lies outside the handlers of a run: the symbols that drsyms finds and the name of the
client; and, by the number of operations performed, what is told of a signal, the memory behind the
literals of the messages, and what is answered to an image that starts. -/
structure Surroundings (ptrSize : ℕ) where
  syms : Sym.Lookups ptrSize
  name : CString
  xfers : ℕ → XferInfo ptrSize
  memory : ℕ → ℕ → UInt8
  answers : ℕ → StartAnswers

/-- What `kernel_xfer_event_handler` does on a signal before it calls the handler of the mode. -/
def caughtSignal (env : Env) (fuel : ℕ) (around : Surroundings ptrSize) : Prog State Unit := do
  let info ← nextOutcome around.xfers
  verboseLog env fuel (bytesOf "Caught sig " ++ Decimal.toString info.sig ++ bytesOf " - " ++
    info.strsignal.chars ++ bytesOf "\t\n- Handler address = " ++ pointer info.targetPc)

theorem caughtSignal_computes {env : Env} {fuel : ℕ} (around : Surroundings ptrSize) :
    Computes env fuel (caughtSignal env fuel around) (some ()) :=
  .outcome fun _ => .verboseLog _

/-- The client in an image that an `execve` starts, with static data of its own. -/
def startImage (env : Env) (fuel : ℕ) (around : Surroundings ptrSize) (module : Module)
    (environ : Environ) : Prog State (Option Started) := do
  modify fun s => { s with isMultiThreadOrProccess := false, terminateAlreadyCalled := false }
  let s ← get
  drClientMain env fuel [around.name, module.flag] environ (around.answers s.clock)

/-- An image reports, and computes what its client does on some of the answers. -/
theorem startImage_did {env : Env} {fuel : ℕ} {s : State} {xs : List Effect}
    (around : Surroundings ptrSize) (module : Module) (environ : Environ) :
    Triple (Did env s · xs) (startImage env fuel around module environ)
      (fun r t => (∃ i,
        started [around.name, module.flag] environ (around.answers i) = some r) ∧ Did env s t xs)
      fun e t => Did env s t xs ∧ (e = .outOfFuel → fuel < assertDepth) ∧
        (Impaired env s t ∨ e = .outOfFuel ∨ ∃ i,
          started [around.name, module.flag] environ (around.answers i) = none) := by
  refine .bind (Q := fun _ t => Did env s t xs) (.update fun u hu => hu.of_trace_eq rfl) fun _ => ?_
  exact .bind .read fun u => (drClientMain_computes _ s xs).conseq (fun _ ht => ht.2)
    (fun _ _ ht => ⟨⟨u.clock, ht.1⟩, ht.2⟩) fun _ _ hR =>
      ⟨hR.1, hR.2.1, hR.2.2.imp_right (Or.imp_right fun hnone => ⟨u.clock, hnone⟩)⟩

/-! ## Internal mode -/

namespace Internal

/-- The call handler. -/
def onCall (env : Env) (fuel : ℕ) (ss : InternalSS.Stack ptrSize) (retToAddr : AppPc ptrSize) :
    Prog State (InternalSS.Stack ptrSize) := do
  verboseLog env fuel (bytesOf "Call @ " ++ pointer retToAddr)
  pure (InternalSS.onCall ss retToAddr)

/-- Called for `execve`. -/
def onExecve (env : Env) (fuel : ℕ) (ss : InternalSS.Stack ptrSize) (pre : Bool) :
    Prog State (InternalSS.Stack ptrSize) := do
  verboseLog env fuel (bytesOf "execve syscall detected, clearing shadow stack!")
  pure (InternalSS.onExecve ss pre)

/-- Delegates to the syscall specific function. -/
def syscallEvent (env : Env) (fuel : ℕ) (ss : InternalSS.Stack ptrSize) (sysnum : ℤ) (pre : Bool) :
    Prog State (InternalSS.Stack ptrSize) :=
  if sysnum = SYS_execve ptrSize then onExecve env fuel ss pre else pure ss

/-- A system call, which raises an event where the filter asks for it. -/
def preSyscall (env : Env) (fuel : ℕ) (ss : InternalSS.Stack ptrSize) (sysnum : ℤ) :
    Prog State (InternalSS.Stack ptrSize) :=
  if InternalSS.syscallFilter ptrSize sysnum then syscallEvent env fuel ss sysnum true else pure ss

/-- The handler of an event, and of an `execve` the start of the next image. -/
def onEvent (env : Env) (fuel : ℕ) (around : Surroundings ptrSize)
    (ss : InternalSS.Stack ptrSize) : Event ptrSize → Prog State (InternalSS.Stack ptrSize)
  | .call a => onCall env fuel ss a
  | .ret t => onRet env around.syms fuel ss t
  | .signal => do
    caughtSignal env fuel around
    pure (InternalSS.onSignal ss)
  | .execve environ => do
    let _ ← preSyscall env fuel ss (SYS_execve ptrSize)
    match ← startImage env fuel around .internalSS environ with
    -- not reached, no address being filled in
    | none => throw .killed
    -- the image has a stack of its own
    | some _ => pure []

/-- The handlers of one event after the other. -/
def runEvents (env : Env) (fuel : ℕ) (around : Surroundings ptrSize) :
    InternalSS.Stack ptrSize → List (Event ptrSize) → Prog State (InternalSS.Stack ptrSize)
  | ss, [] => pure ss
  | ss, e :: evs => do
    let ss ← onEvent env fuel around ss e
    runEvents env fuel around ss evs

section Runs

variable {env : Env} {fuel : ℕ} (around : Surroundings ptrSize) (ss : InternalSS.Stack ptrSize)

theorem onRet_computes (syms : Sym.Lookups ptrSize) (targetAddr : AppPc ptrSize) :
    Computes env fuel (onRet env syms fuel ss targetAddr) (InternalSS.onRet ss targetAddr) := by
  cases hret : InternalSS.onRet ss targetAddr with
  | none =>
    -- a refused ret is reported in many ways, and none of them returns
    refine .of_spec (show 6 + 4 ≤ assertDepth by decide) fun s₀ =>
      (onRet_spec syms ss targetAddr).conseq (fun _ hs => hs) ?_ fun _ _ hR => hR
    rintro ss' t ⟨hsome, -⟩
    rw [hret] at hsome
    cases hsome
  | some ss' =>
    cases ss with
    | nil => cases hret
    | cons top rest =>
      refine .seq (.verboseLog _) ?_
      simp only [InternalSS.onRet] at hret
      dsimp only
      split at hret
      · next heq =>
        rw [if_pos heq, ← hret]
        exact .ret rest
      · next hne =>
        obtain ⟨hw, hret⟩ := Option.ite_none_right_eq_some.mp hret
        rw [if_neg hne, if_pos hw, ← hret]
        exact .seq (.verboseLog _) (.ret rest)

/-- The handlers of events that start no image compute the shadow stack. -/
theorem onEvent_computes {e : Event ptrSize} (he : ∀ environ, e ≠ .execve environ) :
    Computes env fuel (onEvent env fuel around ss e) (InternalSS.step ss e) := by
  cases e with
  | call a => exact .seq (.verboseLog _) (.ret _)
  | ret t => exact onRet_computes ss around.syms t
  | signal => exact .seq (caughtSignal_computes around) (.ret _)
  | execve environ => exact absurd rfl (he environ)

theorem preSyscall_computes :
    Computes env fuel (preSyscall env fuel ss (SYS_execve ptrSize))
      (some (InternalSS.preSyscallEvent ss (SYS_execve ptrSize))) := by
  have hfilter : InternalSS.syscallFilter ptrSize (SYS_execve ptrSize) = true := beq_self_eq_true _
  rw [preSyscall, if_pos hfilter, syscallEvent, if_pos rfl, InternalSS.preSyscallEvent,
    InternalSS.syscallEvent, if_pos rfl]
  exact .seq (.verboseLog _) (.ret _)

/-- The answers with which an image of internal mode starts. -/
def Starts (answers : StartAnswers) : Prop :=
  (answers.opens = true ∧ answers.drmgrInit = true ∧ answers.strdup = true) ∧
    answers.drsymInit = true ∧ answers.registerTlsField ≠ -1

/-- An image of internal mode asks for the path of the socket too, and does nothing with it. -/
theorem started_eq_some_iff {name : CString} {environ : Environ} {answers : StartAnswers}
    {r : Option Started} :
    started [name, Module.internalSS.flag] environ answers = some r ↔
      ((environ.getenv DR_SS_ENV_SOCK).isSome = true ∧ Starts answers) ∧
        r = some ((setUp answers .internalSS none).register answers) := by
  rw [started_pair_eq_some_iff, Option.isSome_iff_exists, Starts]
  constructor
  · rintro ⟨socketPath, hsock, hanswers, r', hr', rfl⟩
    rw [Module.flag, startedMode_internal, Option.ite_none_right_eq_some, Bool.and_eq_true,
      bne_iff_ne] at hr'
    obtain ⟨hmode, hr'⟩ := hr'
    exact ⟨⟨⟨socketPath, hsock⟩, hanswers, hmode⟩, by rw [← Option.some.inj hr', Option.map_some]⟩
  · rintro ⟨⟨⟨socketPath, hsock⟩, hanswers, hmode⟩, rfl⟩
    refine ⟨socketPath, hsock, hanswers, some (setUp answers .internalSS none), ?_, rfl⟩
    rw [Module.flag, startedMode_internal, if_pos (by simpa using hmode)]

/-- What stops the handler of an event in a process with nothing wrong in it: a ret that the shadow
stack does not accept, the array of an `execve`, or the start of the image. -/
inductive Obstructed (around : Surroundings ptrSize) (ss : InternalSS.Stack ptrSize) :
    Event ptrSize → Prop
  | ret {t : AppPc ptrSize} : ShadowStack.step ss (.ret t) = none → Obstructed around ss (.ret t)
  | environ {environ : Environ} : environ.getenv DR_SS_ENV_SOCK = none →
      Obstructed around ss (.execve environ)
  | start {environ : Environ} (i : ℕ) : ¬Starts (around.answers i) →
      Obstructed around ss (.execve environ)

theorem Obstructed.of_step {ev : Event ptrSize} (h : ShadowStack.step ss ev = none) :
    Obstructed around ss ev := by
  cases ev with
  | ret t => exact .ret h
  | _ => cases h

/-- The array of an `execve` holds the path that the start of the next image asks for. -/
def HoldsPath (ev : Event ptrSize) : Prop :=
  ∀ environ, ev = .execve environ → (environ.getenv DR_SS_ENV_SOCK).isSome = true

/-- An `execve` leaves an empty stack. -/
theorem execve_did {s : State} {xs : List Effect} (environ : Environ) :
    Triple (Did env s · xs) (onEvent env fuel around ss (.execve environ))
      (fun ss' t => ss' = [] ∧ (environ.getenv DR_SS_ENV_SOCK).isSome = true ∧ Did env s t xs)
      fun e t => Did env s t xs ∧ (e = .outOfFuel → fuel < assertDepth) ∧
        (Impaired env s t ∨ e = .outOfFuel ∨ Obstructed around ss (.execve environ)) := by
  refine .bind ((preSyscall_computes ss s xs).conseq (fun _ ht => ht) (fun _ _ ht => ht.2)
    fun _ _ hR => ⟨hR.1, hR.2.1, hR.2.2.imp_right (Or.imp_right fun hnone => by cases hnone)⟩)
    fun _ => .bind ((startImage_did around .internalSS environ).mono ?_) fun r =>
      .of_fact (fun _ ht => ht.1) ?_
  · rintro e t ⟨ht, hshort, hcause⟩
    refine ⟨ht, hshort, hcause.imp_right (Or.imp_right ?_)⟩
    rintro ⟨i, hnone⟩
    cases hsock : environ.getenv DR_SS_ENV_SOCK with
    | none => exact .environ hsock
    | some socketPath =>
      refine .start i fun hstarts => ?_
      rw [started_eq_some_iff.mpr ⟨⟨by rw [hsock, Option.isSome_some], hstarts⟩, rfl⟩] at hnone
      cases hnone
  · rintro ⟨i, hstarted⟩
    obtain ⟨⟨hpath, -⟩, rfl⟩ := started_eq_some_iff.mp hstarted
    exact .ret fun _ ht => ⟨rfl, hpath, ht.2⟩

/-- The handler of an event does to the shadow stack what it has to. -/
theorem onEvent_did {s : State} {xs : List Effect} (ev : Event ptrSize) :
    Triple (Did env s · xs) (onEvent env fuel around ss ev)
      (fun ss' t => ShadowStack.step ss ev = some ss' ∧ HoldsPath ev ∧ Did env s t xs)
      fun e t => Did env s t xs ∧ (e = .outOfFuel → fuel < assertDepth) ∧
        (Impaired env s t ∨ e = .outOfFuel ∨ Obstructed around ss ev) := by
  by_cases hexecve : ∃ environ, ev = .execve environ
  · obtain ⟨environ, rfl⟩ := hexecve
    refine (execve_did around ss environ).conseq (fun _ ht => ht) ?_ fun _ _ hR => hR
    rintro - t ⟨rfl, hpath, ht⟩
    exact ⟨rfl, fun environ' h => by rwa [← Event.execve.inj h], ht⟩
  · have hcomputes : Computes env fuel (onEvent env fuel around ss ev) _ :=
      onEvent_computes around ss (not_exists.mp hexecve)
    rw [InternalSS.step_eq] at hcomputes
    refine (hcomputes s xs).conseq (fun _ ht => ht) ?_ ?_
    · rintro ss' t ⟨hstep, ht⟩
      exact ⟨hstep, fun environ h => absurd ⟨environ, h⟩ hexecve, ht⟩
    · rintro e t ⟨ht, hshort, hcause⟩
      exact ⟨ht, hshort, hcause.imp_right (Or.imp_right (.of_step around ss))⟩

/-- How the handlers of events stop: in one that is obstructed, with all before it handled. -/
structure EventsStopped (env : Env) (fuel : ℕ) (around : Surroundings ptrSize)
    (ss : InternalSS.Stack ptrSize) (evs : List (Event ptrSize)) (s : State) (xs : List Effect)
    (e : Stop) (t : State) : Prop where
  did : Did env s t xs
  short : e = .outOfFuel → fuel < assertDepth
  handled : ∃ handled ev rest ss', evs = handled ++ ev :: rest ∧
    PartialRun.run ShadowStack.step ss handled = some ss' ∧
    (Impaired env s t ∨ e = .outOfFuel ∨ Obstructed around ss' ev)

/-- The handlers of events do to the shadow stack what they have to, up to one that stops. -/
theorem runEvents_did {s : State} {xs : List Effect} (evs : List (Event ptrSize)) :
    Triple (Did env s · xs) (runEvents env fuel around ss evs)
      (fun ss' t => PartialRun.run ShadowStack.step ss evs = some ss' ∧
        (∀ ev ∈ evs, HoldsPath ev) ∧ Did env s t xs)
      (EventsStopped env fuel around ss evs s xs) := by
  induction evs generalizing ss with
  | nil => exact .ret fun t ht => ⟨rfl, by simp, ht⟩
  | cons ev evs ih =>
    refine .bind ((onEvent_did around ss ev).mono ?_) fun ss' =>
      .of_fact (fun _ ht => ht.1) fun hstep => .of_fact (fun _ ht => ht.2.1) fun hpath =>
        (ih ss').conseq (fun _ ht => ht.2.2) ?_ ?_
    · rintro e t ⟨ht, hshort, hcause⟩
      exact ⟨ht, hshort, [], ev, evs, ss, rfl, rfl, hcause⟩
    · rintro ss'' t ⟨hrun, hpaths, ht⟩
      refine ⟨?_, List.forall_mem_cons.mpr ⟨hpath, hpaths⟩, ht⟩
      rw [PartialRun.run_cons, hstep, Option.bind_some, hrun]
    · rintro e t ⟨ht, hshort, handled, ev', rest, ss'', rfl, hrun, hcause⟩
      refine ⟨ht, hshort, ev :: handled, ev', rest, ss'', rfl, ?_, hcause⟩
      rw [PartialRun.run_cons, hstep, Option.bind_some, hrun]

/-- What a run of the handlers comes to. It returns with what the shadow stack comes to, and with an
image behind every `execve`. It stops in one event, with all before it handled, and if nothing
failed, that event was obstructed. -/
def FollowsOrStops (env : Env) (fuel : ℕ) (around : Surroundings ptrSize)
    (ss : InternalSS.Stack ptrSize) (evs : List (Event ptrSize)) (s : State) :
    EStateM.Result Stop State (InternalSS.Stack ptrSize) → Prop
  | .ok ss' t => PartialRun.run ShadowStack.step ss evs = some ss' ∧
    (∀ ev ∈ evs, HoldsPath ev) ∧ Did env s t []
  | .error e t => EventsStopped env fuel around ss evs s [] e t

/-- **Internal mode with all that can go wrong in it.** -/
theorem followsOrStops (evs : List (Event ptrSize)) (s : State) :
    FollowsOrStops env fuel around ss evs s (runEvents env fuel around ss evs s) := by
  have hevents := @runEvents_did ptrSize env fuel around ss s [] evs
  cases hrun : runEvents env fuel around ss evs s with
  | ok ss' t => exact hevents.returned (.refl env s) hrun
  | error e t => exact hevents.stopped (.refl env s) hrun

end Runs

end Internal

/-! ## External mode -/

namespace External

theorem zero_notMem_writeFailed : 0 ∉ bytesOf "write() failed!" := by decide

/-- The message of the assertion in `send_msg`. -/
def writeFailed : CString := ⟨bytesOf "write() failed!", zero_notMem_writeFailed⟩

/-- `send_msg` of a header-only type. -/
def sendMsg (env : Env) (fuel : ℕ) (memory : ℕ → ℕ → UInt8) (T : MessageType true) (ptrSize : ℕ)
    (sock : ℤ) : Prog State Unit := do
  let s ← get
  let bytesSent ← write env sock (DrShadowStack.sendMsg T ptrSize (memory s.clock))
  assert env fuel (bytesSent == MESSAGE_SIZE ptrSize) (some writeFailed)

/-- The call handler. -/
def onCall (env : Env) (fuel : ℕ) (sock : ℤ) (retToAddr : AppPc ptrSize) : Prog State Unit := do
  verboseLog env fuel (bytesOf "(client) Call @ " ++ pointer retToAddr ++ bytesOf " - 0x5")
  sendMsgWith env fuel Message.Call ptrSize sock (LittleEndian.store retToAddr)

/-- Called before execve is called: the array that becomes the parameter of the system call. -/
def onExecve (env : Env) (fuel : ℕ) (memory : ℕ → ℕ → UInt8) (ptrSize : ℕ) (c : ExternalSS.Client)
    (environ : Environ) : Prog State Environ := do
  sendMsg env fuel memory Message.Execve ptrSize c.sock
  match ExternalSS.findFd environ with
  -- NULL is dereferenced
  | none => throw .killed
  | some next => do
    let fdStr := c.environ.getenv DR_SS_ENV_FD
    assert env fuel fdStr.isSome (some (CString.lit "DR_SS_ENV_FD not set on call to execve"))
    useStream env
    match fdStr with
    -- not reached
    | none => throw .killed
    | some fdStr => pure (environ.set next (Environ.entry DR_SS_ENV_FD fdStr))

/-- Delegates to the syscall specific function. -/
def syscallEvent (env : Env) (fuel : ℕ) (memory : ℕ → ℕ → UInt8) (ptrSize : ℕ)
    (c : ExternalSS.Client) (environ : Environ) (sysnum : ℤ) : Prog State Environ :=
  if sysnum = SYS_execve ptrSize then onExecve env fuel memory ptrSize c environ else pure environ

/-- A system call, which raises an event where the filter asks for it. -/
def preSyscall (env : Env) (fuel : ℕ) (memory : ℕ → ℕ → UInt8) (ptrSize : ℕ)
    (c : ExternalSS.Client) (environ : Environ) (sysnum : ℤ) : Prog State Environ :=
  if ExternalSS.syscallFilter ptrSize sysnum then
    syscallEvent env fuel memory ptrSize c environ sysnum
  else pure environ

/-- The handler of an event, and of an `execve` the start of the next image. -/
def onEvent (env : Env) (fuel : ℕ) (around : Surroundings ptrSize) (c : ExternalSS.Client) :
    Event ptrSize → Prog State ExternalSS.Client
  | .call a => do
    onCall env fuel c.sock a
    pure c
  | .ret t => do
    onRet env fuel c.sock t
    pure c
  | .signal => do
    caughtSignal env fuel around
    sendMsg env fuel around.memory Message.NewSignal ptrSize c.sock
    pure c
  | .execve environ => do
    let environ ← preSyscall env fuel around.memory ptrSize c environ (SYS_execve ptrSize)
    match ← startImage env fuel around .externalSS environ with
    | some ⟨_, some connection, _⟩ => pure connection.client
    -- not reached, the array naming a socket that is connected
    | _ => throw .killed

/-- The handlers of one event after the other. -/
def runEvents (env : Env) (fuel : ℕ) (around : Surroundings ptrSize) :
    ExternalSS.Client → List (Event ptrSize) → Prog State ExternalSS.Client
  | c, [] => pure c
  | c, e :: evs => do
    let c ← onEvent env fuel around c e
    runEvents env fuel around c evs

/-! ### What the handler of an event does -/

/-- The array of an `execve` has a variable to carry the socket, and its path. -/
structure Inheritable (environ : Environ) : Prop where
  holdsFd : ExternalSS.HoldsFd environ
  socketPath : (environ.getenv DR_SS_ENV_SOCK).isSome = true

/-- What the handler of an event has done that returned: it has written the frame of the event, and
for a ret it then got a `Continue`. -/
inductive Handled (sock : ℤ) : Event ptrSize → List Effect → Prop
  | call (a : AppPc ptrSize) :
      Handled sock (.call a) [.write sock (ExternalSS.onCall a) (MESSAGE_SIZE ptrSize)]
  | ret {t : AppPc ptrSize} {buffer : List UInt8} :
      DrShadowStack.recvMsg Message.Continue ptrSize buffer = true →
      Handled sock (.ret t) [.write sock (ExternalSS.onRet t) (MESSAGE_SIZE ptrSize),
        .recv sock (MESSAGE_SIZE ptrSize) (some buffer)]
  | signal (after : ℕ → UInt8) :
      Handled sock .signal [.write sock (ExternalSS.onSignal ptrSize after) (MESSAGE_SIZE ptrSize)]
  | execve {environ : Environ} (after : ℕ → UInt8) : Inheritable environ →
      Handled sock (.execve environ)
        [.write sock (ExternalSS.execveMsg ptrSize after) (MESSAGE_SIZE ptrSize)]

/-- What the handlers of events have done that all returned. -/
inductive Exchanged (sock : ℤ) : List (Event ptrSize) → List Effect → Prop
  | nil : Exchanged sock [] []
  | cons {e : Event ptrSize} {evs : List (Event ptrSize)} {ys zs : List Effect} :
      Handled sock e ys → Exchanged sock evs zs → Exchanged sock (e :: evs) (ys ++ zs)

/-- How far the handler of an event has got that stopped: no further than its frame, and for a ret
the answer to the whole of it. -/
inductive Begun (sock : ℤ) (e : Event ptrSize) : List Effect → Prop
  | unsent : Begun sock e []
  | wrote (after : ℕ → UInt8) (ret : ℤ) : Begun sock e [.write sock (ExternalSS.frame after e) ret]
  | asked (after : ℕ → UInt8) (got : Option (List UInt8)) : e.isRet = true →
      Begun sock e [.write sock (ExternalSS.frame after e) (MESSAGE_SIZE ptrSize),
        .recv sock (MESSAGE_SIZE ptrSize) got]

/-- What stops the handler of an event in a process with nothing wrong in it: the answer to a ret,
the array of an `execve`, or the start of the image. -/
inductive Obstructed (around : Surroundings ptrSize) (sock : ℤ) : Event ptrSize → List Effect → Prop
  | answer {t : AppPc ptrSize} {got : Option (List UInt8)} :
      (∀ buffer ∈ got, DrShadowStack.recvMsg Message.Continue ptrSize buffer = false) →
      Obstructed around sock (.ret t) [.write sock (ExternalSS.onRet t) (MESSAGE_SIZE ptrSize),
        .recv sock (MESSAGE_SIZE ptrSize) got]
  | environ {environ : Environ} (after : ℕ → UInt8) : ¬Inheritable environ →
      Obstructed around sock (.execve environ)
        [.write sock (ExternalSS.execveMsg ptrSize after) (MESSAGE_SIZE ptrSize)]
  | start {environ : Environ} (after : ℕ → UInt8) (i : ℕ) :
      ((around.answers i).opens && (around.answers i).drmgrInit && (around.answers i).strdup) =
        false →
      Obstructed around sock (.execve environ)
        [.write sock (ExternalSS.execveMsg ptrSize after) (MESSAGE_SIZE ptrSize)]

/-- How the handler of the event `ev` stops that was called when the process had done `xs`. -/
structure EventStopped (env : Env) (fuel : ℕ) (around : Surroundings ptrSize) (sock : ℤ)
    (ev : Event ptrSize) (s : State) (xs : List Effect) (e : Stop) (t : State) : Prop where
  short : e = .outOfFuel → fuel < assertDepth
  did : ∃ ys, Did env s t (xs ++ ys) ∧ Begun sock ev ys ∧
    (Impaired env s t ∨ e = .outOfFuel ∨ Obstructed around sock ev ys)

/-- What a run of the handlers comes to. It returns with all events handled, one after the other. It
stops in one event, with all before it handled, for want of fuel only where there was too little for
an assertion; and if nothing failed, the event was obstructed. -/
def SendsOrStops (env : Env) (fuel : ℕ) (around : Surroundings ptrSize) (c : ExternalSS.Client)
    (evs : List (Event ptrSize)) (s : State) :
    EStateM.Result Stop State ExternalSS.Client → Prop
  | .ok c' t => c'.Ready ∧ c'.sock = c.sock ∧ ∃ ys, Did env s t ys ∧ Exchanged c.sock evs ys
  | .error e t => ∃ handled ev rest ys, evs = handled ++ ev :: rest ∧
    Exchanged c.sock handled ys ∧ EventStopped env fuel around c.sock ev s ys e t

open Server (received written received_append written_append received_write received_recv
  written_recv written_of_length)

section Effects

variable {sock : ℤ} {e : Event ptrSize} {evs : List (Event ptrSize)} {ys : List Effect}

/-- The frame of an event that was handled. -/
theorem Handled.written (h : Handled sock e ys) :
    ∃ after, Server.written sock ys = ExternalSS.frame after e := by
  cases h with
  | call a =>
    exact ⟨fun _ => 0,
      written_of_length (length_sendMsgWith Message.Call (LittleEndian.length_store a))⟩
  | @ret t buffer hvalid =>
    refine ⟨fun _ => 0, ?_⟩
    rw [← List.singleton_append, written_append, written_recv, List.append_nil]
    exact written_of_length (length_sendMsgWith Message.Ret (LittleEndian.length_store t))
  | signal after => exact ⟨after, written_of_length (length_sendMsg Message.NewSignal after)⟩
  | execve after henviron => exact ⟨after, written_of_length (length_sendMsg Message.Execve after)⟩

theorem Handled.length_received (h : Handled sock e ys) :
    (Server.received sock ys).length = if e.isRet then MESSAGE_SIZE ptrSize else 0 := by
  cases h with
  | call a => rfl
  | ret hvalid =>
    rw [← List.singleton_append, received_append, received_write, received_recv, List.nil_append]
    simp only [DrShadowStack.recvMsg, Bool.and_eq_true, beq_iff_eq] at hvalid
    exact hvalid.1
  | signal after => rfl
  | execve after henviron => rfl

/-- What was written carries the events. -/
theorem Exchanged.carries (h : Exchanged sock evs ys) : Carries (written sock ys) evs := by
  induction h with
  | nil => exact .nil
  | cons he _ ih =>
    obtain ⟨after, hwritten⟩ := he.written
    obtain ⟨frames, hbytes, rfl⟩ := ih
    refine ⟨(after, _) :: frames, ?_, rfl⟩
    rw [written_append, hwritten, hbytes]
    simp [ExternalServer.framesBytes]

/-- Every ret has got an answer. -/
theorem Exchanged.length_received (h : Exchanged sock evs ys) :
    (received sock ys).length = evs.countP Event.isRet * MESSAGE_SIZE ptrSize := by
  induction h with
  | nil => rw [List.countP_nil, Nat.zero_mul, received, List.flatMap_nil, List.length_nil]
  | @cons e _ _ _ he _ ih =>
    rw [received_append, List.length_append, he.length_received, ih, List.countP_cons]
    cases e.isRet <;> simp [Nat.add_mul, Nat.add_comm]

end Effects

/-! ### What a run of them does -/

section Runs

variable {env : Env} {fuel : ℕ} {around : Surroundings ptrSize} {c : ExternalSS.Client}
  {s : State} {xs : List Effect}

theorem EventStopped.of_halted {sock : ℤ} {ev : Event ptrSize} {e : Stop} {t : State}
    {ys : List Effect} (hdid : Did env s t (xs ++ ys)) (hbegun : Begun sock ev ys)
    (h : Halted env fuel s e t) : EventStopped env fuel around sock ev s xs e t :=
  ⟨h.1, ys, hdid, hbegun, h.2.imp_right .inl⟩

/-- A handler that stops before it has written anything. -/
theorem EventStopped.of_unsent {sock : ℤ} {ev : Event ptrSize} {e : Stop} {t : State}
    (h : Did env s t xs ∧ Halted env fuel s e t) :
    EventStopped env fuel around sock ev s xs e t :=
  .of_halted (by rw [List.append_nil]; exact h.1) .unsent h.2

/-- What only reports stops for want of fuel, or impaired. -/
theorem did_of_computes {m : Prog State Unit} (h : Computes env fuel m (some ())) :
    Triple (Did env s · xs) m (fun _ t => Did env s t xs) fun e t =>
      Did env s t xs ∧ Halted env fuel s e t := by
  refine (h s xs).conseq (fun _ ht => ht) (fun _ _ ht => ht.2) ?_
  rintro e t ⟨ht, hshort, hcause⟩
  refine ⟨ht, hshort, hcause.imp_right fun hfuel => hfuel.resolve_right ?_⟩
  exact Option.some_ne_none _

/-- A frame that is written in full. -/
theorem writeFrame_did {sock : ℤ} (hfd : ¬env.IsReportFd sock) {frame : List UInt8}
    (hlen : frame.length = MESSAGE_SIZE ptrSize) (msg : Option CString) :
    Triple (Did env s · xs)
      (do
        let bytesSent ← write env sock frame
        assert env fuel (bytesSent == MESSAGE_SIZE ptrSize) msg)
      (fun _ t => Did env s t (xs ++ [.write sock frame (MESSAGE_SIZE ptrSize)]))
      fun e t => (∃ ret, Did env s t (xs ++ [.write sock frame ret])) ∧ Halted env fuel s e t := by
  have hframe : ∀ ret, ¬(Effect.write sock frame ret).IsReport env :=
    fun ret hreport => hfd hreport.1
  refine .bind (write_records _ _) fun ret => assert_stops.conseq (fun _ ht => ht) ?_ ?_
  · rintro - t ⟨hret, u, hu, ht⟩
    obtain rfl := beq_iff_eq.mp hret
    exact hu.effect (hframe _) ht
  · rintro e t ⟨v, ⟨u, hu, hv⟩, ht, hshort, hcause⟩
    refine ⟨⟨ret, (hu.effect (hframe ret) hv).reports ht⟩, hshort, hcause.imp_left fun hfails => ?_⟩
    refine (hu.impaired hv ?_).mono ht
    rw [hlen]
    simpa using hfails

theorem sendMsg_did {sock : ℤ} (hfd : ¬env.IsReportFd sock) (T : MessageType true) :
    Triple (Did env s · xs) (sendMsg env fuel around.memory T ptrSize sock)
      (fun _ t => ∃ after, Did env s t (xs ++
        [.write sock (DrShadowStack.sendMsg T ptrSize after) (MESSAGE_SIZE ptrSize)]))
      fun e t => (∃ after ret, Did env s t (xs ++
        [.write sock (DrShadowStack.sendMsg T ptrSize after) ret])) ∧ Halted env fuel s e t := by
  refine .bind .read fun u => ?_
  exact (writeFrame_did hfd (length_sendMsg T _) _).conseq (fun _ ht => ht.2)
    (fun _ _ ht => ⟨_, ht⟩) fun _ _ hR => ⟨⟨_, hR.1⟩, hR.2⟩

/-- An answer that is received, and is a `Continue`. -/
theorem recvMsg_did (T : MessageType true) (sock : ℤ) :
    Triple (Did env s · xs) (recvMsg env fuel T ptrSize sock)
      (fun _ t => ∃ buffer, DrShadowStack.recvMsg T ptrSize buffer = true ∧
        Did env s t (xs ++ [.recv sock (MESSAGE_SIZE ptrSize) (some buffer)]))
      fun e t => (e = .outOfFuel → fuel < assertDepth) ∧ ∃ got,
        Did env s t (xs ++ [.recv sock (MESSAGE_SIZE ptrSize) got]) ∧
        (e = .outOfFuel ∨ ∀ buffer ∈ got, DrShadowStack.recvMsg T ptrSize buffer = false) := by
  refine .bind (Q := fun got t => Did env s t (xs ++ [.recv sock (MESSAGE_SIZE ptrSize) got]))
    (fun u hu => hu.effect (not_isReport_recv _ _ _) rfl) fun got => ?_
  refine .bind (assert_stops.mono ?_) fun _ => assert_stops.conseq (fun _ ht => ht) ?_ ?_
  · rintro e t ⟨u, hu, ht, hshort, hcause⟩
    refine ⟨hshort, got, hu.reports ht, hcause.symm.imp_right fun hfails buffer hbuffer => ?_⟩
    obtain rfl := Option.mem_def.mp hbuffer
    have hsize : (buffer.length == MESSAGE_SIZE ptrSize) = false := by simpa using hfails
    rw [DrShadowStack.recvMsg, hsize, Bool.false_and]
  · rintro - t ⟨hvalid, hsize, ht⟩
    cases got with
    | none => simp at hsize
    | some buffer =>
      have hlen : buffer.length = MESSAGE_SIZE ptrSize := by simpa using hsize
      exact ⟨buffer, by simpa [DrShadowStack.recvMsg, hlen] using hvalid, ht⟩
  · rintro e t ⟨u, ⟨-, hu⟩, ht, hshort, hcause⟩
    refine ⟨hshort, got, hu.reports ht, hcause.symm.imp_right fun hfails buffer hbuffer => ?_⟩
    obtain rfl := Option.mem_def.mp hbuffer
    rw [Option.getD_some] at hfails
    rw [DrShadowStack.recvMsg, hfails, Bool.and_false]

/-- The handler of a ret asks and gets its answer. -/
theorem onRet_did {sock : ℤ} (hfd : ¬env.IsReportFd sock) (targetAddr : AppPc ptrSize) :
    Triple (Did env s · xs) (onRet env fuel sock targetAddr)
      (fun _ t => ∃ ys, Did env s t (xs ++ ys) ∧ Handled sock (.ret targetAddr) ys)
      (EventStopped env fuel around sock (.ret targetAddr) s xs) := by
  have hlen := length_sendMsgWith Message.Ret (LittleEndian.length_store targetAddr)
  refine .bind ((did_of_computes (.verboseLog _)).mono fun _ _ => .of_unsent) fun _ =>
    .bind ((writeFrame_did hfd hlen _).mono ?_) fun _ =>
      (recvMsg_did Message.Continue sock).conseq (fun _ ht => ht) ?_ ?_
  · rintro e t ⟨⟨ret, ht⟩, hhalted⟩
    exact .of_halted ht (.wrote (fun _ => 0) ret) hhalted
  · rintro - t ⟨buffer, hvalid, ht⟩
    rw [List.append_assoc] at ht
    exact ⟨_, ht, .ret hvalid⟩
  · rintro e t ⟨hshort, got, ht, hcause⟩
    rw [List.append_assoc] at ht
    exact ⟨hshort, _, ht, .asked (fun _ => 0) got rfl, .inr (hcause.imp_right .answer)⟩

/-- An image whose setup finds a connected socket starts with it, where its other checks hold. -/
theorem started_of_reused {name : CString} {environ : Environ} {answers : StartAnswers} {sock : ℤ}
    (hreused : ExternalSS.setup environ answers.socket = some (⟨sock, environ⟩, .reused sock))
    {r : Option Started} :
    started [name, Module.externalSS.flag] environ answers = some r ↔
      ((environ.getenv DR_SS_ENV_SOCK).isSome = true ∧ answers.opens = true ∧
          answers.drmgrInit = true ∧ answers.strdup = true) ∧
        r = some ((setUp answers .externalSS (some ⟨⟨sock, environ⟩, none⟩)).register answers) := by
  rw [started_pair_eq_some_iff, Option.isSome_iff_exists]
  constructor
  · rintro ⟨socketPath, hsock, hanswers, r', hr', rfl⟩
    rw [Module.flag, startedMode_external, connection_of_reused hreused, Option.map_some] at hr'
    exact ⟨⟨⟨socketPath, hsock⟩, hanswers⟩, by rw [← Option.some.inj hr']; rfl⟩
  · rintro ⟨⟨⟨socketPath, hsock⟩, hanswers⟩, rfl⟩
    refine ⟨socketPath, hsock, hanswers,
      some (setUp answers .externalSS (some ⟨⟨sock, environ⟩, none⟩)), ?_, rfl⟩
    rw [Module.flag, startedMode_external, connection_of_reused hreused]
    rfl

/-- An `execve` hands the socket on, if the array has a variable to carry it. -/
theorem onExecve_did (hc : c.Ready) (hfd : ¬env.IsReportFd c.sock) (environ : Environ) :
    Triple (Did env s · xs) (onExecve env fuel around.memory ptrSize c environ)
      (fun environ' t => ExternalSS.HoldsFd environ ∧
        environ'.getenv DR_SS_ENV_SOCK = environ.getenv DR_SS_ENV_SOCK ∧
        (∀ answers, ExternalSS.setup environ' answers =
          some (⟨c.sock, environ'⟩, .reused c.sock)) ∧
        (⟨c.sock, environ'⟩ : ExternalSS.Client).Ready ∧
        ∃ after, Did env s t (xs ++
          [.write c.sock (ExternalSS.execveMsg ptrSize after) (MESSAGE_SIZE ptrSize)]))
      (EventStopped env fuel around c.sock (.execve environ) s xs) := by
  refine .bind ((sendMsg_did hfd Message.Execve).mono ?_) fun _ => ?_
  · rintro e t ⟨⟨after, ret, ht⟩, hhalted⟩
    exact .of_halted ht (.wrote after ret) hhalted
  cases hfind : ExternalSS.findFd environ with
  | none =>
    have hnone : ¬Inheritable environ := fun h =>
      ExternalSS.findFd_eq_none_iff.mp hfind h.holdsFd
    exact .stop fun t ⟨after, ht⟩ =>
      ⟨Stop.noConfusion, _, ht, .wrote after _, .inr (.inr (.environ after hnone))⟩
  | some next =>
    have hholds : ExternalSS.HoldsFd environ := by
      by_contra hnone
      rw [ExternalSS.findFd_eq_none_iff.mpr hnone] at hfind
      cases hfind
    obtain ⟨environ', honto, -, hsock, hready, hsetup⟩ := hc.execve hholds true
    simp only [ExternalSS.onExecve, hfind, hc.getenv_fd] at honto
    obtain rfl := ExternalSS.ExecveEnd.handedOn.inj honto
    simp only [hc.getenv_fd]
    refine .bind (assert_stops.mono ?_) fun _ => .bind (Q := fun _ t => ∃ after, Did env s t (xs ++
      [.write c.sock (ExternalSS.execveMsg ptrSize after) (MESSAGE_SIZE ptrSize)])) ?_ fun _ =>
        .ret fun t ht => ⟨hholds, hsock, hsetup, hready, ht⟩
    · rintro e t ⟨u, ⟨after, hu⟩, ht, hshort, hcause⟩
      refine .of_halted (hu.reports ht) (.wrote after _) ⟨hshort, .inr ?_⟩
      exact hcause.resolve_left Bool.noConfusion
    · rintro u ⟨-, after, hu⟩
      exact ((did_of_computes (.useStream : Computes env fuel _ _)).conseq (fun _ ht => ht)
        (fun _ _ ht => ⟨after, ht⟩) fun _ _ hR => .of_halted hR.1 (.wrote after _) hR.2) u hu

theorem preSyscall_execve (environ : Environ) :
    preSyscall env fuel around.memory ptrSize c environ (SYS_execve ptrSize) =
      onExecve env fuel around.memory ptrSize c environ := by
  have hfilter : ExternalSS.syscallFilter ptrSize (SYS_execve ptrSize) = true :=
    beq_self_eq_true _
  rw [preSyscall, if_pos hfilter, syscallEvent, if_pos rfl]

/-- The handler of an event does what it has to, and leaves a client of the same kind. -/
theorem onEvent_did (hc : c.Ready) (hfd : ¬env.IsReportFd c.sock) (ev : Event ptrSize) :
    Triple (Did env s · xs) (onEvent env fuel around c ev)
      (fun c' t => c'.Ready ∧ c'.sock = c.sock ∧ ∃ ys, Did env s t (xs ++ ys) ∧
        Handled c.sock ev ys)
      (EventStopped env fuel around c.sock ev s xs) := by
  cases ev with
  | call a =>
    have hlen := length_sendMsgWith Message.Call (LittleEndian.length_store a)
    refine .bind (.bind ((did_of_computes (.verboseLog _)).mono fun _ _ => .of_unsent) fun _ =>
      (writeFrame_did hfd hlen _).mono ?_) fun _ => .ret fun t ht => ⟨hc, rfl, _, ht, .call a⟩
    rintro e t ⟨⟨ret, ht⟩, hhalted⟩
    exact .of_halted ht (.wrote (fun _ => 0) ret) hhalted
  | ret a => exact .bind (onRet_did hfd a) fun _ => .ret fun t ht => ⟨hc, rfl, ht⟩
  | signal =>
    refine .bind ((did_of_computes (caughtSignal_computes around)).mono fun _ _ => .of_unsent)
      fun _ => .bind ((sendMsg_did hfd Message.NewSignal).mono ?_) fun _ =>
        .ret fun t ⟨after, ht⟩ => ⟨hc, rfl, _, ht, .signal after⟩
    rintro e t ⟨⟨after, ret, ht⟩, hhalted⟩
    exact .of_halted ht (.wrote after ret) hhalted
  | execve environ =>
    rw [onEvent, preSyscall_execve]
    refine .bind (onExecve_did hc hfd environ) fun environ' => ?_
    rintro u ⟨hholds, hsock, hsetup, hready, after, hu⟩
    refine (Triple.bind ((startImage_did around .externalSS environ').mono ?_) fun r =>
      .of_fact (fun _ ht => ht.1) ?_) u hu
    · rintro e t ⟨ht, hshort, hcause⟩
      refine ⟨hshort, _, ht, .wrote after _, hcause.imp_right (Or.imp_right ?_)⟩
      rintro ⟨i, hnone⟩
      by_cases hpath : (environ.getenv DR_SS_ENV_SOCK).isSome = true
      · refine .start after i (Bool.eq_false_iff.mpr fun hanswers => ?_)
        rw [Bool.and_eq_true, Bool.and_eq_true, and_assoc] at hanswers
        rw [(started_of_reused (hsetup _)).mpr ⟨⟨hsock ▸ hpath, hanswers⟩, rfl⟩] at hnone
        cases hnone
      · exact .environ after fun h => hpath h.socketPath
    · rintro ⟨i, hstarted⟩
      obtain ⟨⟨hpath, -⟩, rfl⟩ := (started_of_reused (hsetup _)).mp hstarted
      exact .ret fun t ht => ⟨hready, rfl, _, ht.2, .execve after ⟨hholds, hsock ▸ hpath⟩⟩

/-- The handlers of events do what they have to, up to one that stops. -/
theorem runEvents_did (hc : c.Ready) (hfd : ¬env.IsReportFd c.sock) (evs : List (Event ptrSize)) :
    Triple (Did env s · xs) (runEvents env fuel around c evs)
      (fun c' t => c'.Ready ∧ c'.sock = c.sock ∧ ∃ ys, Did env s t (xs ++ ys) ∧
        Exchanged c.sock evs ys)
      fun e t => ∃ handled ev rest ys, evs = handled ++ ev :: rest ∧
        Exchanged c.sock handled ys ∧
        EventStopped env fuel around c.sock ev s (xs ++ ys) e t := by
  induction evs generalizing c xs with
  | nil => exact .ret fun t ht => ⟨hc, rfl, [], by rwa [List.append_nil], .nil⟩
  | cons ev evs ih =>
    refine .bind ((onEvent_did hc hfd ev).mono ?_) fun c' => ?_
    · rintro e t hstopped
      exact ⟨[], ev, evs, [], rfl, .nil, by rwa [List.append_nil]⟩
    rintro u ⟨hc', hsock, ys, hu, hhandled⟩
    refine ((ih hc' (hsock ▸ hfd)).conseq (fun _ ht => ht) ?_ ?_) u hu
    · rintro c'' t ⟨hc'', hsock', zs, ht, hexchanged⟩
      rw [hsock] at hsock' hexchanged
      rw [List.append_assoc] at ht
      exact ⟨hc'', hsock', ys ++ zs, ht, .cons hhandled hexchanged⟩
    · rintro e t ⟨handled, ev', rest, zs, rfl, hexchanged, hstopped⟩
      rw [hsock] at hexchanged hstopped
      rw [List.append_assoc] at hstopped
      exact ⟨ev :: handled, ev', rest, ys ++ zs, rfl, .cons hhandled hexchanged, hstopped⟩

/-- **The client of external mode with all that can go wrong in it.** -/
theorem sendsOrStops (hc : c.Ready) (hfd : ¬env.IsReportFd c.sock) (evs : List (Event ptrSize))
    (s : State) :
    SendsOrStops env fuel around c evs s (runEvents env fuel around c evs s) := by
  have hevents := @runEvents_did ptrSize env fuel around c s [] hc hfd evs
  cases hrun : runEvents env fuel around c evs s with
  | ok c' t => exact hevents.returned (.refl env s) hrun
  | error e t => exact hevents.stopped (.refl env s) hrun

end Runs

end External

/-- A process whose writes are complete, and that is offered the `i`-th of these messages at its
`i`-th operation. -/
def offered (messages : List (List UInt8)) : Env where
  logFd := 4
  stdoutFd := 1
  errorFd := 2
  verbose := false
  unwinds := true
  write _ := some 100
  recv i := some (messages.getD i [])
  gettid _ := 0
  throws _ := false
  strerror _ := CString.lit "Success"

/-- A client that has connected on descriptor 3. -/
def connectedClient : ExternalSS.Client :=
  ⟨3, [Environ.entry DR_SS_ENV_FD (ExternalSS.sockStr 3)]⟩

/-- An image that starts, with every function registered. -/
def answersOfImage : StartAnswers where
  opens := true
  drmgrInit := true
  strdup := true
  drsymInit := true
  registerTlsField := 0
  registers _ := true
  socket := ⟨3, true, by decide⟩
  garbage := .zeros
  setenv := true

def noImages : Surroundings 8 where
  syms := noModule
  xfers _ := ⟨10, CString.empty, 0⟩
  memory _ _ := 0
  answers _ := answersOfImage
  name := CString.lit "client"

/-- The array of the `execve` is empty, so the run stops there. -/
theorem sendsOrStops_emptyEnviron :
    External.SendsOrStops (offered [[], [], Message.Continue.message 8]) 1 noImages connectedClient
      [.call (5 : AppPc 8), .ret 5, .execve []] forked
      (External.runEvents (offered [[], [], Message.Continue.message 8]) 1 noImages connectedClient
        [.call 5, .ret 5, .execve []] forked) :=
  External.sendsOrStops ⟨by decide, by decide⟩ (by decide) _ _

end DrShadowStack.Reporting
