import DrShadowStack.Common.CString
import DrShadowStack.Common.Decimal
import DrShadowStack.Common.Stops

/-!
# Logging, errors and termination (`utilities.hpp`, `utilities.cpp`, `group.cpp`)

The functions that report an error and end the process group call each other in two cycles:
`write_log` asserts that its write was complete, and prefixes the thread id, whose lookup may fail.
They are modelled with the outcome of every operation they perform left open (`Env`): the i-th
operation finds its outcome at `i`, so that an environment is one pattern of outcomes. The nesting
of the calls is bounded by fuel.

## Shape of the proof

`Spec` says of each function what it does to the state and which stops it may end in. The fuel it
takes is the fuel that `terminate` takes in the current state, `need`, plus a constant, and
`terminate` has set its flag before it calls anything. So the specs of one fuel give those of the
next (`Spec.succ`), and an induction on the fuel gives them all (`spec`).
-/

namespace DrShadowStack.Utilities

open Prog CString

/-- The characters that a stream holds. -/
abbrev Text := List UInt8

/-- The outcomes of the operations that the process performs, with what is fixed for the process:
the descriptors of the log, of stdout and of the error file, whether verbose logging is compiled in,
and whether an exception finds a handler, so that the stack is unwound. -/
structure Env where
  logFd : ℤ
  stdoutFd : ℤ
  errorFd : ℤ
  verbose : Bool
  unwinds : Bool
  /-- How many bytes a `write` takes at most; `none` when it fails. -/
  write : ℕ → Option ℕ
  /-- The bytes a `recv` has to offer; `none` when it fails. -/
  recv : ℕ → Option (List UInt8)
  /-- What `SYS_gettid` returns. -/
  gettid : ℕ → ℤ
  /-- Whether using a stream throws. -/
  throws : ℕ → Bool
  /-- The text for the current `errno`. -/
  strerror : ℕ → CString

/-- What a process has done: its transfers, and entering the part of `terminate` behind its
guard. -/
inductive Effect
  | write (fd : ℤ) (bytes : List UInt8) (ret : ℤ)
  | recv (fd : ℤ) (size : ℕ) (got : Option (List UInt8))
  | terminating
deriving DecidableEq

/-- The static data of the process, the number of operations performed, and what it has done. -/
structure State where
  isMultiThreadOrProccess : Bool
  terminateAlreadyCalled : Bool
  clock : ℕ
  trace : List Effect

/-- A known invalid file descriptor. -/
def invalidFd : ℤ := -2

/-- What a stream prints of a `void *`: hexadecimal digits behind `0x`, or a single 0. -/
def pointer {n : ℕ} (a : BitVec n) : Text :=
  if a = 0 then bytesOf "0" else bytesOf "0x" ++ (Nat.digits 16 a.toNat).reverse.map hexDigit
where
  hexDigit (d : ℕ) : UInt8 := UInt8.ofNat (if d < 10 then 48 + d else 87 + d)

/-! ## Operations -/

/-- The outcome of the next operation. -/
def nextOutcome {α : Type} (outcomes : ℕ → α) : Prog State α := fun s =>
  .ok (outcomes s.clock) { s with clock := s.clock + 1 }

/-- Note what was done. -/
def record (e : Effect) : Prog State Unit := modify fun s => { s with trace := s.trace ++ [e] }

/-- Use a stream, which may throw. -/
def useStream (env : Env) : Prog State Unit := do
  let throws ← nextOutcome env.throws
  whenever throws (throw (if env.unwinds then .threw else .aborted))

/-- The system call `write`: it fails, or it writes a prefix of the bytes. -/
def write (env : Env) (fd : ℤ) (bytes : List UInt8) : Prog State ℤ := do
  let outcome ← nextOutcome env.write
  let ret : ℤ := match outcome with
    | none => -1
    | some n => (min n bytes.length : ℕ)
  record (.write fd bytes ret)
  pure ret

/-- The system call `recv` with `MSG_WAITALL`: it fails, or it returns up to `size` bytes. -/
def recv (env : Env) (fd : ℤ) (size : ℕ) : Prog State (Option (List UInt8)) := do
  let outcome ← nextOutcome env.recv
  let got := outcome.map (List.take size)
  record (.recv fd size got)
  pure got

/-- `killpg( 0, SIGKILL )`, and a loop to wait for death. -/
def kill9Group : Prog State Unit := throw .killed

/-! ## The functions -/

/-- The message of `~TerminateOnDestruction`. -/
def destructorCalled : CString := CString.lit "TerminateOnDestruction destructor called"

mutual

/-- Writes `args` to `fd` unless it is invalid, with the TID first if the process is multithreaded
or has forked. -/
def writeLog (env : Env) : ℕ → ℤ → Text → Prog State Unit
  | 0, _, _ => throw .outOfFuel
  | fuel + 1, fd, args => whenever (fd ≠ invalidFd) do
    useStream env
    let s ← get
    let stream ← (if s.isMultiThreadOrProccess then do
        let tid ← getTid env fuel
        pure (Decimal.toString tid ++ bytesOf ": ")
      else pure [] : Prog State Text)
    useStream env
    let str := stream ++ args ++ bytesOf "\n"
    let ret ← write env fd str
    -- the message is null to prevent a loop
    assert env fuel (ret == str.length) none

/-- Prints the arguments to the log and error files. -/
def logError (env : Env) : ℕ → Text → Prog State Unit
  | 0, _ => throw .outOfFuel
  | fuel + 1, args => do
    writeLog env fuel env.logFd args
    writeLog env fuel env.errorFd args

/-- Prints the arguments to the log file and stdout. -/
def message (env : Env) : ℕ → Text → Prog State Unit
  | 0, _ => throw .outOfFuel
  | fuel + 1, args => do
    writeLog env fuel env.logFd args
    writeLog env fuel env.stdoutFd args

/-- Error logs `s` unless it is null, then kills the process group. -/
def err (env : Env) : ℕ → Option CString → Prog State Unit
  | 0, _ => throw .outOfFuel
  | fuel + 1, s => onDestroy (terminate env fuel (some destructorCalled) true) do
    ifNonNull s fun s => do
      let reason ← nextOutcome env.strerror
      logError env fuel (s.chars ++ bytesOf "\nMessage from strerror: " ++ reason.chars)
    terminate env fuel none true

/-- Assert `b`, if false call `err( s )`. -/
def assert (env : Env) : ℕ → Bool → Option CString → Prog State Unit
  | 0, _, _ => throw .outOfFuel
  | fuel + 1, b, s => whenever (b = false) (err env fuel s)

/-- The thread id. On failure, disables the multithreaded functionality to continue logging, then
terminates the group. -/
def getTid (env : Env) : ℕ → Prog State ℤ
  | 0 => throw .outOfFuel
  | fuel + 1 => do
    let ret ← nextOutcome env.gettid
    whenever (ret = -1) do
      -- or logging the failure would ask for the thread id again
      modify fun s => { s with isMultiThreadOrProccess := false }
      terminate env fuel (some (CString.lit "get_tid() failed.")) true
    pure ret

/-- `Group::terminate`: prints `msg` unless it is null, then kills the process group; at once if it
was called before. (`fflush` has nothing of ours to flush.) -/
def terminate (env : Env) : ℕ → Option CString → Bool → Prog State Unit
  | 0, _, _ => throw .outOfFuel
  | fuel + 1, msg, isError => do
    let s ← get
    -- a second call is one from within the first
    whenever s.terminateAlreadyCalled kill9Group
    modify fun s => { s with terminateAlreadyCalled := true }
    record .terminating
    onDestroy (terminate env fuel (some destructorCalled) true) do
      ifNonNull msg fun msg =>
        if isError then logError env fuel msg.chars else message env fuel msg.chars
      kill9Group

end

/-- The scope of a `TerminateOnDestruction`. -/
def terminateOnDestruction {α : Type} (env : Env) (fuel : ℕ) (m : Prog State α) : Prog State α :=
  onDestroy (terminate env fuel (some destructorCalled) true) m

/-- Logs the arguments to the log file. -/
def log (env : Env) (fuel : ℕ) (args : Text) : Prog State Unit := writeLog env fuel env.logFd args

/-- Logs the arguments if verbose logging is compiled in. -/
def verboseLog (env : Env) (fuel : ℕ) (args : Text) : Prog State Unit :=
  whenever env.verbose (log env fuel args)

/-! ## What reporting does -/

/-- The descriptor is one that reports go to. -/
def Env.IsReportFd (env : Env) (fd : ℤ) : Prop :=
  fd = env.logFd ∨ fd = env.stdoutFd ∨ fd = env.errorFd

/-- The process wrote a line to one of the files of the reports, or entered `terminate`. -/
def Effect.IsReport (env : Env) : Effect → Prop
  | .write fd bytes _ => env.IsReportFd fd ∧ bytes.getLast? = some 10
  | .recv _ _ _ => False
  | .terminating => True

/-- From `s` to `t` nothing was done but report, and the part of `terminate` behind its guard was
entered exactly if its flag was set. -/
def Reports (env : Env) (s t : State) : Prop :=
  ∃ new, t.trace = s.trace ++ new ∧ (∀ e ∈ new, e.IsReport env) ∧
    new.count .terminating + s.terminateAlreadyCalled.toNat = t.terminateAlreadyCalled.toNat

/-- The fuel that `terminate` takes: its guard stops it once the flag is set; before, it prints a
message that may fail in every way. -/
def need (s : State) : ℕ := if s.terminateAlreadyCalled then 1 else 6

/-- What a function keeps: since `s₀` the process has only reported, and `terminate` takes no more
fuel than `k`. -/
def Inv (env : Env) (s₀ : State) (k : ℕ) (s : State) : Prop := Reports env s₀ s ∧ need s ≤ k

/-- The stops that may be: the fuel runs out only where it is `short`, and exceptions are only those
of streams. -/
def Allowed (env : Env) (short : Prop) : Stop → Prop
  | .killed => True
  | .outOfFuel => short
  | .threw => ∃ i, env.throws i = true
  | .aborted => ∃ i, env.throws i = true

/-- How a function stops. -/
def Stopped (env : Env) (s₀ : State) (k : ℕ) (short : Prop) (e : Stop) (s : State) : Prop :=
  Inv env s₀ k s ∧ Allowed env short e

/-- The fuel that `err` takes on top of what `terminate` does. -/
def errDepth : Option CString → ℕ
  | none => 1
  | some _ => 5

/-- The specs of the functions at one fuel. -/
structure Spec (env : Env) (fuel : ℕ) : Prop where
  writeLog : ∀ s₀ k fd args, env.IsReportFd fd →
    Triple (Inv env s₀ k) (writeLog env fuel fd args) (fun _ => Inv env s₀ k)
      (Stopped env s₀ k (fuel < k + 3))
  logError : ∀ s₀ k args,
    Triple (Inv env s₀ k) (logError env fuel args) (fun _ => Inv env s₀ k)
      (Stopped env s₀ k (fuel < k + 4))
  message : ∀ s₀ k args,
    Triple (Inv env s₀ k) (message env fuel args) (fun _ => Inv env s₀ k)
      (Stopped env s₀ k (fuel < k + 4))
  err : ∀ s₀ k s,
    Triple (Inv env s₀ k) (err env fuel s) (fun _ _ => False)
      (Stopped env s₀ k (fuel < k + errDepth s))
  assert : ∀ s₀ k b s,
    Triple (Inv env s₀ k) (assert env fuel b s) (fun _ t => b = true ∧ Inv env s₀ k t)
      (Stopped env s₀ k (fuel < k + (errDepth s + 1)))
  getTid : ∀ s₀ k,
    Triple (Inv env s₀ k) (getTid env fuel) (fun _ => Inv env s₀ k)
      (Stopped env s₀ k (fuel < k + 1))
  terminate : ∀ s₀ k msg isError,
    Triple (Inv env s₀ k) (terminate env fuel msg isError) (fun _ _ => False)
      (Stopped env s₀ k (fuel < k))

section Reports

variable {env : Env} {s₀ s t : State} {k : ℕ} {short short' : Prop}

theorem Reports.refl (env : Env) (s : State) : Reports env s s := ⟨[], by simp, by simp, by simp⟩

theorem Reports.trans {u : State} (h : Reports env s t) (h' : Reports env t u) :
    Reports env s u := by
  obtain ⟨new, htrace, hnew, hcount⟩ := h
  obtain ⟨new', htrace', hnew', hcount'⟩ := h'
  refine ⟨new ++ new', by rw [htrace', htrace, List.append_assoc], ?_, ?_⟩
  · intro e he
    rcases List.mem_append.mp he with he | he
    · exact hnew e he
    · exact hnew' e he
  · rw [List.count_append]
    omega

/-- A step that leaves the flag and the trace alone reports nothing. -/
theorem Reports.of_eq (htrace : t.trace = s.trace)
    (hcalled : t.terminateAlreadyCalled = s.terminateAlreadyCalled) : Reports env s t :=
  ⟨[], by simpa using htrace, by simp, by simp [hcalled]⟩

theorem need_pos (s : State) : 0 < need s := by
  unfold need
  split <;> omega

theorem need_le (s : State) : need s ≤ 6 := by
  unfold need
  split <;> omega

theorem Inv.initial (env : Env) (s : State) : Inv env s 6 s := ⟨.refl env s, need_le s⟩

theorem Inv.pos (h : Inv env s₀ k s) : 0 < k := Nat.lt_of_lt_of_le (need_pos s) h.2

theorem Inv.step (h : Inv env s₀ k s) (hst : Reports env s t)
    (hcalled : t.terminateAlreadyCalled = s.terminateAlreadyCalled) : Inv env s₀ k t :=
  ⟨h.1.trans hst, by rw [need, hcalled]; exact h.2⟩

/-- Once the flag is set, `terminate` takes no more fuel than its guard. -/
theorem Inv.enter (h : Inv env s₀ k s) (hcalled : s.terminateAlreadyCalled = false)
    (htrace : t.trace = s.trace ++ [.terminating]) (ht : t.terminateAlreadyCalled = true) :
    Inv env s₀ 1 t := by
  refine ⟨h.1.trans ⟨[.terminating], htrace, ?_, ?_⟩, by simp [need, ht]⟩
  · intro e he
    rw [List.mem_singleton.mp he]
    trivial
  · simp [hcalled, ht]

theorem Inv.mono {k' : ℕ} (h : Inv env s₀ k s) (hk : k ≤ k') : Inv env s₀ k' s :=
  ⟨h.1, h.2.trans hk⟩

theorem Allowed.mono (h : short → short') {e : Stop} (he : Allowed env short e) :
    Allowed env short' e := by
  cases e with
  | outOfFuel => exact h he
  | _ => exact he

theorem Stopped.mono {k' : ℕ} (hk : k ≤ k') (h : short → short') {e : Stop}
    (he : Stopped env s₀ k short e s) : Stopped env s₀ k' short' e s :=
  ⟨he.1.mono hk, he.2.mono h⟩

theorem Stopped.leaveDestructor {e : Stop} (he : Stopped env s₀ k short e s) :
    Stopped env s₀ k short e.leaveDestructor s := by
  refine ⟨he.1, ?_⟩
  cases e with
  | threw => exact he.2
  | _ => exact he.2

end Reports

/-! ## The operations -/

section Operations

variable {env : Env} {s₀ : State} {k : ℕ} {short : Prop} {R : Stop → State → Prop}

theorem nextOutcome_spec {α : Type} (outcomes : ℕ → α) :
    Triple (Inv env s₀ k) (nextOutcome outcomes) (fun _ => Inv env s₀ k) R :=
  fun _ hs => hs.step (.of_eq rfl rfl) rfl

theorem record_spec {e : Effect} (he : e.IsReport env) (hne : e ≠ .terminating) :
    Triple (Inv env s₀ k) (record e) (fun _ => Inv env s₀ k) R := by
  refine .update fun s hs => hs.step ⟨[e], rfl, ?_, ?_⟩ rfl
  · intro e' he'
    rwa [List.mem_singleton.mp he']
  · simp [hne]

theorem useStream_spec :
    Triple (Inv env s₀ k) (useStream env) (fun _ => Inv env s₀ k) (Stopped env s₀ k short) := by
  have hthrows : Triple (Inv env s₀ k) (nextOutcome env.throws)
      (fun throws s => (∃ i, env.throws i = throws) ∧ Inv env s₀ k s) (Stopped env s₀ k short) :=
    fun s hs => ⟨⟨s.clock, rfl⟩, nextOutcome_spec (R := fun _ _ => True) env.throws s hs⟩
  refine .bind hthrows fun throws => ?_
  refine .whenever (fun hc => .stop fun s hs => ⟨hs.2, ?_⟩) fun _ s hs => hs.2
  obtain ⟨i, rfl⟩ := hs.1
  split <;> exact ⟨i, hc⟩

theorem write_spec {fd : ℤ} {bytes : List UInt8} (hfd : env.IsReportFd fd)
    (hline : bytes.getLast? = some 10) :
    Triple (Inv env s₀ k) (write env fd bytes) (fun _ => Inv env s₀ k) R := by
  refine .bind (nextOutcome_spec env.write) fun outcome => ?_
  exact .bind (record_spec ⟨hfd, hline⟩ Effect.noConfusion) fun _ => .ret fun _ hs => hs

end Operations

/-! ## The functions, from one fuel to the next -/

namespace Spec

variable {env : Env} {fuel : ℕ}

/-- Without fuel a function stops, and the fuel was short. -/
theorem outOfFuel {α : Type} {s₀ : State} {k c : ℕ} {Q : α → State → Prop} :
    Triple (Inv env s₀ k) (throw .outOfFuel) Q (Stopped env s₀ k (0 < k + c)) :=
  .stop fun _ hs => ⟨hs, Nat.lt_of_lt_of_le hs.pos (Nat.le_add_right _ _)⟩

theorem zero (env : Env) : Spec env 0 where
  writeLog _ _ _ _ _ := outOfFuel
  logError _ _ _ := outOfFuel
  message _ _ _ := outOfFuel
  err _ _ _ := outOfFuel
  assert _ _ _ _ := outOfFuel
  getTid _ _ := outOfFuel
  terminate _ _ _ _ := outOfFuel (c := 0)

variable (h : Spec env fuel) (s₀ : State) (k : ℕ)

include h

theorem writeLog_succ {fd : ℤ} (args : Text) (hfd : env.IsReportFd fd) :
    Triple (Inv env s₀ k) (Utilities.writeLog env (fuel + 1) fd args) (fun _ => Inv env s₀ k)
      (Stopped env s₀ k (fuel + 1 < k + 3)) := by
  rw [Utilities.writeLog]
  refine .whenever (fun _ => ?_) fun _ _ hs => hs
  refine .bind useStream_spec fun _ => ?_
  refine .bind .read fun s => ?_
  refine .bind (Q := fun _ => Inv env s₀ k) ?_ fun stream => ?_
  · split
    · refine .bind (Q := fun _ => Inv env s₀ k) ?_ fun _ => .ret fun _ hs => hs
      exact (h.getTid s₀ k).conseq (fun _ hs => hs.2) (fun _ _ hs => hs) fun _ _ he =>
        he.mono le_rfl (by omega)
    · exact .ret fun _ hs => hs.2
  refine .bind useStream_spec fun _ => ?_
  refine .bind (write_spec hfd (by simp [bytesOf])) fun ret => ?_
  exact (h.assert s₀ k _ none).conseq (fun _ hs => hs) (fun _ _ hs => hs.2) fun _ _ he =>
    he.mono le_rfl (by simp only [errDepth]; omega)

/-- A line to each of two files. -/
theorem twoFiles {fd fd' : ℤ} (args : Text) (hfd : env.IsReportFd fd) (hfd' : env.IsReportFd fd') :
    Triple (Inv env s₀ k)
      (do
        Utilities.writeLog env fuel fd args
        Utilities.writeLog env fuel fd' args)
      (fun _ => Inv env s₀ k) (Stopped env s₀ k (fuel + 1 < k + 4)) := by
  have hline : ∀ {fd}, env.IsReportFd fd →
      Triple (Inv env s₀ k) (Utilities.writeLog env fuel fd args) (fun _ => Inv env s₀ k)
        (Stopped env s₀ k (fuel + 1 < k + 4)) := fun hfd =>
    (h.writeLog s₀ k _ args hfd).mono fun _ _ he => he.mono le_rfl (by omega)
  exact .bind (hline hfd) fun _ => hline hfd'

theorem logError_succ (args : Text) :
    Triple (Inv env s₀ k) (Utilities.logError env (fuel + 1) args) (fun _ => Inv env s₀ k)
      (Stopped env s₀ k (fuel + 1 < k + 4)) := by
  rw [Utilities.logError]
  exact h.twoFiles s₀ k args (.inl rfl) (.inr (.inr rfl))

theorem message_succ (args : Text) :
    Triple (Inv env s₀ k) (Utilities.message env (fuel + 1) args) (fun _ => Inv env s₀ k)
      (Stopped env s₀ k (fuel + 1 < k + 4)) := by
  rw [Utilities.message]
  exact h.twoFiles s₀ k args (.inl rfl) (.inr (.inl rfl))

/-- The scope of a `TerminateOnDestruction` is not left. -/
theorem terminateOnDestruction {α : Type} {P : State → Prop} {Q : α → State → Prop} {c : ℕ}
    {m : Prog State α}
    (hm : Triple P m (fun _ => Inv env s₀ k) (Stopped env s₀ k (fuel < k + c))) :
    Triple P (onDestroy (Utilities.terminate env fuel (some destructorCalled) true) m) Q
      (Stopped env s₀ k (fuel < k + c)) := by
  refine .onDestroy (I := Inv env s₀ k) (hm.mono fun _ _ he => ⟨he.1, he⟩) ?_
  exact (h.terminate s₀ k _ _).mono fun _ _ he => he.leaveDestructor.mono le_rfl (by omega)

theorem err_succ (s : Option CString) :
    Triple (Inv env s₀ k) (Utilities.err env (fuel + 1) s) (fun _ _ => False)
      (Stopped env s₀ k (fuel + 1 < k + errDepth s)) := by
  rw [Utilities.err]
  have hbody : Triple (Inv env s₀ k)
      (do
        ifNonNull s fun s => do
          let reason ← nextOutcome env.strerror
          Utilities.logError env fuel
            (s.chars ++ bytesOf "\nMessage from strerror: " ++ reason.chars)
        Utilities.terminate env fuel none true)
      (fun _ _ => False) (Stopped env s₀ k (fuel < k + (errDepth s - 1))) := by
    refine .bind (Q := fun _ => Inv env s₀ k) ?_ fun _ => ?_
    · refine .ifNonNull (fun b hb => ?_) fun _ _ hs => hs
      refine .bind (nextOutcome_spec _) fun reason => ?_
      refine (h.logError s₀ k _).mono fun _ _ he => he.mono le_rfl ?_
      simp only [hb, errDepth]
      omega
    · exact (h.terminate s₀ k _ _).mono fun _ _ he => he.mono le_rfl (by omega)
  refine (h.terminateOnDestruction s₀ k (hbody.conseq (fun _ hs => hs) (fun _ _ hs => hs.elim)
    fun _ _ he => he)).mono fun _ _ he => he.mono le_rfl ?_
  cases s <;> simp only [errDepth] <;> omega

theorem assert_succ (b : Bool) (s : Option CString) :
    Triple (Inv env s₀ k) (Utilities.assert env (fuel + 1) b s)
      (fun _ t => b = true ∧ Inv env s₀ k t)
      (Stopped env s₀ k (fuel + 1 < k + (errDepth s + 1))) := by
  rw [Utilities.assert]
  refine .whenever (fun _ => ?_) fun hb t ht => ⟨by simpa using hb, ht⟩
  exact (h.err s₀ k s).conseq (fun _ hs => hs) (fun _ _ hs => hs.elim) fun _ _ he =>
    he.mono le_rfl (by omega)

theorem getTid_succ :
    Triple (Inv env s₀ k) (Utilities.getTid env (fuel + 1)) (fun _ => Inv env s₀ k)
      (Stopped env s₀ k (fuel + 1 < k + 1)) := by
  rw [Utilities.getTid]
  refine .bind (nextOutcome_spec env.gettid) fun ret => ?_
  refine .bind (Q := fun _ => Inv env s₀ k) ?_ fun _ => .ret fun _ hs => hs
  refine .whenever (fun _ => ?_) fun _ _ hs => hs
  refine .bind (Q := fun _ => Inv env s₀ k) ?_ fun _ => ?_
  · exact .update fun s hs => hs.step (.of_eq rfl rfl) rfl
  · exact (h.terminate s₀ k _ _).conseq (fun _ hs => hs) (fun _ _ hs => hs.elim) fun _ _ he =>
      he.mono le_rfl (by omega)

/-- Behind its guard `terminate` has set the flag, so what it calls takes no more fuel than that. -/
theorem terminate_succ (msg : Option CString) (isError : Bool) :
    Triple (Inv env s₀ k) (Utilities.terminate env (fuel + 1) msg isError) (fun _ _ => False)
      (Stopped env s₀ k (fuel + 1 < k)) := by
  rw [Utilities.terminate]
  refine .bind .read fun s => ?_
  refine .bind (Q := fun _ t => t.terminateAlreadyCalled = false ∧ Inv env s₀ k t) ?_ fun _ => ?_
  · refine .whenever (fun _ => .stop fun t ht => ⟨ht.2, trivial⟩) fun hcalled t ht => ?_
    exact ⟨by rw [← ht.1]; simpa using hcalled, ht.2⟩
  -- the flag was not set, so the fuel for a message is there
  refine .of_fact (A := 6 ≤ k) (fun t ht => by simpa [need, ht.1] using ht.2.2) fun hk => ?_
  refine .bind (Q := fun _ t => ∃ u, u.terminateAlreadyCalled = false ∧ Inv env s₀ k u ∧
    t = { u with terminateAlreadyCalled := true }) (.update fun u hu => ⟨u, hu.1, hu.2, rfl⟩)
    fun _ => ?_
  refine .bind (Q := fun _ => Inv env s₀ 1) (.update fun t ht => ?_) fun _ => ?_
  · obtain ⟨u, hcalled, hu, rfl⟩ := ht
    exact hu.enter hcalled rfl rfl
  have hbody : Triple (Inv env s₀ 1)
      (do
        ifNonNull msg fun msg =>
          if isError then Utilities.logError env fuel msg.chars
          else Utilities.message env fuel msg.chars
        kill9Group)
      (fun _ => Inv env s₀ 1) (Stopped env s₀ 1 (fuel < 1 + 4)) := by
    refine .bind (Q := fun _ => Inv env s₀ 1) (.ifNonNull (fun b _ => ?_) fun _ _ hs => hs)
      fun _ => .stop fun _ hs => ⟨hs, trivial⟩
    split
    · exact h.logError s₀ 1 _
    · exact h.message s₀ 1 _
  exact (h.terminateOnDestruction s₀ 1 hbody).mono fun _ _ he => he.mono (by omega) (by omega)

theorem succ : Spec env (fuel + 1) where
  writeLog s₀ k _ args hfd := h.writeLog_succ s₀ k args hfd
  logError := h.logError_succ
  message := h.message_succ
  err := h.err_succ
  assert := h.assert_succ
  getTid := h.getTid_succ
  terminate := h.terminate_succ

end Spec

/-- **The functions meet their specs** at every fuel. -/
theorem spec (env : Env) (fuel : ℕ) : Spec env fuel := by
  induction fuel with
  | zero => exact .zero env
  | succ fuel ih => exact ih.succ

section Specs

variable {env : Env} {fuel k : ℕ} {s₀ s t : State}

theorem verboseLog_spec (args : Text) :
    Triple (Inv env s₀ k) (verboseLog env fuel args) (fun _ => Inv env s₀ k)
      (Stopped env s₀ k (fuel < k + 4)) := by
  refine .whenever (fun _ => ?_) fun _ _ hs => hs
  exact ((spec env fuel).writeLog s₀ k _ args (.inl rfl)).mono fun _ _ he =>
    he.mono le_rfl (by omega)

/-- What follows a call of `terminate` is not reached. -/
theorem terminate_spec (msg : Option CString) (isError : Bool) {Q : Unit → State → Prop} :
    Triple (Inv env s₀ k) (terminate env fuel msg isError) Q
      (Stopped env s₀ k (fuel < k + 4)) :=
  ((spec env fuel).terminate s₀ k msg isError).conseq (fun _ hs => hs) (fun _ _ hs => hs.elim)
    fun _ _ he => he.mono le_rfl (by omega)

/-- A scope that ends in `terminate` is not left, however the reports in it end. -/
theorem terminateOnDestruction_spec {α : Type} {m : Prog State α} {c : ℕ}
    (hm : Triple (Inv env s₀ k) m (fun _ => Inv env s₀ k) (Stopped env s₀ k (fuel < k + c))) :
    Triple (Inv env s₀ k) (terminateOnDestruction env fuel m) (fun _ _ => False)
      (Stopped env s₀ k (fuel < k + c)) :=
  (spec env fuel).terminateOnDestruction s₀ k hm

/-- Without verbose logging nothing is logged. -/
theorem verboseLog_quiet (h : env.verbose = false) (args : Text) :
    verboseLog env fuel args = pure () :=
  whenever_neg (by simp [h]) _

/-- An assertion that returns held, and did nothing. -/
theorem assert_spec {P : State → Prop} {b : Bool} {msg : Option CString} :
    Triple P (assert env fuel b msg) (fun _ t => b = true ∧ P t) fun _ _ => True := by
  intro s hs
  cases hrun : assert env fuel b msg s with
  | error e t => trivial
  | ok _ t =>
    have hb : b = true := (((spec env fuel).assert s 6 b msg).returned (.initial env s) hrun).1
    refine ⟨hb, ?_⟩
    cases fuel with
    | zero => cases hrun
    | succ fuel =>
      rw [assert, whenever_neg (by simp [hb])] at hrun
      obtain rfl := (EStateM.Result.ok.inj hrun).2
      exact hs

theorem assert_true (msg : Option CString) (s : State) :
    assert env (fuel + 1) true msg s = .ok () s := by
  rw [assert, whenever_neg (by simp)]
  rfl

/-- A transfer is recorded with its result. -/
theorem write_records {P : State → Prop} {R : Stop → State → Prop} (fd : ℤ) (bytes : List UInt8) :
    Triple P (write env fd bytes)
      (fun ret t => ∃ u, P u ∧ t.trace = u.trace ++ [.write fd bytes ret]) R :=
  fun s hs => ⟨s, hs, rfl⟩

@[inherit_doc write_records]
theorem recv_records {P : State → Prop} {R : Stop → State → Prop} (fd : ℤ) (size : ℕ) :
    Triple P (recv env fd size)
      (fun got t => ∃ u, P u ∧ t.trace = u.trace ++ [.recv fd size got]) R :=
  fun s hs => ⟨s, hs, rfl⟩

/-- A `write` that takes all bytes returns their number. -/
theorem write_of_le {n : ℕ} {bytes : List UInt8} (h : env.write s.clock = some n)
    (hn : bytes.length ≤ n) (fd : ℤ) :
    ∃ u, write env fd bytes s = .ok bytes.length u ∧ u.clock = s.clock + 1 ∧
      u.trace = s.trace ++ [.write fd bytes bytes.length] := by
  have hret : (match env.write s.clock with
      | none => -1
      | some n => (min n bytes.length : ℕ) : ℤ) = bytes.length := by
    simp [h, hn]
  exact ⟨{ s with clock := s.clock + 1, trace := s.trace ++ [.write fd bytes bytes.length] },
    by simp only [← hret]; rfl, rfl, rfl⟩

/-- A `recv` returns what there is, up to its size. -/
theorem recv_of_some {bytes : List UInt8} (h : env.recv s.clock = some bytes) (fd : ℤ) (size : ℕ) :
    ∃ u, recv env fd size s = .ok (some (bytes.take size)) u := by
  have hgot : (env.recv s.clock).map (List.take size) = some (bytes.take size) := by simp [h]
  exact ⟨_, by rw [← hgot]; rfl⟩

end Specs

end DrShadowStack.Utilities
