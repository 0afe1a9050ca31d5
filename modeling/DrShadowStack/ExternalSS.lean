import DrShadowStack.Common.Decimal
import DrShadowStack.Message
import DrShadowStack.ShadowStack

/-!
# External mode: the client (`dr_external_ss_events.cpp`)

The handlers write one frame for every event, on the descriptor that the static `sock` of the image
holds. `execve` ends an image, and its successor has no more than its environment to learn the
descriptor from: `on_execve` writes it into the environment array of the call, `ExternalSS::setup`
of the next image reads it from there.

## Shape of the proof

The scan of `on_execve` stops at the first entry that begins with `DR_SS_ENV_FD`
(`findFd_eq_some_iff`), so the rewritten entry is the first of its variable and `getenv` returns the
new value (`getenv_set`). A client whose environment holds its own descriptor (`Client.Ready`) hands
it on to a client of the same kind (`Client.Ready.execve`).
-/

namespace DrShadowStack.ExternalSS

variable {ptrSize : ℕ}

/-- What an image keeps: the socket to be used by the client and the environment of its libc. -/
structure Client where
  sock : ℤ
  environ : Environ

/-- The bytes that the call handler writes. -/
def onCall (retToAddr : AppPc ptrSize) : List UInt8 :=
  sendMsgWith Message.Call ptrSize (LittleEndian.store retToAddr)

/-- The bytes that the ret handler writes, before it waits for `Continue`. -/
def onRet (targetAddr : AppPc ptrSize) : List UInt8 :=
  sendMsgWith Message.Ret ptrSize (LittleEndian.store targetAddr)

/-- The bytes that the signal handler writes. -/
def onSignal (ptrSize : ℕ) (after : ℕ → UInt8) : List UInt8 :=
  sendMsg Message.NewSignal ptrSize after

/-- The execve message. -/
def execveMsg (ptrSize : ℕ) (after : ℕ → UInt8) : List UInt8 := sendMsg Message.Execve ptrSize after

/-- The bytes that the handler of an event writes; `after` is the memory behind the literal of a
header-only message. -/
def frame (after : ℕ → UInt8) : Event ptrSize → List UInt8
  | .call a => onCall a
  | .ret t => onRet t
  | .signal => onSignal ptrSize after
  | .execve _ => execveMsg ptrSize after

/-- `for ( next = env; strncmp( *next, DR_SS_ENV_FD, len ) != 0; ++next ) {}`: the index that the
scan stops at. The loop has no test for the end of the array; there `*next` is the NULL pointer and
`strncmp` dereferences it, which is `none`. -/
def findFd : Environ → Option ℕ
  | [] => none
  | next :: env =>
    if CString.strncmp next DR_SS_ENV_FD DR_SS_ENV_FD.strlen ≠ 0 then (findFd env).map (· + 1)
    else some 0

/-- How `on_execve` ends: with the array that becomes the parameter of the system call, in a failed
assertion, or by dereferencing NULL. -/
inductive ExecveEnd
  | handedOn (env : Environ)
  | assertFailed
  | nullDereferenced
deriving DecidableEq

/-- Called before execve is called, and after it failed; what it does behind the message. -/
def onExecve (c : Client) (env : Environ) (_pre : Bool) : ExecveEnd :=
  match findFd env with
  | none => .nullDereferenced
  | some next =>
    -- `getenv` looks into the environment of the image, not into the array of the call
    match c.environ.getenv DR_SS_ENV_FD with
    | none => .assertFailed
    | some fdStr => .handedOn (env.set next (Environ.entry DR_SS_ENV_FD fdStr))

/-- This function dictates what syscall is interesting. -/
def syscallFilter (ptrSize : ℕ) (sysnum : ℤ) : Bool := sysnum == SYS_execve ptrSize

/-- Delegates to the syscall specific function: what is written, and how it ends. -/
def syscallEvent (ptrSize : ℕ) (c : Client) (after : ℕ → UInt8) (env : Environ) (sysnum : ℤ)
    (pre : Bool) : List UInt8 × ExecveEnd :=
  if sysnum = SYS_execve ptrSize then (execveMsg ptrSize after, onExecve c env pre)
  else ([], .handedOn env)

/-- Called before every interesting syscall. -/
def preSyscallEvent (ptrSize : ℕ) (c : Client) (after : ℕ → UInt8) (env : Environ) (sysnum : ℤ) :
    List UInt8 × ExecveEnd :=
  syscallEvent ptrSize c after env sysnum true

/-- Called after every interesting syscall. -/
def postSyscallEvent (ptrSize : ℕ) (c : Client) (after : ℕ → UInt8) (env : Environ) (sysnum : ℤ) :
    List UInt8 × ExecveEnd :=
  syscallEvent ptrSize c after env sysnum false

/-- What the kernel answers when a client connects: the descriptor of `socket`, an `int`, and
whether `connect` succeeds. -/
structure Answers where
  socket : ℤ
  connects : Bool
  socket_int : Decimal.INT_MIN ≤ socket ∧ socket ≤ Decimal.INT_MAX

/-- `QS::create_client`, or `none` where it fails an assertion. -/
def createClient (answers : Answers) : Option ℤ :=
  if answers.socket ≠ -1 ∧ answers.connects then some answers.socket else none

/-- The branch that `ExternalSS::setup` took, with the descriptor it ended up with. -/
inductive Setup
  | reused (fd : ℤ)
  | connected (fd : ℤ)
deriving DecidableEq

/-- `std::to_string( sock ).c_str()` -/
def sockStr (sock : ℤ) : CString := ⟨Decimal.toString sock, Decimal.zero_notMem_toString sock⟩

/-- Setup the external stack server for the client; `none` where an assertion fails or `stoi`
throws. -/
def setup (environ : Environ) (answers : Answers) : Option (Client × Setup) :=
  match environ.getenv DR_SS_ENV_FD with
  | none => none
  | some fdStr =>
    -- an earlier image has connected; otherwise this is the first one
    if fdStr.chars ≠ [] then
      (Decimal.stoi fdStr.chars).map fun sock => (⟨sock, environ⟩, .reused sock)
    else
      (createClient answers).map fun sock =>
        (⟨sock, environ.setenv DR_SS_ENV_FD (sockStr sock)⟩, .connected sock)

@[simp] theorem preSyscallEvent_execve (c : Client) (after : ℕ → UInt8) (env : Environ) :
    preSyscallEvent ptrSize c after env (SYS_execve ptrSize) =
      (execveMsg ptrSize after, onExecve c env true) := by
  simp [preSyscallEvent, syscallEvent]

@[simp] theorem postSyscallEvent_execve (c : Client) (after : ℕ → UInt8) (env : Environ) :
    postSyscallEvent ptrSize c after env (SYS_execve ptrSize) =
      (execveMsg ptrSize after, onExecve c env false) := by
  simp [postSyscallEvent, syscallEvent]

/-! ## The scan -/

/-- The entry begins with `DR_SS_ENV_FD`. -/
def BeginsWithFd (e : CString) : Prop := DR_SS_ENV_FD.chars <+: e.chars

instance (e : CString) : Decidable (BeginsWithFd e) :=
  inferInstanceAs (Decidable (DR_SS_ENV_FD.chars <+: e.chars))

/-- The environment array holds an entry that begins with `DR_SS_ENV_FD`. -/
def HoldsFd (env : Environ) : Prop := ∃ e ∈ env, BeginsWithFd e

instance (env : Environ) : Decidable (HoldsFd env) :=
  inferInstanceAs (Decidable (∃ e ∈ env, BeginsWithFd e))

theorem strncmp_fd_iff (e : CString) :
    CString.strncmp e DR_SS_ENV_FD DR_SS_ENV_FD.strlen = 0 ↔ BeginsWithFd e :=
  CString.strncmp_eq_zero_iff e DR_SS_ENV_FD

/-- The scan stops at the first entry that begins with `DR_SS_ENV_FD`. -/
theorem findFd_eq_some_iff {env : Environ} {i : ℕ} :
    findFd env = some i ↔
      ∃ pre e post, env = pre ++ e :: post ∧ pre.length = i ∧ (∀ d ∈ pre, ¬BeginsWithFd d) ∧
        BeginsWithFd e := by
  induction env generalizing i with
  | nil => simp [findFd]
  | cons next env ih =>
    rw [findFd]
    by_cases hnext : BeginsWithFd next
    -- the scan stops at once
    · rw [if_neg (not_not.mpr ((strncmp_fd_iff next).mpr hnext)), Option.some.injEq]
      constructor
      · rintro rfl
        exact ⟨[], next, env, rfl, rfl, by simp, hnext⟩
      · rintro ⟨pre, e, post, hsplit, rfl, hpre, -⟩
        cases pre with
        | nil => rfl
        | cons d pre =>
          obtain ⟨rfl, -⟩ := List.cons.inj hsplit
          exact (hpre next (by simp) hnext).elim
    · rw [if_pos (mt (strncmp_fd_iff next).mp hnext), Option.map_eq_some_iff]
      constructor
      · rintro ⟨j, hj, rfl⟩
        obtain ⟨pre, e, post, rfl, rfl, hpre, he⟩ := ih.mp hj
        exact ⟨next :: pre, e, post, rfl, rfl, by simpa [hnext] using hpre, he⟩
      · rintro ⟨pre, e, post, hsplit, rfl, hpre, he⟩
        cases pre with
        | nil =>
          obtain ⟨rfl, -⟩ := List.cons.inj hsplit
          exact (hnext he).elim
        | cons d pre =>
          obtain ⟨rfl, hrest⟩ := List.cons.inj hsplit
          exact ⟨pre.length,
            ih.mpr ⟨pre, e, post, hrest, rfl, fun d hd => hpre d (by simp [hd]), he⟩, rfl⟩

/-- The scan runs off the array exactly when no entry begins with `DR_SS_ENV_FD`. -/
theorem findFd_eq_none_iff {env : Environ} : findFd env = none ↔ ¬HoldsFd env := by
  induction env with
  | nil => simp [findFd, HoldsFd]
  | cons next env ih =>
    rw [findFd]
    by_cases hnext : BeginsWithFd next
    · rw [if_neg (not_not.mpr ((strncmp_fd_iff next).mpr hnext))]
      simp [HoldsFd, hnext]
    · rw [if_pos (mt (strncmp_fd_iff next).mp hnext), Option.map_eq_none_iff, ih]
      simp [HoldsFd, hnext]

/-! ## The rewritten environment -/

theorem valueOf_eq_none {e : CString} (h : ¬BeginsWithFd e) :
    Environ.valueOf DR_SS_ENV_FD e = none := by
  rw [Option.eq_none_iff_forall_ne_some]
  intro v hv
  exact h (Environ.prefix_of_valueOf hv)

/-- An entry that begins with `DR_SS_ENV_FD` is not one of `DR_SS_ENV_SOCK`. -/
theorem valueOf_sock_eq_none {e : CString} (h : BeginsWithFd e) :
    Environ.valueOf DR_SS_ENV_SOCK e = none := by
  rw [Option.eq_none_iff_forall_ne_some]
  intro v hv
  have hsock := Environ.prefix_of_valueOf hv
  rcases List.prefix_or_prefix_of_prefix h hsock with hp | hp
  · exact absurd hp (by decide)
  · exact absurd hp (by decide)

theorem beginsWithFd_entry (v : CString) : BeginsWithFd (Environ.entry DR_SS_ENV_FD v) :=
  Environ.prefix_of_valueOf (Environ.valueOf_entry DR_SS_ENV_FD v)

/-- The rewritten entry is the one that `getenv` finds. -/
theorem getenv_set {pre post : Environ} {e v : CString} (hpre : ∀ d ∈ pre, ¬BeginsWithFd d) :
    Environ.getenv ((pre ++ e :: post).set pre.length (Environ.entry DR_SS_ENV_FD v))
      DR_SS_ENV_FD = some v := by
  induction pre with
  | nil =>
    rw [List.nil_append, List.length_nil, List.set_cons_zero, Environ.getenv_cons,
      Environ.valueOf_entry, Option.some_or]
  | cons d pre ih =>
    rw [List.cons_append, List.length_cons, List.set_cons_succ, Environ.getenv_cons,
      valueOf_eq_none (hpre d (by simp)), Option.none_or]
    exact ih fun d' hd' => hpre d' (by simp [hd'])

/-- The rewrite does not touch `DR_SS_ENV_SOCK`. -/
theorem getenv_sock_set {pre post : Environ} {e v : CString} (he : BeginsWithFd e) :
    Environ.getenv ((pre ++ e :: post).set pre.length (Environ.entry DR_SS_ENV_FD v))
      DR_SS_ENV_SOCK = Environ.getenv (pre ++ e :: post) DR_SS_ENV_SOCK := by
  induction pre with
  | nil =>
    rw [List.nil_append, List.length_nil, List.set_cons_zero, Environ.getenv_cons,
      Environ.getenv_cons, valueOf_sock_eq_none he, valueOf_sock_eq_none (beginsWithFd_entry v)]
  | cons d pre ih =>
    rw [List.cons_append, List.length_cons, List.set_cons_succ, Environ.getenv_cons,
      Environ.getenv_cons, ih]

/-! ## From one image to the next -/

/-- The client's environment holds the client's own descriptor. -/
structure Client.Ready (c : Client) : Prop where
  getenv_fd : c.environ.getenv DR_SS_ENV_FD = some (sockStr c.sock)
  sock_int : Decimal.INT_MIN ≤ c.sock ∧ c.sock ≤ Decimal.INT_MAX

namespace Client.Ready

variable {c : Client} {env : Environ}

/-- A client that has connected is ready. -/
theorem of_connected {environ : Environ} {answers : Answers} {sock : ℤ}
    (h : setup environ answers = some (c, .connected sock)) :
    c.Ready ∧ c.sock = sock ∧ answers.socket = sock := by
  unfold setup at h
  split at h
  · cases h
  · split at h
    · obtain ⟨s, -, hs⟩ := Option.map_eq_some_iff.mp h
      cases hs
    · obtain ⟨s, hs, heq⟩ := Option.map_eq_some_iff.mp h
      unfold createClient at hs
      split at hs
      · obtain ⟨rfl, hfd⟩ := Prod.mk.inj heq
        obtain rfl := Setup.connected.inj hfd
        obtain rfl := Option.some.inj hs
        exact ⟨⟨Environ.getenv_setenv _ _ _, answers.socket_int⟩, rfl, rfl⟩
      · cases hs

/-- `stoi` undoes `to_string` on the descriptor: an image whose environment holds a ready client's
descriptor takes the reuse branch with it. -/
theorem setup_eq (hc : c.Ready) (henv : env.getenv DR_SS_ENV_FD = some (sockStr c.sock))
    (answers : Answers) : setup env answers = some (⟨c.sock, env⟩, .reused c.sock) := by
  have hne : (sockStr c.sock).chars ≠ [] := Decimal.toString_ne_nil c.sock
  have hstoi : Decimal.stoi (sockStr c.sock).chars = some c.sock :=
    Decimal.stoi_toString hc.sock_int.1 hc.sock_int.2
  simp only [setup, henv]
  rw [if_pos hne, hstoi, Option.map_some]

/-- **One `execve`.** A ready client hands its descriptor on to a ready client that reuses it, and
the program's `DR_SS_ENV_SOCK` along with it. -/
theorem execve (hc : c.Ready) (h : HoldsFd env) (pre : Bool) :
    ∃ env', onExecve c env pre = .handedOn env' ∧
      Environ.entry DR_SS_ENV_FD (sockStr c.sock) ∈ env' ∧
      env'.getenv DR_SS_ENV_SOCK = env.getenv DR_SS_ENV_SOCK ∧
      (⟨c.sock, env'⟩ : Client).Ready ∧
      ∀ answers, setup env' answers = some (⟨c.sock, env'⟩, .reused c.sock) := by
  obtain ⟨i, hi⟩ := Option.ne_none_iff_exists'.mp (mt findFd_eq_none_iff.mp (not_not.mpr h))
  obtain ⟨pre, e, post, rfl, rfl, hpre, he⟩ := findFd_eq_some_iff.mp hi
  have hget := @getenv_set _ post e (sockStr c.sock) hpre
  refine ⟨_, ?_, ?_, getenv_sock_set he, ⟨hget, hc.sock_int⟩, hc.setup_eq hget⟩
  · simp only [onExecve, hi, hc.getenv_fd]
  · exact List.mem_set (by simp) _

end Client.Ready

/-- Without an entry to rewrite the handler dereferences NULL. -/
theorem onExecve_of_not_holdsFd {c : Client} {env : Environ} (h : ¬HoldsFd env) (pre : Bool) :
    onExecve c env pre = .nullDereferenced := by
  rw [onExecve, findFd_eq_none_iff.mpr h]

end DrShadowStack.ExternalSS
