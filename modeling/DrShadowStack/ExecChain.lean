import DrShadowStack.Common.PartialRun
import DrShadowStack.ExternalSS

/-!
# Chains of `execve` in external mode

A protected process is followed through its images, from `dr_client_main` of the first one on. The
kernel keeps the descriptors across `execve`; each image starts over with a static `sock` of its own
and with the environment that the last one's `on_execve` handed to the kernel.
-/

namespace DrShadowStack

/-- The environment that `main` and `start_program` make for the first image: both variables are
deleted, then set to the path of the socket and to the empty string. -/
def startProgram (environ : Environ) (socketPath : CString) : Environ :=
  (((environ.unsetenv DR_SS_ENV_SOCK).unsetenv DR_SS_ENV_FD).setenv DR_SS_ENV_SOCK
    socketPath).setenv DR_SS_ENV_FD (CString.lit "")

namespace ExternalSS

variable {ptrSize : ℕ}

/-- The main client function, as far as the socket goes. -/
def drClientMain (environ : Environ) (answers : Answers) : Option (Client × Setup) :=
  match environ.getenv DR_SS_ENV_SOCK with
  | none => none
  | some _socketPath => setup environ answers

/-- A process of the protected program. -/
structure Process where
  client : Client
  /-- The descriptors connected to the server's socket, in the order of their connections. -/
  connections : List ℤ
  /-- What was written, and on which descriptor. -/
  written : List (ℤ × List UInt8)
  /-- What `setup` did in every image so far. -/
  setups : List Setup

/-- An event of the program, the memory behind the literals of its image, and what the kernel would
answer if an image that the event starts connected. -/
structure Move (ptrSize : ℕ) where
  event : Event ptrSize
  after : ℕ → UInt8
  answers : Answers

/-- The frame that the handler of the move's event writes. -/
def Move.frame (m : Move ptrSize) : List UInt8 := ExternalSS.frame m.after m.event

namespace Process

/-- `write`, and the assertion that it wrote everything: it fails on a descriptor that is not
connected. -/
def write (p : Process) (bytes : List UInt8) : Option Process :=
  if p.client.sock ∈ p.connections then
    some { p with written := p.written ++ [(p.client.sock, bytes)] }
  else none

/-- A new image of the process starts in the environment `environ`. -/
def exec (p : Process) (environ : Environ) (answers : Answers) : Option Process :=
  match drClientMain environ answers with
  | none => none
  | some (client, .reused fd) => some { p with client, setups := p.setups ++ [.reused fd] }
  | some (client, .connected fd) =>
    some { p with
      client
      connections := p.connections ++ [fd]
      setups := p.setups ++ [.connected fd] }

/-- The first image, started by `start_program`. -/
def start (environ : Environ) (answers : Answers) : Option Process :=
  exec { client := ⟨-1, []⟩, connections := [], written := [], setups := [] } environ answers

/-- One event. After a ret the process goes on once the server has answered; an `execve`
succeeds. -/
def step (p : Process) (m : Move ptrSize) : Option Process :=
  match m.event with
  | .execve env =>
    -- the message goes out before the array is rewritten, and the kernel gets the rewritten array
    let (bytes, handed) := preSyscallEvent ptrSize p.client m.after env (SYS_execve ptrSize)
    (p.write bytes).bind fun p =>
      match handed with
      | .handedOn env => p.exec env m.answers
      | _ => none
  | _ => p.write m.frame

/-- What the server reads: it accepts one client, the first that connects. -/
def serverStream (p : Process) : List UInt8 :=
  (p.written.filter fun w => some w.1 = p.connections.head?).flatMap Prod.snd

end Process

/-! ## The first image connects -/

/-- A first image that has connected on the descriptor `fd`. -/
def firstImage (environ : Environ) (fd : ℤ) : Process where
  client := ⟨fd, environ.setenv DR_SS_ENV_FD (sockStr fd)⟩
  connections := [fd]
  written := []
  setups := [.connected fd]

theorem getenv_sock_setenv (env : Environ) (v : CString) :
    (env.setenv DR_SS_ENV_FD v).getenv DR_SS_ENV_SOCK = env.getenv DR_SS_ENV_SOCK := by
  have hentry := valueOf_sock_eq_none (beginsWithFd_entry v)
  induction env with
  | nil => rw [Environ.setenv, Environ.getenv_cons, hentry, Option.none_or]
  | cons e env ih =>
    rw [Environ.setenv]
    split
    · next hvar =>
      obtain ⟨w, hw⟩ := Option.isSome_iff_exists.mp hvar
      have he := valueOf_sock_eq_none (Environ.prefix_of_valueOf hw)
      rw [Environ.getenv_cons, Environ.getenv_cons, hentry, he]
    · rw [Environ.getenv_cons, Environ.getenv_cons, ih]

/-- Where the variable of the descriptor is empty, `setup` connects. -/
theorem start_eq_firstImage {environ : Environ} {answers : Answers}
    (hsock : (environ.getenv DR_SS_ENV_SOCK).isSome)
    (hfd : environ.getenv DR_SS_ENV_FD = some (CString.lit ""))
    (hanswers : answers.socket ≠ -1 ∧ answers.connects) :
    Process.start environ answers = some (firstImage environ answers.socket) := by
  obtain ⟨path, hpath⟩ := Option.isSome_iff_exists.mp hsock
  have hempty : (CString.lit "").chars = [] := rfl
  have hsetup : setup environ answers =
      some (⟨answers.socket, environ.setenv DR_SS_ENV_FD (sockStr answers.socket)⟩,
        .connected answers.socket) := by
    simp only [setup, hfd, hempty, ne_eq, not_true, if_false, createClient, if_pos hanswers,
      Option.map_some]
  simp only [Process.start, Process.exec, drClientMain, hpath, hsetup]
  rfl

/-- So it does in the environment that `start_program` makes. -/
theorem start_startProgram (environ : Environ) (socketPath : CString) {answers : Answers}
    (hanswers : answers.socket ≠ -1 ∧ answers.connects) :
    Process.start (startProgram environ socketPath) answers =
      some (firstImage (startProgram environ socketPath) answers.socket) := by
  refine start_eq_firstImage ?_ (Environ.getenv_setenv _ _ _) hanswers
  rw [startProgram, getenv_sock_setenv, Environ.getenv_setenv, Option.isSome_some]

/-! ## Runs -/

/-- The process writes to a descriptor that is connected, and its environment holds it. -/
structure Process.Ready (p : Process) : Prop where
  client : p.client.Ready
  connected : p.client.sock ∈ p.connections

namespace Process

variable {p p' p₀ : Process} {n : ℤ}

/-- The first image, having connected. -/
theorem eq_of_connected {environ : Environ} {answers : Answers}
    (h : start environ answers = some p₀) (hconn : p₀.setups = [.connected n]) :
    p₀.client.Ready ∧ p₀.client.sock = n ∧
      p₀ = { client := p₀.client, connections := [n], written := [],
             setups := [.connected n] } := by
  rw [start, exec, drClientMain] at h
  cases hsock : environ.getenv DR_SS_ENV_SOCK with
  | none => simp [hsock] at h
  | some path =>
    simp only [hsock] at h
    split at h
    · simp at h
    · obtain rfl := Option.some.inj h
      simp at hconn
    · next c fd hsetup =>
      obtain rfl := Option.some.inj h
      obtain rfl : fd = n := by simpa using hconn
      obtain ⟨hready, hfd, -⟩ := Client.Ready.of_connected hsetup
      exact ⟨hready, hfd, rfl⟩

/-- An event that is not an `execve` adds its frame to what was written, no more. -/
theorem step_message (hp : p.Ready) {m : Move ptrSize} (hm : ∀ env, m.event ≠ .execve env) :
    p.step m = some { p with written := p.written ++ [(p.client.sock, m.frame)] } := by
  rw [step, write, if_pos hp.connected]
  split
  · next env he => exact (hm env he).elim
  · rfl

/-- An `execve` sends its frame, then rewrites the environment and starts the next image in it. -/
theorem step_execve_eq (hp : p.Ready) {m : Move ptrSize} {env : Environ}
    (hm : m.event = .execve env) :
    p.step m =
      match onExecve p.client env true with
      | .handedOn env =>
        exec { p with written := p.written ++ [(p.client.sock, m.frame)] } env m.answers
      | _ => none := by
  have hframe : m.frame = execveMsg ptrSize m.after := by rw [Move.frame, hm, frame]
  simp only [step, hm, preSyscallEvent_execve, write, if_pos hp.connected, Option.bind_some, hframe]

/-- A successful `execve` adds its frame to what was written, and the next image reuses the
descriptor. -/
theorem step_execve (hp : p.Ready) {m : Move ptrSize} {env : Environ} (hm : m.event = .execve env)
    (hfd : HoldsFd env) (hsock : (env.getenv DR_SS_ENV_SOCK).isSome) :
    ∃ env', (⟨p.client.sock, env'⟩ : Client).Ready ∧ p.step m =
      some { p with
        client := ⟨p.client.sock, env'⟩
        written := p.written ++ [(p.client.sock, m.frame)]
        setups := p.setups ++ [.reused p.client.sock] } := by
  obtain ⟨env', honto, -, hkeep, hready, hsetup⟩ := hp.client.execve hfd true
  obtain ⟨path, hpath⟩ := Option.isSome_iff_exists.mp hsock
  refine ⟨env', hready, ?_⟩
  simp only [step_execve_eq hp hm, honto, exec, drClientMain, hkeep, hpath, hsetup]

/-- Every step keeps the process ready, whatever environment it passes to `execve`. -/
theorem Ready.step (hp : p.Ready) {m : Move ptrSize} (h : p.step m = some p') : p'.Ready := by
  cases hm : m.event with
  | execve env =>
    by_cases hfd : HoldsFd env
    · cases hsock : env.getenv DR_SS_ENV_SOCK with
      | none =>
        -- the next image has no socket path
        obtain ⟨env', honto, -, hkeep, -⟩ := hp.client.execve hfd true
        simp [step_execve_eq hp hm, honto, exec, drClientMain, hkeep, hsock] at h
      | some path =>
        obtain ⟨env', hready, hstep⟩ := step_execve hp hm hfd (by simp [hsock])
        obtain rfl := Option.some.inj (hstep.symm.trans h)
        exact ⟨hready, hp.connected⟩
    · simp [step_execve_eq hp hm, onExecve_of_not_holdsFd hfd] at h
  | _ =>
    rw [step_message hp (by simp [hm])] at h
    obtain rfl := Option.some.inj h
    exact ⟨hp.client, hp.connected⟩

end Process

/-- A process that the program can be in: it runs, with any environments, from a first image that
connected. -/
def Reachable (ptrSize : ℕ) (p : Process) : Prop :=
  ∃ (environ : Environ) (answers : Answers) (p₀ : Process) (n : ℤ) (moves : List (Move ptrSize)),
    Process.start environ answers = some p₀ ∧ p₀.setups = [.connected n] ∧
      PartialRun.run Process.step p₀ moves = some p

theorem Reachable.ready {p : Process} (h : Reachable ptrSize p) : p.Ready := by
  obtain ⟨environ, answers, p₀, n, moves, hstart, hconn, hrun⟩ := h
  obtain ⟨hready, hsock, hp₀⟩ := Process.eq_of_connected hstart hconn
  have hfirst : p₀.Ready := ⟨hready, by rw [hsock, hp₀]; simp⟩
  exact PartialRun.run_invariant Process.Ready (fun _ _ _ hp hstep => hp.step hstep) hfirst hrun

/-! ## The scan of `on_execve` on any environment -/

/-- `on_execve` ends without dereferencing the NULL pointer behind the array, and the array it hands
on holds an entry with the descriptor of the client's socket. -/
def HandsOnSocket (c : Client) (env : Environ) (pre : Bool) : Prop :=
  ∃ env', onExecve c env pre = .handedOn env' ∧
    Environ.entry DR_SS_ENV_FD (sockStr c.sock) ∈ env'

/-- **The scan is safe on no more than the arrays that hold the variable.** -/
theorem handsOnSocket_iff {p : Process} (hp : Reachable ptrSize p) (env : Environ) (pre : Bool) :
    HandsOnSocket p.client env pre ↔ HoldsFd env := by
  constructor
  · rintro ⟨env', honto, -⟩
    by_contra hfd
    rw [onExecve_of_not_holdsFd hfd] at honto
    cases honto
  · intro hfd
    obtain ⟨env', honto, hmem, -⟩ := hp.ready.client.execve hfd pre
    exact ⟨env', honto, hmem⟩

/-- A first image is reachable. -/
theorem reachable_firstImage (ptrSize : ℕ) (environ : Environ) (socketPath : CString)
    {answers : Answers} (hanswers : answers.socket ≠ -1 ∧ answers.connects) :
    Reachable ptrSize (firstImage (startProgram environ socketPath) answers.socket) :=
  ⟨_, answers, _, answers.socket, [], start_startProgram environ socketPath hanswers, rfl, rfl⟩

theorem handsOnSocket_iff_inherited :
    HandsOnSocket (firstImage (startProgram [] (CString.lit "/s")) 5).client
        [CString.lit "HOME=/", CString.lit "DR_SS_ENV_FD_VAR=5"] true ↔
      HoldsFd [CString.lit "HOME=/", CString.lit "DR_SS_ENV_FD_VAR=5"] :=
  @handsOnSocket_iff 8 _ (@reachable_firstImage 8 [] (CString.lit "/s") ⟨5, true, by decide⟩
    ⟨by decide, rfl⟩) _ _

/-- An empty environment array sends the scan of a first image to the NULL pointer. -/
theorem not_handsOnSocket_empty :
    Reachable 8 (firstImage (startProgram [] (CString.lit "/s")) 5) ∧
      onExecve (firstImage (startProgram [] (CString.lit "/s")) 5).client [] true =
        .nullDereferenced ∧
      ¬HandsOnSocket (firstImage (startProgram [] (CString.lit "/s")) 5).client [] true := by
  refine ⟨@reachable_firstImage 8 [] (CString.lit "/s") ⟨5, true, by decide⟩ ⟨by decide, rfl⟩, rfl,
    ?_⟩
  rintro ⟨env', honto, -⟩
  cases honto

/-! ## Chains -/

/-- The environment that a link of a chain passes: exactly one entry begins with `DR_SS_ENV_FD`, it
is one of this variable, and `DR_SS_ENV_SOCK` is set. -/
structure ChainEnv (env : Environ) : Prop where
  fd : ∃ pre e post, env = pre ++ e :: post ∧ (Environ.valueOf DR_SS_ENV_FD e).isSome ∧
    ∀ d ∈ pre ++ post, ¬BeginsWithFd d
  sock : (env.getenv DR_SS_ENV_SOCK).isSome

theorem ChainEnv.holdsFd {env : Environ} (h : ChainEnv env) : HoldsFd env := by
  obtain ⟨pre, e, post, rfl, hvar, -⟩ := h.fd
  obtain ⟨v, hv⟩ := Option.isSome_iff_exists.mp hvar
  exact ⟨e, by simp, Environ.prefix_of_valueOf hv⟩

/-- Is the move an `execve`? -/
def Move.isExecve (m : Move ptrSize) : Bool :=
  match m.event with
  | .execve _ => true
  | _ => false

/-- Where a chain stands: every image after the first took the reuse branch and ended with the
descriptor `n`, the environment holds `n`, and the server has been sent every frame, in order. -/
structure Chained (n : ℤ) (moves : List (Move ptrSize)) (p : Process) : Prop where
  ready : p.client.Ready
  sock : p.client.sock = n
  connections : p.connections = [n]
  setups : p.setups = .connected n :: List.replicate (moves.countP Move.isExecve) (.reused n)
  written : p.written = moves.map fun m => (n, m.frame)

namespace Chained

variable {n : ℤ} {moves : List (Move ptrSize)} {p : Process}

theorem processReady (h : Chained n moves p) : p.Ready :=
  ⟨h.ready, by rw [h.sock, h.connections]; simp⟩

/-- One more move of the chain. -/
theorem step (h : Chained n moves p) (m : Move ptrSize)
    (hm : ∀ env, m.event = .execve env → ChainEnv env) :
    ∃ p', p.step m = some p' ∧ Chained n (moves ++ [m]) p' := by
  cases hevent : m.event with
  | execve env =>
    have henv := hm env hevent
    obtain ⟨env', hready, hstep⟩ := Process.step_execve h.processReady hevent henv.holdsFd henv.sock
    have hcount : [m].countP Move.isExecve = 1 := by simp [Move.isExecve, hevent]
    refine ⟨_, hstep, hready, h.sock, h.connections, ?_, ?_⟩
    · simp only [h.setups, h.sock, List.countP_append, hcount, List.replicate_succ',
        List.cons_append]
    · simp [h.written, h.sock]
  | _ =>
    have hcount : [m].countP Move.isExecve = 0 := by simp [Move.isExecve, hevent]
    refine ⟨_, Process.step_message h.processReady (by simp [hevent]), h.ready, h.sock,
      h.connections, ?_, ?_⟩
    · simp only [h.setups, List.countP_append, hcount, Nat.add_zero]
    · simp [h.written, h.sock]

theorem serverStream_eq (h : Chained n moves p) : p.serverStream = moves.flatMap Move.frame := by
  have hall : (moves.map fun m => (n, m.frame)).filter (fun w => some w.1 = [n].head?) =
      moves.map fun m => (n, m.frame) :=
    List.filter_eq_self.mpr fun w hw => by
      obtain ⟨m, -, rfl⟩ := List.mem_map.mp hw
      simp
  rw [Process.serverStream, h.connections, h.written, hall, List.flatMap_map]

end Chained

/-- **The descriptor goes through every chain of `execve`.** -/
theorem chained {environ : Environ} {answers : Answers} {p₀ : Process} {n : ℤ}
    (hstart : Process.start environ answers = some p₀) (hconn : p₀.setups = [.connected n])
    (moves : List (Move ptrSize))
    (hmoves : ∀ m ∈ moves, ∀ env, m.event = .execve env → ChainEnv env) :
    ∃ p, PartialRun.run Process.step p₀ moves = some p ∧ Chained n moves p ∧
      p.client.environ.getenv DR_SS_ENV_FD = some (sockStr n) ∧
      Decimal.stoi (sockStr n).chars = some n ∧ p.serverStream = moves.flatMap Move.frame := by
  obtain ⟨hready, hsock, hp₀⟩ := Process.eq_of_connected hstart hconn
  have hrun : ∃ p, PartialRun.run Process.step p₀ moves = some p ∧ Chained n moves p := by
    induction moves using List.reverseRecOn with
    | nil =>
      refine ⟨p₀, rfl, hready, hsock, ?_, ?_, ?_⟩ <;> rw [hp₀]
      · rfl
      · rfl
    | append_singleton moves m ih =>
      obtain ⟨p, hp, hchained⟩ := ih fun m' hm' => hmoves m' (by simp [hm'])
      obtain ⟨p', hstep, hchained'⟩ := hchained.step m (hmoves m (by simp))
      exact ⟨p', by rw [PartialRun.run_concat, hp, Option.bind_some, hstep], hchained'⟩
  obtain ⟨p, hp, hchained⟩ := hrun
  refine ⟨p, hp, hchained, ?_, ?_, hchained.serverStream_eq⟩
  · rw [hchained.ready.getenv_fd, hchained.sock]
  · have hbounds := hchained.ready.sock_int
    rw [hchained.sock] at hbounds
    exact Decimal.stoi_toString hbounds.1 hbounds.2

/-- A call and two links, the first with a value that is not a number. -/
def twoLinks : List (Move 8) :=
  [⟨.call 7, fun _ => 0, ⟨9, true, by decide⟩⟩,
    ⟨.execve [CString.lit "DR_SS_ENV_SOCK_VAR=/s", CString.lit "DR_SS_ENV_FD_VAR=x"], fun _ => 0,
      ⟨9, true, by decide⟩⟩,
    ⟨.execve [CString.lit "DR_SS_ENV_FD_VAR=", CString.lit "DR_SS_ENV_SOCK_VAR=/s"], fun _ => 0,
      ⟨9, true, by decide⟩⟩]

theorem chained_twoLinks :
    ∃ p, PartialRun.run Process.step (firstImage (startProgram [] (CString.lit "/s")) 5) twoLinks =
        some p ∧
      Chained 5 twoLinks p ∧ p.client.environ.getenv DR_SS_ENV_FD = some (sockStr 5) ∧
      Decimal.stoi (sockStr 5).chars = some 5 ∧
      p.serverStream = twoLinks.flatMap Move.frame := by
  refine chained (@start_startProgram [] (CString.lit "/s") ⟨5, true, by decide⟩
    ⟨by decide, rfl⟩) rfl twoLinks ?_
  intro m hm env henv
  simp only [twoLinks, List.mem_cons, List.not_mem_nil, or_false] at hm
  rcases hm with rfl | rfl | rfl
  · cases henv
  · obtain rfl := Event.execve.inj henv
    exact ⟨⟨[CString.lit "DR_SS_ENV_SOCK_VAR=/s"], _, [], rfl, by decide, by decide⟩, by decide⟩
  · obtain rfl := Event.execve.inj henv
    exact ⟨⟨[], _, [CString.lit "DR_SS_ENV_SOCK_VAR=/s"], rfl, by decide, by decide⟩, by decide⟩

end ExternalSS

end DrShadowStack
