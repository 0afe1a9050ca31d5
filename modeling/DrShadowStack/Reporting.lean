import DrShadowStack.DrPrintSym
import DrShadowStack.ExternalSS
import DrShadowStack.ExternalServer
import DrShadowStack.InternalSS

/-!
# The ret handlers with all that can go wrong in them

The ret handlers of the three programs (`dr_internal_ss_events.cpp`, `external_stack_server.cpp`,
`dr_external_ss_events.cpp`) with their logging, their reports and the outcomes of their system
calls. Were a call of `terminate` to return, control would go on as the source has it: in the
server to the pop and to the `Continue`.

## Shape of the proof

Reporting keeps `Inv` and `terminate` does not return, so a handler that returns has not gone
through a report. What it then did is what the handler of `InternalSS` or of `ExternalServer`
computes (`Internal.onRet_spec`, `Server.retHandler_spec`), which refuses every mismatch.
-/

namespace DrShadowStack.Reporting

open Prog CString Utilities

variable {ptrSize : ℕ}

/-- The first line of the report of a mismatch, and the start of the second. -/
def mismatchDetected (targetAddr : AppPc ptrSize) : Text :=
  bytesOf "*** Shadow stack mistmach detected! ***\nAttempting to return to " ++ pointer targetAddr

/-- The stack is empty, or its top is neither the target nor the wildcard. -/
inductive Mismatch : List (AppPc ptrSize) → AppPc ptrSize → Prop
  | empty {targetAddr : AppPc ptrSize} : Mismatch [] targetAddr
  | top {top targetAddr : AppPc ptrSize} {rest : List (AppPc ptrSize)} :
      top ≠ targetAddr → top ≠ wildcard → Mismatch (top :: rest) targetAddr

/-! ## Internal mode -/

namespace Internal

/-- The ret handler; `ss` is the stack of the thread. -/
def onRet (env : Env) (syms : Sym.Lookups ptrSize) (fuel : ℕ) (ss : InternalSS.Stack ptrSize)
    (targetAddr : AppPc ptrSize) : Prog State (InternalSS.Stack ptrSize) := do
  verboseLog env fuel (bytesOf "Ret to " ++ pointer targetAddr)
  match ss with
  | [] => do
    terminateOnDestruction env fuel do
      Sym.print env syms fuel (CString.lit "return address") targetAddr
      logError env fuel (mismatchDetected targetAddr ++ bytesOf "\n\tShadow stack is empty!\n")
      terminate env fuel none true
    -- not reached; the source would go on to read the top of the empty stack
    pure ss
  | top :: rest =>
    if top = targetAddr then pure rest
    else if top = wildcard then do
      verboseLog env fuel (bytesOf "Wildcard detected. Returning from signal handler.")
      pure rest
    else do
      terminateOnDestruction env fuel do
        logError env fuel (mismatchDetected targetAddr ++ bytesOf "\n\tTop of shadow stack is " ++
          pointer top ++ bytesOf "\n")
        Sym.print env syms fuel (CString.lit "top of shadow stack") top
        Sym.print env syms fuel (CString.lit "return address") targetAddr
        terminate env fuel none true
      pure ss

/-- The handler returns only with the stack that the ret leaves, and it has only reported. -/
theorem onRet_spec {env : Env} {fuel k : ℕ} {s₀ : State} (syms : Sym.Lookups ptrSize)
    (ss : InternalSS.Stack ptrSize) (targetAddr : AppPc ptrSize) :
    Triple (Inv env s₀ k) (onRet env syms fuel ss targetAddr)
      (fun ss' s => InternalSS.onRet ss targetAddr = some ss' ∧ Inv env s₀ k s)
      (Stopped env s₀ k (fuel < k + 4)) := by
  have h := spec env fuel
  refine .bind (verboseLog_spec _) fun _ => ?_
  cases ss with
  | nil =>
    refine .bind (terminateOnDestruction_spec ?_) fun _ => .ret fun _ hs => hs.elim
    exact .bind (Sym.print_spec syms s₀ k _ _) fun _ =>
      .bind (h.logError s₀ k _) fun _ => terminate_spec _ _
  | cons top rest =>
    dsimp only
    split
    · next heq => exact .ret fun _ hs => ⟨by simp [InternalSS.onRet, heq], hs⟩
    split
    · next _ hw =>
      exact .bind (verboseLog_spec _) fun _ => .ret fun _ hs => ⟨by simp [InternalSS.onRet, hw], hs⟩
    · refine .bind (terminateOnDestruction_spec ?_) fun _ => .ret fun _ hs => hs.elim
      exact .bind (h.logError s₀ k _) fun _ => .bind (Sym.print_spec syms s₀ k _ _) fun _ =>
        .bind (Sym.print_spec syms s₀ k _ _) fun _ => terminate_spec _ _

/-- Without verbose logging a ret that is accepted does nothing else. -/
theorem onRet_accepted {env : Env} (henv : env.verbose = false) (syms : Sym.Lookups ptrSize)
    (fuel : ℕ) {ss ss' : InternalSS.Stack ptrSize} {targetAddr : AppPc ptrSize}
    (h : InternalSS.onRet ss targetAddr = some ss') (s : State) :
    onRet env syms fuel ss targetAddr s = .ok ss' s := by
  cases ss with
  | nil => simp [InternalSS.onRet] at h
  | cons top rest =>
    simp only [InternalSS.onRet] at h
    simp only [onRet, verboseLog_quiet henv, pure_bind]
    split_ifs at h ⊢ <;> exact congrArg (EStateM.Result.ok · s) (Option.some.inj h)

end Internal

/-! ## The server -/

namespace Server

open ExternalServer

/-- If everything is valid, pop the stack and tell the client process it may continue. -/
def popAndContinue (env : Env) (fuel : ℕ) (stk : PointerStack ptrSize) (sock : ℤ) :
    Prog State (PointerStack ptrSize) := do
  let stk := stk.tail
  let bytesSent ← write env sock (Message.Continue.message ptrSize)
  assert env fuel (bytesSent == MESSAGE_SIZE ptrSize) (some (CString.lit "write() failed."))
  pure stk

/-- Called when a 'ret' was detected. -/
def retHandler (env : Env) (fuel : ℕ) (stk : PointerStack ptrSize) (buffer : List UInt8)
    (sock : ℤ) : Prog State (PointerStack ptrSize) := do
  let addr := readPointer ptrSize buffer
  verboseLog env fuel (bytesOf "(server) Pop(" ++ pointer addr ++ bytesOf ")\n")
  match stk with
  | [] => do
    logError env fuel (mismatchDetected addr ++ bytesOf "\n\tShadow Stack is empty.\n")
    terminate env fuel none true
    popAndContinue env fuel stk sock
  | top :: _ => do
    (if top = wildcard then
      verboseLog env fuel (bytesOf "Wildcard detected, returning from signal handler allowed.")
    else whenever (addr ≠ top) do
      logError env fuel (mismatchDetected addr ++ bytesOf "\n\tTop of shadow stack is " ++
        pointer top ++ bytesOf "\n")
      terminate env fuel none true)
    popAndContinue env fuel stk sock

/-- The server answers with a whole `Continue`, if it gets beyond that. -/
theorem popAndContinue_spec {env : Env} {fuel : ℕ} {P : State → Prop} (stk : PointerStack ptrSize)
    (sock : ℤ) :
    Triple P (popAndContinue env fuel stk sock)
      (fun stk' t => stk' = stk.tail ∧ ∃ u, P u ∧ t.trace = u.trace ++
        [.write sock (Message.Continue.message ptrSize) (MESSAGE_SIZE ptrSize)])
      fun _ _ => True := by
  refine .bind (write_records _ _) fun ret => .bind assert_spec fun _ => .ret fun t ht => ⟨rfl, ?_⟩
  obtain ⟨hret, u, hu, htrace⟩ := ht
  rw [beq_iff_eq] at hret
  exact ⟨u, hu, hret ▸ htrace⟩

/-- The handler returns only where the ret is accepted: it has logged and answered. On a mismatch it
only reports. -/
theorem retHandler_spec {env : Env} {fuel k : ℕ} {s₀ : State} (stk : PointerStack ptrSize)
    (buffer : List UInt8) (sock : ℤ) :
    Triple (Inv env s₀ k) (retHandler env fuel stk buffer sock)
      (fun stk' t =>
        ExternalServer.retHandler stk buffer =
          .returned (stk', Message.Continue.message ptrSize) ∧
        ∃ u, Inv env s₀ k u ∧ t.trace = u.trace ++
          [.write sock (Message.Continue.message ptrSize) (MESSAGE_SIZE ptrSize)])
      fun e t => Mismatch stk (readPointer ptrSize buffer) →
        Stopped env s₀ k (fuel < k + 4) e t := by
  have h := spec env fuel
  refine .bind ((verboseLog_spec _).mono fun _ _ he _ => he) fun _ => ?_
  cases stk with
  | nil =>
    refine .bind ((h.logError s₀ k _).mono fun _ _ he _ => he) fun _ => ?_
    exact .bind ((terminate_spec none true).mono fun _ _ he _ => he) fun _ => .of_false
  | cons top rest =>
    -- where control gets behind the checks, the ret is one that is accepted
    refine .bind (Q := fun _ u => (top = wildcard ∨ readPointer ptrSize buffer = top) ∧
      Inv env s₀ k u) (.mono ?_ fun _ _ he _ => he) fun _ => ?_
    · split
      · next hw =>
        exact (verboseLog_spec _).conseq (fun _ hs => hs) (fun _ _ hs => ⟨.inl hw, hs⟩)
          fun _ _ he => he
      · refine .whenever (fun _ => ?_) fun hne s hs => ⟨.inr (not_not.mp hne), hs⟩
        exact .bind (h.logError s₀ k _) fun _ => terminate_spec _ _
    · refine .of_fact (fun s hs => hs.1) fun hmatch => ?_
      have haccepted : ExternalServer.retHandler (top :: rest) buffer =
          .returned (rest, Message.Continue.message ptrSize) := by
        rcases hmatch with hw | ht
        · simp [ExternalServer.retHandler, hw]
        · simp [ExternalServer.retHandler, ht]
      refine (popAndContinue_spec (top :: rest) sock).conseq (fun _ hs => hs.2) ?_ ?_
      · rintro stk' t ⟨rfl, hsent⟩
        exact ⟨haccepted, hsent⟩
      · rintro e t - (_ | ⟨hne, hw⟩)
        rcases hmatch with hw' | ht
        · exact absurd hw' hw
        · exact absurd ht.symm hne

/-- Without verbose logging a ret that is accepted is answered, if the answer can be written, and
nothing else is done. -/
theorem retHandler_accepted {env : Env} (henv : env.verbose = false) (fuel : ℕ)
    {stk stk' : PointerStack ptrSize} {buffer out : List UInt8}
    (h : ExternalServer.retHandler stk buffer = .returned (stk', out)) {s : State} {n : ℕ}
    (hwrite : env.write s.clock = some n) (hn : MESSAGE_SIZE ptrSize ≤ n) (sock : ℤ) :
    ∃ t, retHandler env (fuel + 1) stk buffer sock s = .ok stk' t ∧
      t.trace = s.trace ++ [.write sock out (MESSAGE_SIZE ptrSize)] := by
  have hle : (Message.Continue.message ptrSize).length ≤ n := by rwa [length_message]
  obtain ⟨t, hsend, -, htrace⟩ := write_of_le hwrite hle sock
  rw [length_message] at hsend htrace
  have hanswer : ∀ stk : PointerStack ptrSize,
      popAndContinue env (fuel + 1) stk sock s = .ok stk.tail t := by
    intro stk
    rw [popAndContinue, bind_of_ok hsend, beq_self_eq_true, bind_of_ok (assert_true _ t)]
    rfl
  cases stk with
  | nil => cases h
  | cons top rest =>
    simp only [ExternalServer.retHandler] at h
    have hcheck : (top = wildcard ∨ readPointer ptrSize buffer = top) ∧
        rest = stk' ∧ Message.Continue.message ptrSize = out := by
      split_ifs at h with hw ht
      · exact ⟨.inl hw, by simpa using h⟩
      · exact ⟨.inr (not_not.mp ht), by simpa using h⟩
    obtain ⟨hmatch, rfl, rfl⟩ := hcheck
    refine ⟨t, ?_, htrace⟩
    have hskip : (if top = wildcard then (pure () : Prog State Unit)
        else whenever (readPointer ptrSize buffer ≠ top) do
          logError env (fuel + 1) (mismatchDetected (readPointer ptrSize buffer) ++
            bytesOf "\n\tTop of shadow stack is " ++ pointer top ++ bytesOf "\n")
          terminate env (fuel + 1) none true) = pure () := by
      rcases hmatch with hw | ht
      · exact if_pos hw
      · simp [ht, whenever_neg]
    simp only [retHandler, verboseLog_quiet henv, pure_bind, hskip]
    exact hanswer (top :: rest)

end Server

/-! ## The client of external mode -/

namespace External

/-- `send_msg` of a type with a body. -/
def sendMsgWith (env : Env) (fuel : ℕ) (T : MessageType false) (ptrSize : ℕ) (sock : ℤ)
    (bdy : List UInt8) : Prog State Unit := do
  let bytesSent ← write env sock (T.messageWith ptrSize bdy)
  assert env fuel (bytesSent == MESSAGE_SIZE ptrSize) (some (CString.lit "write() failed!"))

/-- `recv_msg`; the check compares with the header of `Continue` whatever the type is. -/
def recvMsg (env : Env) (fuel : ℕ) (_T : MessageType true) (ptrSize : ℕ) (sock : ℤ) :
    Prog State Unit := do
  let got ← recv env sock (MESSAGE_SIZE ptrSize)
  let bytesRecv : ℤ := match got with
    | none => -1
    | some buffer => buffer.length
  assert env fuel (bytesRecv == MESSAGE_SIZE ptrSize)
    (some (CString.lit "Did not get full size message!"))
  assert env fuel (Message.isAValid Message.Continue (got.getD []))
    (some (CString.lit "Received incorrect message!"))

/-- The ret handler, on the socket `sock` of the client. -/
def onRet (env : Env) (fuel : ℕ) (sock : ℤ) (targetAddr : AppPc ptrSize) : Prog State Unit := do
  verboseLog env fuel (bytesOf "(client) Ret to " ++ pointer targetAddr)
  sendMsgWith env fuel Message.Ret ptrSize sock (LittleEndian.store targetAddr)
  recvMsg env fuel Message.Continue ptrSize sock

/-- Sending returns only if the whole frame was written. -/
theorem sendMsgWith_spec {env : Env} {fuel : ℕ} {P : State → Prop} (T : MessageType false)
    (sock : ℤ) (bdy : List UInt8) :
    Triple P (sendMsgWith env fuel T ptrSize sock bdy)
      (fun _ t => ∃ u, P u ∧ t.trace = u.trace ++
        [.write sock (T.messageWith ptrSize bdy) (MESSAGE_SIZE ptrSize)])
      fun _ _ => True := by
  refine .bind (write_records _ _) fun ret =>
    assert_spec.conseq (fun _ hs => hs) ?_ fun _ _ hR => hR
  rintro - t ⟨hret, u, hu, htrace⟩
  rw [beq_iff_eq] at hret
  exact ⟨u, hu, hret ▸ htrace⟩

/-- Receiving returns only if a frame of full size with the header of `Continue` was received. -/
theorem recvMsg_spec {env : Env} {fuel : ℕ} {P : State → Prop} (T : MessageType true) (sock : ℤ) :
    Triple P (recvMsg env fuel T ptrSize sock)
      (fun _ t => ∃ u buffer, P u ∧ t.trace = u.trace ++
        [.recv sock (MESSAGE_SIZE ptrSize) (some buffer)] ∧
        DrShadowStack.recvMsg T ptrSize buffer = true)
      fun _ _ => True := by
  refine .bind (recv_records _ _) fun got => .bind assert_spec fun _ =>
    assert_spec.conseq (fun _ hs => hs) ?_ fun _ _ hR => hR
  rintro - t ⟨hvalid, hsize, u, hu, htrace⟩
  rw [beq_iff_eq] at hsize
  cases got with
  | none => simp at hsize
  | some buffer =>
    have hlen : buffer.length = MESSAGE_SIZE ptrSize := Int.ofNat.inj hsize
    exact ⟨u, buffer, hu, htrace, by simpa [DrShadowStack.recvMsg, hlen] using hvalid⟩

/-- The handler returns only if it has written the whole frame and received a `Continue`. -/
theorem onRet_spec {env : Env} {fuel k : ℕ} {s₀ : State} (sock : ℤ) (targetAddr : AppPc ptrSize) :
    Triple (Inv env s₀ k) (onRet env fuel sock targetAddr)
      (fun _ t => ∃ u buffer, Inv env s₀ k u ∧ t.trace = u.trace ++
        [.write sock (ExternalSS.onRet targetAddr) (MESSAGE_SIZE ptrSize),
          .recv sock (MESSAGE_SIZE ptrSize) (some buffer)] ∧
        DrShadowStack.recvMsg Message.Continue ptrSize buffer = true)
      fun _ _ => True := by
  refine .bind ((verboseLog_spec _).mono fun _ _ _ => trivial) fun _ =>
    .bind (sendMsgWith_spec _ _ _) fun _ =>
      (recvMsg_spec _ _).conseq (fun _ hs => hs) ?_ fun _ _ hR => hR
  rintro - t ⟨v, buffer, ⟨u, hu, hsent⟩, hrecv, hvalid⟩
  refine ⟨u, buffer, hu, ?_, hvalid⟩
  rw [hrecv, hsent, List.append_assoc]
  rfl

/-- Without verbose logging the handler returns if its frame is written and a `Continue` comes. -/
theorem onRet_answered {env : Env} (henv : env.verbose = false) (fuel : ℕ) (sock : ℤ)
    (targetAddr : AppPc ptrSize) {s : State} {n : ℕ} {bytes : List UInt8}
    (hwrite : env.write s.clock = some n) (hn : MESSAGE_SIZE ptrSize ≤ n)
    (hrecv : env.recv (s.clock + 1) = some bytes)
    (hvalid : DrShadowStack.recvMsg Message.Continue ptrSize (bytes.take (MESSAGE_SIZE ptrSize))) :
    ∃ t, onRet env (fuel + 1) sock targetAddr s = .ok () t := by
  have hlen : (Message.Ret.messageWith ptrSize (LittleEndian.store targetAddr)).length =
      MESSAGE_SIZE ptrSize := length_sendMsgWith _ (LittleEndian.length_store targetAddr)
  obtain ⟨u, hsend, hclock, -⟩ := write_of_le hwrite (hlen ▸ hn) sock
  obtain ⟨v, hgot⟩ := recv_of_some (hclock ▸ hrecv) sock (MESSAGE_SIZE ptrSize)
  simp only [DrShadowStack.recvMsg, Bool.and_eq_true, beq_iff_eq] at hvalid
  refine ⟨v, ?_⟩
  simp only [onRet, verboseLog_quiet henv, pure_bind]
  refine bind_eq_ok.mpr ⟨(), u, ?_, ?_⟩
  · rw [sendMsgWith, bind_of_ok hsend, hlen, beq_self_eq_true, assert_true]
  · rw [recvMsg, bind_of_ok hgot]
    simp only [hvalid.1, beq_self_eq_true, Option.getD_some, hvalid.2]
    rw [bind_of_ok (assert_true _ v), assert_true]

end External

/-! ## All of them fail closed -/

/-- The fuel that suffices for every report. -/
def callDepth : ℕ := 10

/-- A handler, given as a function of its fuel, does not return from `s`; and with enough fuel it is
not the fuel that stops it. -/
def Stops {α : Type} (handler : ℕ → Prog State α) (s : State) : Prop :=
  ∀ fuel, ∃ e t, handler fuel s = .error e t ∧ (callDepth ≤ fuel → e ≠ .outOfFuel)

theorem stops_of_spec {env : Env} {α : Type} {handler : ℕ → Prog State α} {s : State}
    {Q : α → State → Prop} (hQ : ∀ a t, ¬Q a t)
    (h : ∀ fuel, Triple (Inv env s 6) (handler fuel) Q (Stopped env s 6 (fuel < 6 + 4))) :
    Stops handler s := by
  intro fuel
  cases hrun : handler fuel s with
  | ok a t => exact (hQ a t ((h fuel).returned (.initial env s) hrun)).elim
  | error e t =>
    refine ⟨e, t, rfl, ?_⟩
    rintro hfuel rfl
    have hshort : fuel < 6 + 4 := ((h fuel).stopped (.initial env s) hrun).2
    rw [callDepth] at hfuel
    omega

theorem Mismatch.onRet_eq_none {ss : List (AppPc ptrSize)} {targetAddr : AppPc ptrSize}
    (h : Mismatch ss targetAddr) : InternalSS.onRet ss targetAddr = none := by
  cases h with
  | empty => rfl
  | top hne hw => simp [InternalSS.onRet, hne, hw]

theorem Mismatch.retHandler_eq {stk : List (AppPc ptrSize)} {buffer : List UInt8}
    (h : Mismatch stk (ExternalServer.readPointer ptrSize buffer)) :
    ExternalServer.retHandler stk buffer = .terminated (stk, []) := by
  cases h with
  | empty => rfl
  | top hne hw => simp [ExternalServer.retHandler, hw, Ne.symm hne]

/-- A line is not a `Continue` frame. -/
theorem ne_continue_of_isReport {env : Env} {e : Effect} (h : e.IsReport env) (fd ret : ℤ) :
    e ≠ .write fd (Message.Continue.message ptrSize) ret := by
  rintro rfl
  have hmem : (10 : UInt8) ∈ Message.Continue.message ptrSize := List.mem_of_getLast? h.2
  rw [MessageType.message, setLength, List.mem_append] at hmem
  rcases hmem with hmem | hmem
  · exact absurd (List.mem_of_mem_take hmem) (by decide)
  · exact absurd (List.eq_of_mem_replicate hmem) (by decide)

/-- **Fail closed.** Whatever the operations do: on a mismatch the handler of internal mode does not
return, and the server's neither returns nor writes a `Continue`; and the client's handler returns
only if it has written the whole frame and received a `Continue` of full size. -/
theorem failsClosed (env : Env) (s : State) :
    (∀ (syms : Sym.Lookups ptrSize) ss targetAddr, Mismatch ss targetAddr →
      Stops (fun fuel => Internal.onRet env syms fuel ss targetAddr) s) ∧
    (∀ stk buffer sock, Mismatch stk (ExternalServer.readPointer ptrSize buffer) →
      Stops (fun fuel => Server.retHandler env fuel stk buffer sock) s ∧
      ∀ fuel, ∃ new, (final (Server.retHandler env fuel stk buffer sock s)).trace = s.trace ++ new ∧
        ∀ e ∈ new, e.IsReport env ∧
          ∀ fd ret, e ≠ .write fd (Message.Continue.message ptrSize) ret) ∧
    ∀ fuel sock (targetAddr : AppPc ptrSize) t,
      External.onRet env fuel sock targetAddr s = .ok () t →
      ∃ log buffer, t.trace = s.trace ++ log ++
          [.write sock (ExternalSS.onRet targetAddr) (MESSAGE_SIZE ptrSize),
            .recv sock (MESSAGE_SIZE ptrSize) (some buffer)] ∧
        (∀ e ∈ log, e.IsReport env) ∧ buffer.length = MESSAGE_SIZE ptrSize ∧
        Message.isAValid Message.Continue buffer = true := by
  refine ⟨fun syms ss targetAddr hmis => ?_, fun stk buffer sock hmis => ?_,
    fun fuel sock targetAddr t hrun => ?_⟩
  · refine stops_of_spec (fun ss' t ht => ?_) fun fuel => Internal.onRet_spec syms ss targetAddr
    rw [hmis.onRet_eq_none] at ht
    exact Option.some_ne_none _ ht.1.symm
  -- on a mismatch the handler has no normal end, and its stops have only reported
  · have hspec : ∀ fuel, Triple (Inv env s 6) (Server.retHandler env fuel stk buffer sock)
        (fun _ _ => False) (Stopped env s 6 (fuel < 6 + 4)) := fun fuel =>
      (Server.retHandler_spec stk buffer sock).conseq (fun _ hs => hs)
        (fun stk' t ht => by simpa [hmis.retHandler_eq] using ht.1) fun _ _ he => he hmis
    refine ⟨stops_of_spec (fun _ _ => id) hspec, fun fuel => ?_⟩
    have hinv : Inv env s 6 (final (Server.retHandler env fuel stk buffer sock s)) :=
      ((hspec fuel).conseq (fun _ hs => hs) (fun _ _ hs => hs.elim) fun _ _ he => he.1).final_of
        (.initial env s)
    obtain ⟨new, htrace, hnew, -⟩ := hinv.1
    exact ⟨new, htrace, fun e he => ⟨hnew e he, ne_continue_of_isReport (hnew e he)⟩⟩
  · obtain ⟨u, buffer, hu, htrace, hvalid⟩ :=
      (External.onRet_spec sock targetAddr).returned (.initial env s) hrun
    obtain ⟨log, hlog, hreports, -⟩ := hu.1
    simp only [recvMsg, Bool.and_eq_true, beq_iff_eq] at hvalid
    exact ⟨log, buffer, hlog ▸ htrace, hreports, hvalid.1, hvalid.2⟩

/-- Operations of which only the first may be a complete write, `gettid` fails, and the eighth
throws if it uses a stream. -/
def failing : Env where
  logFd := 4
  stdoutFd := 1
  errorFd := 2
  verbose := false
  unwinds := true
  write i := if i = 0 then some 12 else none
  recv _ := some (Message.Continue.message 8)
  gettid _ := -1
  throws i := i == 7
  strerror _ := CString.lit "Input/output error"

/-- No address is in a module. -/
def noModule : Sym.Lookups 8 where
  lookupModule _ _ := none
  lookupAddress _ _ _ := (.symbolNotFound, ⟨CString.lit "?", 0, CString.lit "?", 0, 0⟩)
  uninitialised _ := ⟨CString.lit "?", 0, CString.lit "?", 0, 0⟩

/-- A process that has forked, before its first operation. -/
def forked : State where
  isMultiThreadOrProccess := true
  terminateAlreadyCalled := false
  clock := 0
  trace := []

/-- A corrupted ret is refused by both handlers, though the report of it fails, and the client of a
correct one gets its `Continue`. -/
theorem failsClosed_failing :
    Stops (fun fuel => Internal.onRet failing noModule fuel [5] 7) forked ∧
    Stops (fun fuel => Server.retHandler failing fuel ([] : ExternalServer.PointerStack 8)
      (LittleEndian.store (7 : AppPc 8)) 3) forked ∧
    ∃ log buffer, (final (External.onRet failing 1 3 (5 : AppPc 8) forked)).trace =
        forked.trace ++ log ++ [.write 3 (ExternalSS.onRet (5 : AppPc 8)) (MESSAGE_SIZE 8),
          .recv 3 (MESSAGE_SIZE 8) (some buffer)] ∧
      (∀ e ∈ log, e.IsReport failing) ∧ buffer.length = MESSAGE_SIZE 8 ∧
      Message.isAValid Message.Continue buffer = true :=
  ⟨(failsClosed failing forked).1 noModule [5] 7 (.top (by decide) (by decide)),
    ((failsClosed failing forked).2.1 [] _ 3 .empty).1,
    (failsClosed failing forked).2.2 1 3 5 _ rfl⟩

end DrShadowStack.Reporting
