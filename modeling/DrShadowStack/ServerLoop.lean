import DrShadowStack.Logging
import DrShadowStack.Reporting

/-!
# The loop of the server with all that can go wrong in it

The external shadow stack server (`external_stack_server.cpp`) with its logging, its reports and the
outcomes of its system calls. The bytes that `recv` has to offer are left open like every other
outcome, so a run is one with any client; the number of passes is bounded by fuel of its own.

## Shape of the proof

What the server does besides reporting is a conversation on the client's socket. It is held against
the server of `DrShadowStack.ExternalServer` on the bytes received so far (`Conversation`): a
handler that returns has answered as that server does, and one that stops has written at most a part
of it. So each pass continues the conversation (`pass_spec`), and the loop does (`loop_spec`).
-/

namespace DrShadowStack.Reporting.Server

open Prog CString Utilities StackDiscipline ShadowStack ExternalServer

variable {ptrSize : ℕ}

/-! ## The rest of the server -/

/-- The type of a message handling function, from the stack, the message's body and the client's
socket to the stack. -/
abbrev MessageHandler (ptrSize : ℕ) :=
  PointerStack ptrSize → List UInt8 → ℤ → Prog State (PointerStack ptrSize)

/-- Called whenever a signal is sent to the client. -/
def addWildcard (env : Env) (fuel : ℕ) : MessageHandler ptrSize := fun stk _ _ => do
  verboseLog env fuel (bytesOf "(server) Signal detected, adding wildcard!")
  pure (wildcard :: stk)

/-- Clears the stack whenever execve is called. -/
def clearStack (env : Env) (fuel : ℕ) : MessageHandler ptrSize := fun stk _ _ => do
  verboseLog env fuel (bytesOf "(server) execve syscall detected, clearing shadow stack!")
  pure (popAll stk)

/-- Called when a 'call' was detected. -/
def callHandler (env : Env) (fuel : ℕ) : MessageHandler ptrSize := fun stk buffer _ => do
  let addr := readPointer ptrSize buffer
  verboseLog env fuel (bytesOf "(server) Push(" ++ pointer addr ++ bytesOf ")")
  pure (addr :: stk)

/-- The message handling function map; a null function pointer is `none`. -/
abbrev HandlerMap (ptrSize : ℕ) := List (List UInt8 × Option (MessageHandler ptrSize))

/-- The map as it is populated. -/
def callCorrectFunction (env : Env) (fuel : ℕ) : HandlerMap ptrSize :=
  [(Message.NewSignal.header.chars, some (addWildcard env fuel)),
    (Message.Execve.header.chars, some (clearStack env fuel)),
    (Message.Call.header.chars, some (callHandler env fuel)),
    (Message.Ret.header.chars, some (retHandler env fuel))]

/-- `std::map::operator[]`: a missing key is inserted with a null pointer. -/
def HandlerMap.index (map : HandlerMap ptrSize) (key : List UInt8) :
    Option (MessageHandler ptrSize) × HandlerMap ptrSize :=
  match map.lookup key with
  | some functionPtr => (functionPtr, map)
  | none => (none, (key, none) :: map)

/-- Verify that a message is valid, then call the appropriate function. -/
def processMessage (env : Env) (fuel : ℕ) (sock : ℤ) (map : HandlerMap ptrSize)
    (stk : PointerStack ptrSize) (buffer : List UInt8) :
    Prog State (HandlerMap ptrSize × PointerStack ptrSize) := do
  let messageType := buffer.take MESSAGE_HEADER_LENGTH
  let (functionPtr, map) := map.index messageType
  verboseLog env fuel (bytesOf "Got message header: " ++ buffer.take MESSAGE_HEADER_LENGTH)
  whenever (functionPtr.isNone) do
    logError env fuel (bytesOf "Sever recieved wrong type of message." ++
      bytesOf "\n\tMessage header was: " ++ messageType)
  assert env fuel functionPtr.isSome
    (some (CString.lit "Sever recieved wrong type of message!"))
  match functionPtr with
  -- not reached: the null pointer fails the assertion
  | none => throw .killed
  | some function => do
    let stk ← function stk (buffer.drop MESSAGE_HEADER_LENGTH) sock
    pure (map, stk)

/-- One pass of the loop; `none` when it is left. -/
def pass (env : Env) (fuel : ℕ) (sock : ℤ) (map : HandlerMap ptrSize) (stk : PointerStack ptrSize) :
    Prog State (Option (HandlerMap ptrSize × PointerStack ptrSize)) := do
  let numBytes := MESSAGE_HEADER_LENGTH + ptrSize
  let got ← recv env sock numBytes
  let bytesRecv : ℤ := match got with
    | none => -1
    | some buffer => buffer.length
  assert env fuel (bytesRecv == numBytes || bytesRecv == 0) (some (CString.lit "recv() failed"))
  if bytesRecv = 0 then do
    log env fuel (bytesOf "Client Disconnected.")
    pure none
  else do
    let next ← processMessage env fuel sock map stk (got.getD [])
    pure (some next)

/-- Loop until the child sends 0 bytes. -/
def loop (env : Env) (fuel : ℕ) (sock : ℤ) :
    ℕ → HandlerMap ptrSize → PointerStack ptrSize → Prog State (PointerStack ptrSize)
  | 0, _, _ => throw .outOfFuel
  | passes + 1, map, stk => do
    match ← pass env fuel sock map stk with
    | none => pure stk
    | some (map, stk) => loop env fuel sock passes map stk

/-- The external shadow stack function; its `TerminateOnDestruction` is disabled at the end. -/
def startExternalShadowStack (ptrSize : ℕ) (env : Env) (fuel passes : ℕ) (sock : ℤ) :
    Prog State (PointerStack ptrSize) :=
  onUnwind (terminate env fuel (some destructorCalled) true)
    (loop env fuel sock passes (callCorrectFunction env fuel) [])

/-! ## Conversations -/

/-- The bytes received on `sock`. -/
def received (sock : ℤ) (xs : List Effect) : List UInt8 :=
  xs.flatMap fun
    | .recv fd _ (some got) => if fd = sock then got else []
    | _ => []

/-- The bytes written to `sock`. -/
def written (sock : ℤ) (xs : List Effect) : List UInt8 :=
  xs.flatMap fun
    | .write fd bytes ret => if fd = sock then bytes.take ret.toNat else []
    | _ => []

/-- The bytes that a run of the server without failures has sent. -/
def sentBy : Ended (Loop ptrSize) → List UInt8
  | .returned l => l.sent
  | .terminated l => l.sent

/-- At no time was more written than the server without failures answers to what was received until
then. -/
def Causal (ptrSize : ℕ) (sock : ℤ) (xs : List Effect) : Prop :=
  ∀ pre, pre <+: xs → written sock pre <+:
    sentBy (ExternalServer.startExternalShadowStack ptrSize (received sock pre))

/-- The conversation is one that the server without failures has, up to a moment where it waits for
a message. -/
structure Conversation (sock : ℤ) (stk : PointerStack ptrSize) (xs : List Effect) : Prop where
  served : ExternalServer.startExternalShadowStack ptrSize (received sock xs) =
    .returned (running stk [] (written sock xs))
  causal : Causal ptrSize sock xs

/-- The client has gone: the last that was received is the end of the stream. -/
def Disconnected (ptrSize : ℕ) (sock : ℤ) (xs : List Effect) : Prop :=
  ∃ ys, xs = ys ++ [.recv sock (MESSAGE_HEADER_LENGTH + ptrSize) (some [])]

/-- Receiving failed, or the server without failures terminates on what was received. -/
def Refused (ptrSize : ℕ) (sock : ℤ) (xs : List Effect) : Prop :=
  (∃ size, .recv sock size none ∈ xs) ∨
    ∃ l, ExternalServer.startExternalShadowStack ptrSize (received sock xs) = .terminated l

section Pure

variable {stk stk' : PointerStack ptrSize} {bytes sent : List UInt8}

/-- The server goes on where it waited. -/
theorem start_append
    (h : ExternalServer.startExternalShadowStack ptrSize bytes = .returned (running stk [] sent))
    (rest : List UInt8) :
    ExternalServer.startExternalShadowStack ptrSize (bytes ++ rest) =
      serve (running stk rest sent) := by
  obtain ⟨frames, ops, mid, tail, rfl, hops, hrun, htail⟩ :=
    exists_frames ([] : PointerStack ptrSize) bytes
  have hserve : ∀ rest,
      ExternalServer.startExternalShadowStack ptrSize (framesBytes frames ++ rest) =
        serve (running mid rest ([] ++ ops.flatMap replyTo)) := fun _ => serve_frames hops hrun
  rw [hserve] at h
  rcases htail with rfl | hoff
  · rw [serve_nil] at h
    have hloop := Ended.returned.inj h
    simp only [running, Loop.mk.injEq, true_and] at hloop
    rw [List.append_nil, hserve, hloop.1, hloop.2]
  · obtain ⟨l, hl, -⟩ := serve_offending hoff
    rw [hl] at h
    cases h

/-- What was sent stays sent. -/
theorem prefix_sentBy (stk : PointerStack ptrSize) (rest sent : List UInt8) :
    sent <+: sentBy (serve (running stk rest sent)) := by
  obtain ⟨frames, ops, mid, tail, rfl, hops, hrun, rfl | hoff⟩ := exists_frames stk rest
  · rw [serve_frames hops hrun, serve_nil]
    exact List.prefix_append _ _
  · obtain ⟨l, hl, -, hsent, -⟩ : ∃ l, serve (running mid tail (sent ++ ops.flatMap replyTo)) =
        .terminated l ∧ _ := serve_offending hoff
    rw [serve_frames hops hrun, hl]
    exact ⟨_, hsent.symm⟩

end Pure

section Conversations

variable {sock : ℤ} {stk stk' : PointerStack ptrSize} {xs : List Effect} {f : Frame ptrSize}
  {o : Op (AppPc ptrSize) (AppPc ptrSize)}

@[simp] theorem received_append (xs ys : List Effect) :
    received sock (xs ++ ys) = received sock xs ++ received sock ys := List.flatMap_append

@[simp] theorem written_append (xs ys : List Effect) :
    written sock (xs ++ ys) = written sock xs ++ written sock ys := List.flatMap_append

@[simp] theorem received_recv (size : ℕ) (got : List UInt8) :
    received sock [.recv sock size (some got)] = got := by simp [received]

@[simp] theorem received_recv_none (size : ℕ) :
    received sock [.recv sock size none] = [] := rfl

@[simp] theorem received_write (fd : ℤ) (bytes : List UInt8) (ret : ℤ) :
    received sock [.write fd bytes ret] = [] := rfl

@[simp] theorem written_recv (fd : ℤ) (size : ℕ) (got : Option (List UInt8)) :
    written sock [.recv fd size got] = [] := rfl

@[simp] theorem written_write (bytes : List UInt8) (ret : ℤ) :
    written sock [.write sock bytes ret] = bytes.take ret.toNat := by simp [written]

/-- A message that is written in full. -/
theorem written_of_length {bytes : List UInt8} {n : ℕ} (h : bytes.length = n) :
    written sock [.write sock bytes n] = bytes := by
  rw [written_write, Int.toNat_natCast, ← h, List.take_length]

theorem Causal.mono {ys : List Effect} (h : Causal ptrSize sock ys) (hpre : xs <+: ys) :
    Causal ptrSize sock xs :=
  fun pre hxs => h pre (hxs.trans hpre)

theorem Causal.concat {e : Effect} (h : Causal ptrSize sock xs)
    (hlast : written sock (xs ++ [e]) <+:
      sentBy (ExternalServer.startExternalShadowStack ptrSize (received sock (xs ++ [e])))) :
    Causal ptrSize sock (xs ++ [e]) := by
  intro pre hpre
  rcases List.prefix_concat_iff.mp hpre with rfl | hpre
  · exact hlast
  · exact h pre hpre

/-- The server before its first message. -/
theorem Conversation.nil : Conversation sock ([] : PointerStack ptrSize) [] where
  served := serve_nil
  causal pre hpre := by
    obtain rfl := List.prefix_nil.mp hpre
    exact List.nil_prefix

/-- Whatever is received, nothing more was written. -/
theorem Conversation.causal_recv (h : Conversation sock stk xs) (size : ℕ)
    (got : Option (List UInt8)) : Causal ptrSize sock (xs ++ [.recv sock size got]) := by
  refine h.causal.concat ?_
  rw [received_append, start_append h.served, written_append, written_recv, List.append_nil]
  exact prefix_sentBy _ _ _

/-- The server without failures performs an operation that is accepted and answers it. -/
theorem Conversation.start_accepted (h : Conversation sock stk xs) (hop : f.op = some o)
    (hstep : StackDiscipline.step returnsTo stk o = some stk') :
    ExternalServer.startExternalShadowStack ptrSize (received sock xs ++ f.bytes) =
      .returned (running stk' [] (written sock xs ++ replyTo o)) := by
  have hframe : serve (running stk (f.bytes ++ []) (written sock xs)) = _ := serve_frame hop hstep
  rw [List.append_nil] at hframe
  rw [start_append h.served, hframe, serve_nil]

/-- The answer to a ret that is accepted, written in part or in full. -/
theorem Conversation.causal_write (h : Conversation sock stk xs) {t : AppPc ptrSize}
    (hop : f.op = some (.pop t)) (hstep : StackDiscipline.step returnsTo stk (.pop t) = some stk')
    (size : ℕ) (ret : ℤ) :
    Causal ptrSize sock (xs ++ [.recv sock size (some f.bytes)] ++
      [.write sock (Message.Continue.message ptrSize) ret]) := by
  refine (h.causal_recv size _).concat ?_
  simp only [received_append, written_append, received_recv, received_write, written_recv,
    written_write, List.append_nil]
  rw [h.start_accepted hop hstep]
  exact (List.prefix_append_right_inj _).mpr (List.take_prefix _ _)

/-- The reply to an operation, as it is written. -/
def reply (sock : ℤ) : Op (AppPc ptrSize) (AppPc ptrSize) → List Effect
  | .pop _ => [.write sock (Message.Continue.message ptrSize) (MESSAGE_SIZE ptrSize)]
  | .push _ => []
  | .clear => []

/-- A conversation goes on with a message that is accepted, and with the reply to it. -/
theorem Conversation.accepted (h : Conversation sock stk xs) (hop : f.op = some o)
    (hstep : StackDiscipline.step returnsTo stk o = some stk') (size : ℕ) :
    Conversation sock stk' (xs ++ [.recv sock size (some f.bytes)] ++ reply sock o) := by
  have hwritten : written sock (reply sock o) = replyTo o := by
    cases o with
    | pop t =>
      exact written_of_length (length_message _)
    | push a => rfl
    | clear => rfl
  have hreceived : received sock (reply sock o) = [] := by cases o <;> rfl
  refine ⟨?_, ?_⟩
  · simp only [received_append, written_append, received_recv, written_recv, hwritten, hreceived,
      List.append_nil]
    exact h.start_accepted hop hstep
  · cases o with
    | pop t => exact h.causal_write hop hstep size _
    | push a =>
      rw [reply, List.append_nil]
      exact h.causal_recv size _
    | clear =>
      rw [reply, List.append_nil]
      exact h.causal_recv size _

/-- A message on which the server without failures terminates. -/
theorem Conversation.refused (h : Conversation sock stk xs) {bytes : List UInt8}
    (hoff : Offending stk bytes) (size : ℕ) :
    Refused ptrSize sock (xs ++ [.recv sock size (some bytes)]) := by
  obtain ⟨l, hl, -⟩ : ∃ l, serve (running stk bytes (written sock xs)) = .terminated l ∧ _ :=
    serve_offending hoff
  refine .inr ⟨l, ?_⟩
  rw [received_append, received_recv, start_append h.served, hl]

/-- The end of the stream. -/
theorem Conversation.disconnected (h : Conversation sock stk xs) (size : ℕ) :
    Conversation sock stk (xs ++ [.recv sock size (some [])]) where
  served := by simpa using h.served
  causal := h.causal_recv size _

end Conversations

/-! ## The handlers -/

/-- How a handler stops that is called for the operation `o`: it has written nothing, or it has
written to the answer of a ret that is accepted; and if nothing failed, the stack refuses `o`. -/
structure HandlerStopped (env : Env) (fuel : ℕ) (sock : ℤ) (stk : PointerStack ptrSize)
    (o : Op (AppPc ptrSize) (AppPc ptrSize)) (s : State) (xs : List Effect) (e : Stop)
    (t : State) : Prop where
  did : Did env s t xs ∨ ∃ a stk' ret, o = .pop a ∧
    StackDiscipline.step returnsTo stk o = some stk' ∧
      Did env s t (xs ++ [.write sock (Message.Continue.message ptrSize) ret])
  short : e = .outOfFuel → fuel < assertDepth
  cause : Impaired env s t ∨ e = .outOfFuel ∨
    (Did env s t xs ∧ StackDiscipline.step returnsTo stk o = none)

/-- A function on the stack performs the operation `o` and answers it. -/
def Performs (env : Env) (fuel : ℕ) (sock : ℤ) (o : Op (AppPc ptrSize) (AppPc ptrSize))
    (function : PointerStack ptrSize → Prog State (PointerStack ptrSize)) : Prop :=
  ∀ stk s xs, Triple (Did env s · xs) (function stk)
    (fun stk' t => StackDiscipline.step returnsTo stk o = some stk' ∧
      Did env s t (xs ++ reply sock o))
    (HandlerStopped env fuel sock stk o s xs)

section Handlers

variable {env : Env} {fuel : ℕ} {sock : ℤ} {stk : PointerStack ptrSize}
  {o : Op (AppPc ptrSize) (AppPc ptrSize)} {s t : State} {xs : List Effect} {e : Stop}

theorem HandlerStopped.of_halted (hdid : Did env s t xs) (h : Halted env fuel s e t) :
    HandlerStopped env fuel sock stk o s xs e t :=
  ⟨.inl hdid, h.1, h.2.imp_right .inl⟩

/-- The report of a ret that the stack refuses. -/
theorem HandlerStopped.of_refused (hstep : StackDiscipline.step returnsTo stk o = none)
    (h : Did env s t xs ∧ (e = .outOfFuel → fuel < assertDepth)) :
    HandlerStopped env fuel sock stk o s xs e t :=
  ⟨.inl h.1, h.2, .inr (.inr ⟨h.1, hstep⟩)⟩

/-- The handlers that only log, and push or clear. -/
theorem performs_of_log {o : Op (AppPc ptrSize) (AppPc ptrSize)} (ho : reply sock o = [])
    {next : PointerStack ptrSize → PointerStack ptrSize}
    (hnext : ∀ stk, StackDiscipline.step returnsTo stk o = some (next stk)) (args : Text) :
    Performs env fuel sock o (fun stk => do
      verboseLog env fuel args
      pure (next stk)) := by
  intro stk s xs
  refine .bind ((verboseLog_did args).mono fun e t hR => .of_halted hR.1 hR.2) fun _ =>
    .ret fun t ht => ⟨hnext stk, ?_⟩
  rwa [ho, List.append_nil]

/-- Popping and answering, where the ret is accepted. -/
theorem popAndContinue_did {a : AppPc ptrSize}
    (hstep : StackDiscipline.step returnsTo stk (.pop a) = some stk.tail) :
    Triple (Did env s · xs) (popAndContinue env fuel stk sock)
      (fun stk' t => StackDiscipline.step returnsTo stk (.pop a) = some stk' ∧
        Did env s t (xs ++ reply sock (.pop a)))
      (HandlerStopped env fuel sock stk (.pop a) s xs) := by
  have hcontinue : ∀ ret,
      ¬(Effect.write sock (Message.Continue.message ptrSize) ret).IsReport env :=
    fun ret hreport => ne_continue_of_isReport hreport sock ret rfl
  refine .bind (write_records _ _) fun ret => .bind (assert_stops.mono ?_) fun _ => .ret ?_
  · rintro e t ⟨v, ⟨u, hu, hv⟩, ht, hshort, hcause⟩
    refine ⟨.inr ⟨a, _, ret, rfl, hstep, (hu.effect (hcontinue ret) hv).reports ht⟩, hshort, ?_⟩
    rcases hcause with hfails | hfuel
    · refine .inl ((hu.impaired hv ?_).mono ht)
      rw [length_message]
      simpa using hfails
    · exact .inr (.inl hfuel)
  · rintro t ⟨hret, u, hu, ht⟩
    obtain rfl := beq_iff_eq.mp hret
    exact ⟨hstep, hu.effect (hcontinue _) ht⟩

theorem retHandler_performs (buffer : List UInt8) :
    Performs env fuel sock (.pop (readPointer ptrSize buffer))
      (retHandler env fuel · buffer sock) := by
  intro stk s xs
  have hlog : ∀ (stk : PointerStack ptrSize) (o : Op (AppPc ptrSize) (AppPc ptrSize)) args,
      Triple (Did env s · xs) (verboseLog env fuel args) (fun _ t => Did env s t xs)
        (HandlerStopped env fuel sock stk o s xs) := fun _ _ args =>
    (verboseLog_did args).mono fun e t hR => .of_halted hR.1 hR.2
  refine .bind (hlog _ _ _) fun _ => ?_
  cases stk with
  | nil =>
    have hreport : ∀ e t, Did env s t xs ∧ (e = .outOfFuel → fuel < assertDepth) →
        HandlerStopped env fuel sock [] (.pop (readPointer ptrSize buffer)) s xs e t := fun _ _ =>
      .of_refused rfl
    refine .bind ((logError_did _).mono fun e t hR => hreport e t ⟨hR.1, hR.2.1⟩) fun _ => ?_
    exact .bind ((terminate_did none true).mono hreport) fun _ => .of_false
  | cons top rest =>
    -- where control gets behind the checks, the ret is one that is accepted
    refine .bind (Q := fun _ t => returnsTo top (readPointer ptrSize buffer) = true ∧
      Did env s t xs) ?_ fun _ => ?_
    · split
      · next hw =>
        refine (hlog _ _ _).conseq (fun _ ht => ht) (fun _ _ ht => ⟨?_, ht⟩) fun _ _ hR => hR
        rw [returnsTo, hw]
        simp
      · next hw =>
        refine .whenever (fun hne => ?_) fun heq t ht => ⟨?_, ht⟩
        · have hreport : ∀ e t, Did env s t xs ∧ (e = .outOfFuel → fuel < assertDepth) →
              HandlerStopped env fuel sock (top :: rest) (.pop (readPointer ptrSize buffer)) s xs
                e t := fun _ _ =>
            .of_refused (by rw [step_pop_cons, returnsTo]; simp [hw, Ne.symm hne])
          exact .bind ((logError_did _).mono fun e t hR => hreport e t ⟨hR.1, hR.2.1⟩) fun _ =>
            (terminate_did none true).mono hreport
        · rw [returnsTo, not_not.mp heq]
          simp
    · refine .of_fact (fun _ ht => ht.1) fun haccepted => ?_
      have hstep : StackDiscipline.step returnsTo (top :: rest)
          (.pop (readPointer ptrSize buffer)) = some (top :: rest).tail := by
        rw [step_pop_cons, if_pos haccepted, List.tail_cons]
      exact (popAndContinue_did hstep).conseq (fun _ ht => ht.2) (fun _ _ ht => ht) fun _ _ hR => hR

/-- A known header finds its handler and leaves the map alone. -/
theorem index_of_known {f : Frame ptrSize} (h : f.op = some o) :
    ∃ function : MessageHandler ptrSize, (callCorrectFunction env fuel).index f.header =
        (some function, callCorrectFunction env fuel) ∧
      Performs env fuel sock o (function · f.body sock) := by
  have hread : readPointer ptrSize f.body = LittleEndian.load ptrSize f.body := by
    rw [readPointer, List.take_of_length_le (le_of_eq f.body_length)]
  rw [Frame.op] at h
  split_ifs at h with hnews hexec hcall hret
  · obtain rfl := Option.some.inj h
    exact ⟨addWildcard env fuel, by rw [hnews]; rfl, performs_of_log rfl (fun _ => rfl) _⟩
  · obtain rfl := Option.some.inj h
    refine ⟨clearStack env fuel, by rw [hexec]; rfl, performs_of_log rfl (fun stk => ?_) _⟩
    rw [popAll_eq_nil]
    rfl
  · obtain rfl := Option.some.inj h
    refine ⟨callHandler env fuel, by rw [hcall]; rfl, ?_⟩
    rw [← hread]
    exact performs_of_log rfl (fun _ => rfl) _
  · obtain rfl := Option.some.inj h
    refine ⟨retHandler env fuel, by rw [hret]; rfl, ?_⟩
    rw [← hread]
    exact retHandler_performs f.body

/-- An unknown header is inserted with a null pointer. -/
theorem index_of_unknown {f : Frame ptrSize} (h : f.op = none) :
    (callCorrectFunction env fuel : HandlerMap ptrSize).index f.header =
      (none, (f.header, none) :: callCorrectFunction env fuel) := by
  rw [Frame.op] at h
  split_ifs at h with hnews hexec hcall hret
  have hlookup : (callCorrectFunction env fuel : HandlerMap ptrSize).lookup f.header = none := by
    simp only [callCorrectFunction, List.lookup_cons, List.lookup_nil, beq_false_of_ne hnews,
      beq_false_of_ne hexec, beq_false_of_ne hcall, beq_false_of_ne hret]
  rw [HandlerMap.index, hlookup]

end Handlers

/-! ## The loop -/

/-- How the server stops: it has written nothing that it should not have, the fuel runs out only
where it is `short`, and if nothing failed, the client was refused. -/
def ServerStopped (ptrSize : ℕ) (env : Env) (sock : ℤ) (short : List Effect → Prop) (s : State)
    (e : Stop) (t : State) : Prop :=
  ∃ xs, Did env s t xs ∧ Causal ptrSize sock xs ∧ (e = .outOfFuel → short xs) ∧
    (Impaired env s t ∨ e = .outOfFuel ∨ Refused ptrSize sock xs)

section Loop

variable {env : Env} {fuel : ℕ} {sock : ℤ} {stk : PointerStack ptrSize} {s : State}
  {xs : List Effect}

/-- The server stops where its handler does. -/
theorem HandlerStopped.serverStopped {f : Frame ptrSize} {o : Op (AppPc ptrSize) (AppPc ptrSize)}
    {size : ℕ} {e : Stop} {t : State}
    (hR : HandlerStopped env fuel sock stk o s (xs ++ [.recv sock size (some f.bytes)]) e t)
    (h : Conversation sock stk xs) (hop : f.op = some o) :
    ServerStopped ptrSize env sock (fun _ => fuel < assertDepth) s e t := by
  have hcausal := h.causal_recv size (some f.bytes)
  -- what was done does not depend on the cause
  have hdid : ∀ cause : Impaired env s t ∨ e = .outOfFuel,
      ServerStopped ptrSize env sock (fun _ => fuel < assertDepth) s e t := by
    intro cause
    rcases hR.did with hdid | ⟨a, stk', ret, rfl, hstep, hdid⟩
    · exact ⟨_, hdid, hcausal, hR.short, cause.imp_right .inl⟩
    · exact ⟨_, hdid, h.causal_write hop hstep size ret, hR.short, cause.imp_right .inl⟩
  rcases hR.cause with himpaired | hfuel | ⟨hdid', hnone⟩
  · exact hdid (.inl himpaired)
  · exact hdid (.inr hfuel)
  · refine ⟨_, hdid', hcausal, hR.short, .inr (.inr ?_)⟩
    cases o with
    | push a => cases hnone
    | clear => cases hnone
    | pop t =>
      have hoff : Offending stk (f.bytes ++ []) := .refused hop (step_pop_eq_none_iff.mp hnone)
      rw [List.append_nil] at hoff
      exact h.refused hoff size

/-- **One message** continues the conversation, or the server stops. -/
theorem processMessage_spec (h : Conversation sock stk xs) (f : Frame ptrSize) (size : ℕ) :
    Triple (Did env s · (xs ++ [.recv sock size (some f.bytes)]))
      (processMessage env fuel sock (callCorrectFunction env fuel) stk f.bytes)
      (fun next t => next.1 = callCorrectFunction env fuel ∧
        ∃ ys, Did env s t (xs ++ [.recv sock size (some f.bytes)] ++ ys) ∧
          Conversation sock next.2 (xs ++ [.recv sock size (some f.bytes)] ++ ys) ∧
          received sock ys = [])
      (ServerStopped ptrSize env sock (fun _ => fuel < assertDepth) s) := by
  have hcausal := h.causal_recv size (some f.bytes)
  have hlog : ∀ args, Triple (Did env s · (xs ++ [.recv sock size (some f.bytes)]))
      (verboseLog env fuel args) (fun _ t => Did env s t (xs ++ [.recv sock size (some f.bytes)]))
      (ServerStopped ptrSize env sock (fun _ => fuel < assertDepth) s) := fun args =>
    (verboseLog_did args).mono fun e t hR =>
      ⟨_, hR.1, hcausal, hR.2.1, hR.2.2.imp_right .inl⟩
  simp only [processMessage, f.take_bytes, f.drop_bytes]
  cases hop : f.op with
  | none =>
    have hoff : Offending stk (f.bytes ++ []) := .unknown hop
    rw [List.append_nil] at hoff
    have hrefused := h.refused hoff size
    rw [index_of_unknown hop]
    refine .bind (hlog _) fun _ => ?_
    refine .bind (Q := fun _ t => Did env s t (xs ++ [.recv sock size (some f.bytes)])) ?_
      fun _ => ?_
    · refine .whenever (fun _ => ?_) fun _ _ ht => ht
      exact (logError_did _).mono fun e t hR => ⟨_, hR.1, hcausal, hR.2.1, .inr (.inr hrefused)⟩
    · refine .bind (Q := fun _ _ => False) (assert_stops.conseq (fun _ ht => ht) ?_ ?_) fun _ =>
        .of_false
      · exact fun _ t ht => Bool.noConfusion ht.1
      · rintro e t ⟨u, hu, ht, hshort, -⟩
        exact ⟨_, hu.reports ht, hcausal, hshort, .inr (.inr hrefused)⟩
  | some o =>
    obtain ⟨function, hindex, hfunction⟩ := @index_of_known _ env fuel sock _ _ hop
    rw [hindex]
    refine .bind (hlog _) fun _ => ?_
    refine .bind (Q := fun _ t => Did env s t (xs ++ [.recv sock size (some f.bytes)]))
      (.whenever (fun hnull => ?_) fun _ _ ht => ht) fun _ => ?_
    · rw [f.take_bytes, hindex] at hnull
      cases hnull
    refine .bind (assert_stops.conseq (fun _ ht => ht) (fun _ _ ht => ht.2) ?_) fun _ =>
      .bind ((hfunction stk s _).mono fun e t hR => hR.serverStopped h hop) fun stk' => .ret ?_
    · rintro e t ⟨u, hu, ht, hshort, hfails | hfuel⟩
      · exact Bool.noConfusion hfails
      · exact ⟨_, hu.reports ht, hcausal, hshort, .inr (.inl hfuel)⟩
    · rintro t ⟨hstep, ht⟩
      exact ⟨rfl, reply sock o, ht, h.accepted hop hstep size, by cases o <;> rfl⟩

/-- One pass continues the conversation with a whole message and its reply, or leaves the loop at
the end of the stream. -/
theorem pass_spec (h : Conversation sock stk xs) :
    Triple (Did env s · xs) (pass env fuel sock (callCorrectFunction env fuel) stk)
      (fun next t => ∃ xs', Did env s t xs' ∧
        match next with
        | none => Conversation sock stk xs' ∧ Disconnected ptrSize sock xs'
        | some (map, stk') => map = callCorrectFunction env fuel ∧ Conversation sock stk' xs' ∧
          (received sock xs').length = (received sock xs).length + MESSAGE_SIZE ptrSize)
      (ServerStopped ptrSize env sock (fun _ => fuel < assertDepth) s) := by
  rw [pass]
  refine .bind (Q := fun got t => (∀ buffer ∈ got, buffer.length ≤ MESSAGE_SIZE ptrSize) ∧
    Did env s t (xs ++ [.recv sock (MESSAGE_HEADER_LENGTH + ptrSize) got])) ?_ fun got => ?_
  · rintro u hu
    refine ⟨fun buffer hbuffer => ?_, hu.effect (not_isReport_recv _ _ _) rfl⟩
    obtain ⟨bytes, -, rfl⟩ := Option.map_eq_some_iff.mp hbuffer
    exact (List.length_take_le _ _).trans_eq (size_eq ptrSize)
  refine .of_fact (fun _ ht => ht.1) fun hsize => ?_
  have hcausal := h.causal_recv (MESSAGE_HEADER_LENGTH + ptrSize) got
  have hassert : ∀ b : Bool,
      (b = false →
        Refused ptrSize sock (xs ++ [.recv sock (MESSAGE_HEADER_LENGTH + ptrSize) got])) →
      Triple (fun t => (∀ buffer ∈ got, buffer.length ≤ MESSAGE_SIZE ptrSize) ∧
          Did env s t (xs ++ [.recv sock (MESSAGE_HEADER_LENGTH + ptrSize) got]))
        (assert env fuel b (some (CString.lit "recv() failed")))
        (fun _ t => b = true ∧
          Did env s t (xs ++ [.recv sock (MESSAGE_HEADER_LENGTH + ptrSize) got]))
        (ServerStopped ptrSize env sock (fun _ => fuel < assertDepth) s) := by
    intro b hb
    refine assert_stops.conseq (fun _ ht => ht.2) (fun _ _ ht => ht) ?_
    rintro e t ⟨u, hu, ht, hshort, hfails | hfuel⟩
    · exact ⟨_, hu.reports ht, hcausal, hshort, .inr (.inr (hb hfails))⟩
    · exact ⟨_, hu.reports ht, hcausal, hshort, .inr (.inl hfuel)⟩
  cases got with
  | none =>
    refine .bind (hassert _ fun _ => .inl ⟨_, List.mem_append_right xs (List.mem_singleton_self _)⟩)
      fun _ => .of_fact (fun _ ht => ht.1) fun hreceived => ?_
    simp only [Bool.or_eq_true, beq_iff_eq] at hreceived
    omega
  | some buffer =>
    have hle := hsize buffer rfl
    refine .bind (hassert _ fun hfails => ?_) fun _ => .of_fact (fun _ ht => ht.1) fun hwhole => ?_
    · -- neither nothing nor a whole message
      simp only [Bool.or_eq_false_iff, beq_eq_false_iff_ne, size_eq] at hfails
      exact h.refused (.truncated (by rintro rfl; simp at hfails) (by omega)) _
    simp only [Bool.or_eq_true, beq_iff_eq] at hwhole
    by_cases hnil : (buffer.length : ℤ) = 0
    · rw [if_pos hnil]
      obtain rfl : buffer = [] := List.length_eq_zero_iff.mp (by exact_mod_cast hnil)
      refine .bind (.conseq (log_did _) (fun _ ht => ht.2) (fun _ _ ht => ht) ?_) fun _ => .ret ?_
      · exact fun e t hR => ⟨_, hR.1, hcausal, hR.2.1, hR.2.2.imp_right .inl⟩
      · exact fun t ht => ⟨_, ht, h.disconnected _, xs, rfl⟩
    · rw [if_neg hnil]
      obtain ⟨f, rfl⟩ : ∃ f : Frame ptrSize, f.bytes = buffer :=
        ⟨.ofBytes buffer (by omega), Frame.bytes_ofBytes _ _⟩
      refine .bind (.conseq (processMessage_spec h f _) (fun _ ht => ht.2) (fun _ _ ht => ht)
        fun _ _ hR => hR) fun next => .ret ?_
      rintro t ⟨hmap, ys, ht, hconv, hreceived⟩
      refine ⟨_, ht, hmap, hconv, ?_⟩
      rw [received_append, received_append, received_recv, hreceived, List.append_nil,
        List.length_append, f.length_bytes, size_eq]

/-- The loop goes on until the client has gone, as long as the client is accepted and the passes
last. -/
theorem loop_spec (passes : ℕ) (h : Conversation sock stk xs) :
    Triple (Did env s · xs) (loop env fuel sock passes (callCorrectFunction env fuel) stk)
      (fun stk' t => ∃ xs', Did env s t xs' ∧ Conversation sock stk' xs' ∧
        Disconnected ptrSize sock xs')
      (ServerStopped ptrSize env sock (fun xs' => fuel < assertDepth ∨
        (received sock xs).length + passes * MESSAGE_SIZE ptrSize ≤ (received sock xs').length)
        s) := by
  induction passes generalizing stk xs with
  | zero =>
    exact .stop fun t ht => ⟨xs, ht, h.causal, fun _ => .inr (by omega), .inr (.inl rfl)⟩
  | succ passes ih =>
    rw [loop]
    refine .bind ((pass_spec h).mono ?_) fun next => ?_
    · rintro e t ⟨xs', ht, hcausal, hshort, hcause⟩
      exact ⟨xs', ht, hcausal, fun he => .inl (hshort he), hcause⟩
    cases next with
    | none => exact .ret fun t ht => ht
    | some next =>
      rintro u ⟨xs', hu, hmap, hconv, hlen⟩
      obtain ⟨map, stk'⟩ := next
      subst hmap
      refine (ih hconv).conseq (fun _ ht => ht) (fun _ _ ht => ht) ?_ u hu
      rintro e t ⟨xs'', ht, hcausal, hshort, hcause⟩
      refine ⟨xs'', ht, hcausal, fun he => (hshort he).imp_right fun hle => ?_, hcause⟩
      rw [Nat.succ_mul]
      omega

end Loop

/-! ## Every run -/

/-- The whole server, behind the destructor of its `TerminateOnDestruction`. -/
theorem startExternalShadowStack_spec (env : Env) (fuel passes : ℕ) (sock : ℤ) (s : State) :
    Triple (Did env s · []) (startExternalShadowStack ptrSize env fuel passes sock)
      (fun stk t => ∃ xs, Did env s t xs ∧ Conversation sock stk xs ∧ Disconnected ptrSize sock xs)
      (fun e t => e ≠ .threw ∧ ServerStopped ptrSize env sock (fun xs => fuel < assertDepth ∨
        passes * MESSAGE_SIZE ptrSize ≤ (received sock xs).length) s e t) := by
  refine .onUnwind ((loop_spec passes .nil).mono ?_) ?_
  · rintro e t ⟨xs, ht, hcausal, hshort, hcause⟩
    refine ⟨xs, ht, hcausal, fun he => (hshort he).imp_right fun hle => ?_, hcause⟩
    simpa [received] using hle
  -- the destructor only reports, and it does not return
  refine destructor_spec (R := ServerStopped ptrSize env sock (fun xs => fuel < assertDepth ∨
    passes * MESSAGE_SIZE ptrSize ≤ (received sock xs).length) s) ?_
  rintro u e t ⟨xs, hu, hcausal, -, hcause⟩ ht hshort
  refine ⟨xs, hu.reports ht, hcausal, fun he => .inl (hshort he), ?_⟩
  rcases hcause with himpaired | hthrew | hrefused
  · exact .inl (himpaired.mono ht)
  · cases hthrew
  · exact .inr (.inr hrefused)

/-- What a run of the server from `s` comes to. It returns at the end of the stream, on a
conversation that the server without failures has. It stops with nothing written that it should not
have and not with an exception; the fuel runs out only where there was too little for an assertion,
or fewer passes than messages; and if nothing failed, the client was refused. -/
def Serves (env : Env) (fuel passes : ℕ) (sock : ℤ) (s : State) :
    EStateM.Result Stop State (PointerStack ptrSize) → Prop
  | .ok stk t => ∃ xs, Did env s t xs ∧ Conversation sock stk xs ∧ Disconnected ptrSize sock xs
  | .error e t => e ≠ .threw ∧ ServerStopped ptrSize env sock (fun xs => fuel < assertDepth ∨
      passes * MESSAGE_SIZE ptrSize ≤ (received sock xs).length) s e t

/-- **The server with all that can go wrong in it**, for any client. -/
theorem serves (ptrSize : ℕ) (env : Env) (fuel passes : ℕ) (sock : ℤ) (s : State) :
    Serves env fuel passes sock s
      (startExternalShadowStack ptrSize env fuel passes sock s) := by
  have hspec := @startExternalShadowStack_spec ptrSize env fuel passes sock s
  cases hrun : startExternalShadowStack ptrSize env fuel passes sock s with
  | ok stk t => exact hspec.returned (.refl env s) hrun
  | error e t => exact hspec.stopped (.refl env s) hrun

/-- Until now the server has not written more than it should have. -/
theorem causal_transfers (env : Env) (fuel passes : ℕ) (sock : ℤ) (s : State) :
    Causal ptrSize sock
      (transfers env s (final (startExternalShadowStack ptrSize env fuel passes sock s))) := by
  have hspec := @startExternalShadowStack_spec ptrSize env fuel passes sock s
  cases hrun : startExternalShadowStack ptrSize env fuel passes sock s with
  | ok stk t =>
    obtain ⟨xs, ht, hconv, -⟩ := hspec.returned (.refl env s) hrun
    rw [final, ht.transfers_eq]
    exact hconv.causal
  | error e t =>
    obtain ⟨-, xs, ht, hcausal, -⟩ := hspec.stopped (.refl env s) hrun
    rw [final, ht.transfers_eq]
    exact hcausal

end DrShadowStack.Reporting.Server
