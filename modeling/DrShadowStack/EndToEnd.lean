import DrShadowStack.ClientRun

/-!
# Both parties of external mode

The client's handlers and the server, each with all that can go wrong in it, on one socket. If
handlers have got through their events, the shadow stack accepts the rets among them, whatever has
failed (`endToEnd`). Where nothing fails it is the other way round as well: the handlers get through
whatever the shadow stack accepts, if every `execve` hands the socket on (`getsThrough_iff`).
-/

namespace DrShadowStack.Reporting

open Prog CString Utilities ExternalServer Server

variable {ptrSize : ℕ}

/-- Without rets every event is accepted. -/
theorem run_isSome_of_countP {evs : List (Event ptrSize)} (h : evs.countP Event.isRet = 0)
    (ss : List (AppPc ptrSize)) : (PartialRun.run ShadowStack.step ss evs).isSome := by
  induction evs generalizing ss with
  | nil => rfl
  | cons e evs ih =>
    rw [List.countP_cons] at h
    have he : e.isRet = false := by
      by_contra hret
      simp [hret] at h
    obtain ⟨ss', hss'⟩ := ShadowStack.step_isSome he ss
    rw [PartialRun.run_cons, hss', Option.bind_some]
    exact ih (by omega) ss'

/-- **Answers come from acceptance**: a server that has answered all rets of `evs`, on a part of
their frames, has accepted all of `evs`. -/
theorem run_isSome_of_answers {evs : List (Event ptrSize)} {bytes part : List UInt8}
    (hcarries : Carries bytes evs) (hpart : part <+: bytes) (stk : PointerStack ptrSize)
    (sent : List UInt8)
    (h : sent.length + evs.countP Event.isRet * MESSAGE_SIZE ptrSize ≤
      (sentBy (serve (running stk part sent))).length) :
    (PartialRun.run ShadowStack.step stk evs).isSome := by
  induction evs generalizing bytes part stk sent with
  | nil => rfl
  | cons e evs ih =>
    obtain ⟨after, rest, rfl, hrest⟩ := hcarries.of_cons
    have hlen : (eventFrame after e).bytes.length = MESSAGE_SIZE ptrSize :=
      (eventFrame after e).length_bytes.trans (size_eq ptrSize)
    -- a server that has sent nothing more has no ret to answer
    have hsilent : sentBy (serve (running stk part sent)) = sent →
        (PartialRun.run ShadowStack.step stk (e :: evs)).isSome := by
      intro hsent
      rw [hsent] at h
      refine run_isSome_of_countP ?_ stk
      have hpos := MESSAGE_SIZE_pos ptrSize
      exact (Nat.mul_eq_zero.mp (by omega)).resolve_right hpos.ne'
    rcases Nat.lt_or_ge part.length (MESSAGE_SIZE ptrSize) with hlt | hge
    · refine hsilent ?_
      by_cases hnil : part = []
      · rw [hnil, serve_nil]
        rfl
      · obtain ⟨l, hl, -, hsent, -⟩ : ∃ l, serve (running stk part sent) = .terminated l ∧ _ :=
          serve_offending (.truncated hnil hlt)
        rw [hl]
        exact hsent
    obtain ⟨part', rfl⟩ : (eventFrame after e).bytes <+: part :=
      List.prefix_of_prefix_length_le (List.prefix_append _ rest) hpart (hlen ▸ hge)
    have hpart' : part' <+: rest := (List.prefix_append_right_inj _).mp hpart
    cases hstep : ShadowStack.step stk e with
    | none =>
      refine hsilent ?_
      obtain ⟨map, hpass⟩ : ∃ map, pass (running stk ((eventFrame after e).bytes ++ part') sent) =
          .terminated { map, stk, unread := part', sent } := pass_refused after hstep
      rw [serve_eq, hpass]
      rfl
    | some stk' =>
      rw [PartialRun.run_cons, hstep, Option.bind_some]
      refine ih hrest hpart' stk' (sent ++ ExternalServer.replyTo (ShadowStack.opOf e)) ?_
      rw [serve_frame (op_eventFrame after e) hstep] at h
      have hreply : (ExternalServer.replyTo (ShadowStack.opOf e)).length =
          if e.isRet then MESSAGE_SIZE ptrSize else 0 := by
        rw [replyTo_opOf]
        cases e.isRet <;> simp
      rw [List.length_append, hreply]
      rw [List.countP_cons, Nat.add_mul] at h
      cases hret : e.isRet <;> simp only [hret, if_true, Bool.false_eq_true, if_false] at h ⊢ <;>
        omega

/-- On what a client has done for the events, and a server has done causally, the answers that have
come are those of accepted rets. -/
theorem run_isSome_of_linked {evs : List (Event ptrSize)} {fd sock : ℤ}
    {xs conversation : List Effect} (hcarries : Carries (written fd xs) evs)
    (hanswers : (received fd xs).length = evs.countP Event.isRet * MESSAGE_SIZE ptrSize)
    (hcausal : Causal ptrSize sock conversation)
    (hup : received sock conversation <+: written fd xs)
    (hdown : received fd xs <+: written sock conversation) :
    (PartialRun.run ShadowStack.step [] evs).isSome := by
  have hsent := (hdown.trans (hcausal conversation List.prefix_rfl)).length_le
  rw [hanswers] at hsent
  refine run_isSome_of_answers hcarries hup [] [] ?_
  rw [List.length_nil, Nat.zero_add]
  exact hsent

/-- **External mode with all that can go wrong in both parties.** At any time, if the client's
handlers have got through the events, the shadow stack accepts every ret among them. Of the socket
it is used that either party has received a prefix of what the other one has written. -/
theorem endToEnd {env env' : Env} {fuel fuel' passes : ℕ} {around : Surroundings ptrSize}
    {c c' : ExternalSS.Client} {sock : ℤ} {s s' t : State} {evs : List (Event ptrSize)}
    {conversation : List Effect} (hc : c.Ready) (hfd : ¬env.IsReportFd c.sock)
    (hclient : External.runEvents env fuel around c evs s = .ok c' t)
    (hserver : conversation <+: transfers env' s'
      (final (startExternalShadowStack ptrSize env' fuel' passes sock s')))
    (hup : received sock conversation <+: written c.sock (transfers env s t))
    (hdown : received c.sock (transfers env s t) <+: written sock conversation) :
    ∃ ss, PartialRun.run ShadowStack.step [] evs = some ss := by
  obtain ⟨-, -, ys, hys, hexchanged⟩ :=
    (External.runEvents_did hc hfd evs).returned (.refl env s) hclient
  rw [List.nil_append] at hys
  rw [hys.transfers_eq] at hup hdown
  have hcausal : Causal ptrSize sock (transfers env' s' _) :=
    causal_transfers env' fuel' passes sock s'
  exact Option.isSome_iff_exists.mp (run_isSome_of_linked hexchanged.carries
    hexchanged.length_received (hcausal.mono hserver) hup hdown)

/-- The messages of a call and of the ret that matches it. -/
def callAndRetMessages : List (List UInt8) :=
  [ExternalSS.onCall (5 : AppPc 8), ExternalSS.onRet (5 : AppPc 8)]

theorem endToEnd_callAndRet :
    ∃ ss, PartialRun.run ShadowStack.step [] [.call (5 : AppPc 8), .ret 5] = some ss :=
  @endToEnd 8 (offered [[], [], Message.Continue.message 8]) (offered callAndRetMessages) 1 1 3
    noImages connectedClient connectedClient 7 forked forked _ _ _ ⟨by decide, by decide⟩
    (by decide) (by rfl) List.prefix_rfl (by decide) (by decide)

/-! ## Where nothing fails -/

/-- What the client's handlers have done besides reporting. -/
def clientTransfers (env : Env) (fuel : ℕ) (around : Surroundings ptrSize) (c : ExternalSS.Client)
    (evs : List (Event ptrSize)) (s : State) : List Effect :=
  transfers env s (final (External.runEvents env fuel around c evs s))

/-- What the server has done besides reporting. -/
def serverTransfers (ptrSize : ℕ) (env : Env) (fuel passes : ℕ) (sock : ℤ) (s : State) :
    List Effect :=
  transfers env s (final (startExternalShadowStack ptrSize env fuel passes sock s))

/-- Nothing has failed that the client's handlers rest on, in the process and in the start of its
images. -/
structure External.Unfailing (env : Env) (fuel : ℕ) (around : Surroundings ptrSize)
    (c : ExternalSS.Client) (evs : List (Event ptrSize)) (s : State) : Prop where
  depth : assertDepth ≤ fuel
  process : ¬Impaired env s (final (External.runEvents env fuel around c evs s))
  starts : ∀ i, ((around.answers i).opens && (around.answers i).drmgrInit &&
    (around.answers i).strdup) = true

/-- Nothing has failed that the server rests on, and it was not out of passes. -/
structure Server.Unfailing (ptrSize : ℕ) (env : Env) (fuel passes : ℕ) (sock : ℤ) (s : State) :
    Prop where
  depth : assertDepth ≤ fuel
  process : ¬Impaired env s (final (startExternalShadowStack ptrSize env fuel passes sock s))
  receives : ∀ size, .recv sock size none ∉ serverTransfers ptrSize env fuel passes sock s
  passes : (received sock (serverTransfers ptrSize env fuel passes sock s)).length <
    passes * MESSAGE_SIZE ptrSize

/-- The server answers the events that the shadow stack accepts. -/
theorem start_of_carries {bytes : List UInt8} {evs : List (Event ptrSize)}
    {ss : List (AppPc ptrSize)} (h : Carries bytes evs)
    (hrun : PartialRun.run ShadowStack.step [] evs = some ss) :
    ExternalServer.startExternalShadowStack ptrSize bytes =
      .returned (running ss [] (continues ptrSize (evs.countP Event.isRet))) := by
  obtain ⟨frames, rfl, rfl⟩ := h
  have hdenotes : Denotes (frames.map fun w => eventFrame w.1 w.2)
      ((frames.map Prod.snd).map ShadowStack.opOf) ss :=
    ⟨map_op_eventFrame frames, by rwa [← ShadowStack.run_eq]⟩
  have hrets : retFrames (frames.map fun w => eventFrame w.1 w.2) =
      (frames.map Prod.snd).countP Event.isRet := by
    rw [retFrames, List.countP_map, List.countP_map]
    congr 1
    funext w
    show ((eventFrame w.1 w.2).header == Message.Ret.header.chars) = w.2.isRet
    rw [← isAValid_ret_eventFrame w.1 w.2, Message.isAValid, Frame.take_bytes]
  rw [start_of_denotes hdenotes, hrets]

/-- The server with all that can go wrong in it, where nothing has: it has answered the events that
it received, if the shadow stack accepts them. -/
theorem written_of_unfailing {env : Env} {fuel passes : ℕ} {sock : ℤ} {s : State}
    {evs : List (Event ptrSize)} {ss : List (AppPc ptrSize)}
    (h : Server.Unfailing ptrSize env fuel passes sock s)
    (hcarries : Carries (received sock (serverTransfers ptrSize env fuel passes sock s)) evs)
    (hrun : PartialRun.run ShadowStack.step [] evs = some ss) :
    written sock (serverTransfers ptrSize env fuel passes sock s) =
      continues ptrSize (evs.countP Event.isRet) := by
  have hserves := serves ptrSize env fuel passes sock s
  have hstart := start_of_carries hcarries hrun
  have hprocess := h.process
  have hreceives := h.receives
  have hpasses := h.passes
  rw [serverTransfers] at hcarries hstart hreceives hpasses ⊢
  cases hresult : startExternalShadowStack ptrSize env fuel passes sock s with
  | ok stk t =>
    rw [hresult] at hserves hstart
    obtain ⟨xs, ht, hconv, -⟩ := hserves
    rw [final, ht.transfers_eq] at hstart ⊢
    rw [hconv.served] at hstart
    exact congrArg Loop.sent (Ended.returned.inj hstart)
  | error e t =>
    -- each cause is a failure, or a refusal of what is accepted
    rw [hresult] at hserves hstart hprocess hreceives hpasses
    obtain ⟨-, xs, ht, -, hshort, hcause⟩ := hserves
    rw [final, ht.transfers_eq] at hstart hreceives hpasses
    have hdepth := h.depth
    rcases hcause with himpaired | hfuel | ⟨size, hrecv⟩ | ⟨l, hl⟩
    · exact absurd himpaired hprocess
    · rcases hshort hfuel with hlt | hle
      · omega
      · omega
    · exact absurd hrecv (hreceives size)
    · rw [hl] at hstart
      cases hstart

/-- The whole frame of a ret behind those of the events that were handled. -/
theorem External.Exchanged.carries_asked {sock : ℤ} {evs : List (Event ptrSize)} {ys : List Effect}
    (h : External.Exchanged sock evs ys) (a : AppPc ptrSize) (got : Option (List UInt8)) :
    Carries (written sock (ys ++ [.write sock (ExternalSS.onRet a) (MESSAGE_SIZE ptrSize),
      .recv sock (MESSAGE_SIZE ptrSize) got])) (evs ++ [.ret a]) := by
  have hlen : (ExternalSS.onRet a).length = MESSAGE_SIZE ptrSize :=
    length_sendMsgWith Message.Ret (LittleEndian.length_store a)
  rw [List.append_cons, written_append, written_recv, List.append_nil, written_append,
    written_of_length hlen]
  exact h.carries.concat (fun _ => 0) (.ret a)

theorem length_continues (n : ℕ) :
    (continues ptrSize n).length = n * MESSAGE_SIZE ptrSize := by
  simp [continues]

/-- The last of the answers that were received, if they are all those that a server has sent. -/
theorem External.Exchanged.answer_eq {sock : ℤ} {evs : List (Event ptrSize)} {ys : List Effect}
    {a : AppPc ptrSize} {got : Option (List UInt8)} (h : External.Exchanged sock evs ys)
    (hreceived : received sock (ys ++
      [.write sock (ExternalSS.onRet a) (MESSAGE_SIZE ptrSize),
        .recv sock (MESSAGE_SIZE ptrSize) got]) =
      continues ptrSize ((evs ++ [Event.ret a]).countP Event.isRet)) :
    got = some (Message.Continue.message ptrSize) := by
  have hcount : (evs ++ [Event.ret a]).countP Event.isRet = evs.countP Event.isRet + 1 := by
    rw [List.countP_append]
    rfl
  rw [hcount, continues, List.replicate_succ', List.flatten_append, List.flatten_singleton,
    ← continues, received_append] at hreceived
  obtain ⟨-, hlast⟩ := List.append_inj hreceived (h.length_received.trans (length_continues _).symm)
  rw [← List.singleton_append, received_append, received_write, List.nil_append] at hlast
  cases got with
  | none =>
    have hlen := congrArg List.length hlast
    rw [received_recv_none, length_message, List.length_nil] at hlen
    exact absurd hlen (MESSAGE_SIZE_pos ptrSize).ne
  | some buffer => rw [← hlast, received_recv]

/-- Handlers that have got through an `execve` have found a variable to carry the socket. -/
theorem External.Exchanged.inheritable {sock : ℤ} {evs : List (Event ptrSize)} {ys : List Effect}
    (h : External.Exchanged sock evs ys) :
    ∀ environ, .execve environ ∈ evs → External.Inheritable environ := by
  induction h with
  | nil => simp
  | cons he _ ih =>
    intro environ hmem
    rcases List.mem_cons.mp hmem with rfl | hmem
    · cases he with
      | execve after hinheritable => exact hinheritable
    · exact ih environ hmem

/-- **No false alarm.** Where nothing fails in either process, and all that either has written has
come to the other one, the client's handlers get through exactly the events that the shadow stack
accepts and whose `execve`s hand the socket on. -/
theorem getsThrough_iff {env env' : Env} {fuel fuel' passes : ℕ} {around : Surroundings ptrSize}
    {c : ExternalSS.Client} {sock : ℤ} {s s' : State} {evs : List (Event ptrSize)} (hc : c.Ready)
    (hfd : ¬env.IsReportFd c.sock) (hclient : External.Unfailing env fuel around c evs s)
    (hserver : Server.Unfailing ptrSize env' fuel' passes sock s')
    (hup : received sock (serverTransfers ptrSize env' fuel' passes sock s') =
      written c.sock (clientTransfers env fuel around c evs s))
    (hdown : received c.sock (clientTransfers env fuel around c evs s) =
      written sock (serverTransfers ptrSize env' fuel' passes sock s')) :
    (∃ c' t, External.runEvents env fuel around c evs s = .ok c' t) ↔
      (PartialRun.run ShadowStack.step [] evs).isSome ∧
        ∀ environ, .execve environ ∈ evs → External.Inheritable environ := by
  have hsends := @External.sendsOrStops ptrSize env fuel around c hc hfd evs s
  rw [clientTransfers] at hup hdown
  constructor
  · rintro ⟨c', t, hrun⟩
    rw [hrun] at hsends hup hdown
    obtain ⟨-, -, ys, ht, hexchanged⟩ := hsends
    rw [final, ht.transfers_eq] at hup hdown
    refine ⟨?_, hexchanged.inheritable⟩
    exact run_isSome_of_linked hexchanged.carries hexchanged.length_received
      (causal_transfers env' fuel' passes sock s') (hup ▸ List.prefix_rfl)
      (hdown ▸ List.prefix_rfl)
  · rintro ⟨haccepted, hinheritable⟩
    have hprocess := hclient.process
    cases hrun : External.runEvents env fuel around c evs s with
    | ok c' t => exact ⟨c', t, rfl⟩
    | error e t =>
      exfalso
      rw [hrun] at hsends hup hdown hprocess
      obtain ⟨handled, ev, rest, ys, rfl, hexchanged, hshort, zs, ht, -, hcause⟩ := hsends
      rw [final, ht.transfers_eq] at hup hdown
      have hdepth := hclient.depth
      rcases hcause with himpaired | hfuel | hobstructed
      · exact hprocess himpaired
      · exact absurd (hshort hfuel) (by omega)
      cases hobstructed with
      | environ after hnot => exact hnot (hinheritable _ (by simp))
      | start after i hstart =>
        rw [hclient.starts i] at hstart
        cases hstart
      | @answer a got hrefused =>
        rw [List.append_cons] at haccepted
        obtain ⟨ss, hss⟩ := Option.isSome_iff_exists.mp
          (PartialRun.run_isSome_of_prefix (List.prefix_append _ rest) haccepted)
        have hcarries := hexchanged.carries_asked a got
        rw [← hup] at hcarries
        rw [written_of_unfailing hserver hcarries hss] at hdown
        obtain rfl := hexchanged.answer_eq hdown
        exact Bool.noConfusion ((hrefused _ rfl).symm.trans recvMsg_continue)

/-- The frames of a call and of a ret to another address. -/
def refusedMessages : List (List UInt8) :=
  [ExternalSS.onCall (5 : AppPc 8), ExternalSS.onRet (6 : AppPc 8)]

theorem unimpaired_offered {messages : List (List UInt8)} {s t : State}
    (h : t.trace.all Effect.isComplete) : ¬Impaired (offered messages) s t :=
  not_impaired (fun _ => rfl) (fun _ => (by decide : (0 : ℤ) ≠ -1)) h

/-- An array that the program may hand to an `execve`. -/
def inheritedEnviron : Environ :=
  [Environ.entry DR_SS_ENV_SOCK (CString.lit "/tmp/s"), Environ.entry DR_SS_ENV_FD CString.empty]

/-- A call, the ret that matches it, and an `execve`. -/
def throughEvents : List (Event 8) := [.call 5, .ret 5, .execve inheritedEnviron]

/-- The frames of these events. -/
def throughMessages : List (List UInt8) :=
  callAndRetMessages ++ [[], ExternalSS.execveMsg 8 fun _ => 0]

theorem through_transfers :
    serverTransfers 8 (offered throughMessages) 12 4 3 forked =
      [.recv 3 12 (some (ExternalSS.onCall (5 : AppPc 8))),
        .recv 3 12 (some (ExternalSS.onRet (5 : AppPc 8))),
        .write 3 (Message.Continue.message 8) 12,
        .recv 3 12 (some (ExternalSS.execveMsg 8 fun _ => 0)), .recv 3 12 (some [])] := by
  decide +kernel

/-- A server that accepts the events, and one that terminates on the ret of another call, where the
client finds its connection closed. -/
theorem getsThrough_iff_offered :
    (∃ c' t, External.runEvents (offered [[], [], Message.Continue.message 8]) 12 noImages
        connectedClient throughEvents forked = .ok c' t) ∧
      ¬∃ c' t, External.runEvents (offered []) 12 noImages connectedClient
        [.call (5 : AppPc 8), .ret 6] forked = .ok c' t := by
  constructor
  · have hclient : External.Unfailing (offered [[], [], Message.Continue.message 8]) 12 noImages
        connectedClient throughEvents forked :=
      ⟨le_rfl, unimpaired_offered (by decide +kernel), fun _ => rfl⟩
    have hserver : Server.Unfailing 8 (offered throughMessages) 12 4 3 forked := by
      refine ⟨le_rfl, unimpaired_offered (by decide +kernel), fun size => ?_, by decide +kernel⟩
      rw [through_transfers]
      simp
    refine (getsThrough_iff ⟨by decide, by decide⟩ (by decide) hclient hserver ?_ ?_).mpr
      ⟨by decide, ?_⟩
    · decide +kernel
    · decide +kernel
    · rintro environ henviron
      obtain rfl : environ = inheritedEnviron := by simpa [throughEvents] using henviron
      exact ⟨by decide, by decide⟩
  · have htransfers : serverTransfers 8 (offered refusedMessages) 12 3 3 forked =
        refusedMessages.map fun m => .recv 3 12 (some m) := by decide +kernel
    have hclient : External.Unfailing (offered []) 12 noImages connectedClient
        [.call (5 : AppPc 8), .ret 6] forked :=
      ⟨le_rfl, unimpaired_offered (by decide +kernel), fun _ => rfl⟩
    have hserver : Server.Unfailing 8 (offered refusedMessages) 12 3 3 forked := by
      refine ⟨le_rfl, unimpaired_offered (by decide +kernel), ?_, ?_⟩
      · simp [htransfers]
      · rw [htransfers]
        decide
    refine fun h => absurd ((getsThrough_iff ⟨by decide, by decide⟩ (by decide) hclient hserver ?_
      ?_).mp h).1 (by decide)
    · decide +kernel
    · decide +kernel

end DrShadowStack.Reporting
