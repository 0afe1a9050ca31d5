import DrShadowStack.InternalSS
import DrShadowStack.Wire

/-!
# External mode agrees with internal mode

A protected process of one thread and the server, with the bytes in flight between them. The client
runs ahead of the server on calls, signals and `execve`, which it does not wait for, and meets it at
every ret. A schedule says which of the two makes the next step.

## Shape of the proof

The events in flight lead from the server's stack to the stack of internal mode on what the program
has executed. `Phase` adds what the client is waiting for: for nothing, and then no ret is in
flight; for a `Ret` in flight, behind which there is nothing; for a `Continue` that is there; or for
none, the server having terminated the group. Both parties keep this (`Invariant.step`).
-/

namespace DrShadowStack.ExternalMode

open ExternalSS ExternalServer ShadowStack

variable {ptrSize : ℕ}

/-- The process, the server and what is in flight between them. -/
structure System (ptrSize : ℕ) where
  /-- The events that the program has yet to raise. -/
  todo : List (Event ptrSize)
  /-- The events that the program has executed. -/
  executed : List (Event ptrSize)
  client : Client
  /-- The target of the ret whose handler waits for `Continue`. -/
  waiting : Option (AppPc ptrSize)
  toServer : List UInt8
  toClient : List UInt8
  map : HandlerMap ptrSize
  stk : PointerStack ptrSize
  /-- The rets that the server has checked and accepted. -/
  approved : List (AppPc ptrSize)
  /-- The group has been terminated. -/
  terminated : Bool

/-- Who makes the next step: the client, with the memory behind the literals of its messages and
what the kernel would answer if it connected, or the server. -/
inductive Party
  | client (after : ℕ → UInt8) (answers : Answers)
  | server

/-- The rest of an event's handler, its frame having been written. The image that an `execve` starts
runs its `setup`; the checks of `dr_client_main` in front of it are the same in both modes. -/
def finishHandler (answers : Answers) (s : System ptrSize) (e : Event ptrSize) : System ptrSize :=
  match e with
  | .ret t => { s with waiting := some t }
  | .execve env =>
    match onExecve s.client env true with
    | .handedOn env =>
      match setup env answers with
      | some (client, _) => { s with client, executed := s.executed ++ [e] }
      | none => { s with terminated := true }
    -- a NULL pointer that is dereferenced ends the process as a failed assertion does
    | _ => { s with terminated := true }
  | _ => { s with executed := s.executed ++ [e] }

/-- A step of the client, whose socket is connected as descriptor `fd`: the handler of the next
event, or the end of the ret handler that waits. `none` while it waits for bytes and when there are
no more events. -/
def clientStep (fd : ℤ) (after : ℕ → UInt8) (answers : Answers) (s : System ptrSize) :
    Option (System ptrSize) :=
  match s.waiting with
  | some t =>
    if s.toClient.length < MESSAGE_SIZE ptrSize then none
    else
      let (buffer, toClient) := recvWaitAll (MESSAGE_SIZE ptrSize) s.toClient
      if recvMsg Message.Continue ptrSize buffer then
        some { s with waiting := none, toClient, executed := s.executed ++ [.ret t] }
      else some { s with toClient, terminated := true }
  | none =>
    match s.todo with
    | [] => none
    | e :: todo =>
      -- `write` fails on any other descriptor, and the assertion behind it terminates the group
      if s.client.sock ≠ fd then some { s with terminated := true }
      else
        some (finishHandler answers { s with todo, toServer := s.toServer ++ frame after e } e)

/-- The targets of the rets among the frames that the server has received. -/
def retTargets (ptrSize : ℕ) (buffer : List UInt8) : List (AppPc ptrSize) :=
  if Message.isAValid Message.Ret buffer then
    [readPointer ptrSize (buffer.drop MESSAGE_HEADER_LENGTH)]
  else []

/-- A step of the server: one pass of its loop, once a whole frame is there. -/
def serverStep (s : System ptrSize) : Option (System ptrSize) :=
  let numBytes := MESSAGE_HEADER_LENGTH + ptrSize
  if s.toServer.length < numBytes then none
  else
    match ExternalServer.pass { map := s.map, stk := s.stk, unread := s.toServer, sent := [] } with
    | .again l =>
      some { s with
        map := l.map
        stk := l.stk
        toServer := l.unread
        toClient := s.toClient ++ l.sent
        approved := s.approved ++ retTargets ptrSize (s.toServer.take numBytes) }
    -- the loop is left at the end of the stream only, and here a whole frame is there
    | .left _ => none
    | .terminated l =>
      some { s with
        map := l.map
        stk := l.stk
        toServer := l.unread
        toClient := s.toClient ++ l.sent
        terminated := true }

/-- One step of the system, while the group has not been terminated. -/
def step (fd : ℤ) (s : System ptrSize) (party : Party) : Option (System ptrSize) :=
  if s.terminated then none
  else
    match party with
    | .client after answers => clientStep fd after answers s
    | .server => serverStep s

/-- Before the first event. -/
def initial (client : Client) (evs : List (Event ptrSize)) : System ptrSize where
  todo := evs
  executed := []
  client := client
  waiting := none
  toServer := []
  toClient := []
  map := callCorrectFunction
  stk := []
  approved := []
  terminated := false

/-- The targets of the rets among the events. -/
def rets (evs : List (Event ptrSize)) : List (AppPc ptrSize) :=
  evs.filterMap fun
    | .ret t => some t
    | _ => none

@[simp] theorem rets_append (evs evs' : List (Event ptrSize)) :
    rets (evs ++ evs') = rets evs ++ rets evs' :=
  List.filterMap_append

/-- The event of a single-event list without rets is not a ret. -/
theorem isRet_of_rets {e : Event ptrSize} (h : rets [e] = []) : e.isRet = false := by
  cases e with
  | ret t => cases h
  | _ => rfl

theorem rets_of_isRet {e : Event ptrSize} (h : e.isRet = false) : rets [e] = [] := by
  cases e with
  | ret t => cases h
  | _ => rfl

theorem eq_ret_of_isRet {e : Event ptrSize} (h : e.isRet = true) : ∃ t, e = .ret t := by
  cases e with
  | ret t => exact ⟨t, rfl⟩
  | _ => cases h

/-! ## The invariant -/

/-- What the client waits for; `ss` is the stack of internal mode on what was executed. -/
inductive Phase (s : System ptrSize) (ss : InternalSS.Stack ptrSize) : Prop
  /-- It waits for nothing, and no ret is in flight. -/
  | ahead (flight : List (Event ptrSize)) (terminated : s.terminated = false)
      (map : s.map = callCorrectFunction) (waiting : s.waiting = none) (toClient : s.toClient = [])
      (toServer : Carries s.toServer flight) (norets : rets flight = [])
      (stk : PartialRun.run ShadowStack.step s.stk flight = some ss)
      (approved : s.approved = rets s.executed)
  /-- It waits for the answer to the last frame in flight. -/
  | asked (t : AppPc ptrSize) (flight : List (Event ptrSize)) (terminated : s.terminated = false)
      (map : s.map = callCorrectFunction) (waiting : s.waiting = some t)
      (toClient : s.toClient = []) (toServer : Carries s.toServer (flight ++ [.ret t]))
      (norets : rets flight = [])
      (stk : PartialRun.run ShadowStack.step s.stk flight = some ss)
      (approved : s.approved = rets s.executed)
  /-- The answer is there, and nothing else. -/
  | answered (t : AppPc ptrSize) (terminated : s.terminated = false)
      (map : s.map = callCorrectFunction) (waiting : s.waiting = some t)
      (toClient : s.toClient = Message.Continue.message ptrSize) (toServer : s.toServer = [])
      (stk : ShadowStack.step ss (.ret t) = some s.stk)
      (approved : s.approved = rets s.executed ++ [t])
  /-- The server has refused the ret. -/
  | refused (t : AppPc ptrSize) (terminated : s.terminated = true) (waiting : s.waiting = some t)
      (toClient : s.toClient = []) (toServer : s.toServer = []) (stk : s.stk = ss)
      (refusal : ShadowStack.step ss (.ret t) = none) (approved : s.approved = rets s.executed)

/-- The invariant of a run on the events `evs`. -/
structure Invariant (fd : ℤ) (evs : List (Event ptrSize)) (s : System ptrSize) : Prop where
  events : evs = s.executed ++ (s.waiting.toList.map Event.ret ++ s.todo)
  ready : s.client.Ready
  sock : s.client.sock = fd
  phase : ∃ ss, PartialRun.run ShadowStack.step [] s.executed = some ss ∧ Phase s ss

/-! ## What the parties do -/

section Steps

variable {fd : ℤ} {after : ℕ → UInt8} {answers : Answers} {s : System ptrSize}
  {e : Event ptrSize} {t : AppPc ptrSize} {todo : List (Event ptrSize)} {rest : List UInt8}

/-- The handler of an event other than a ret writes its frame and is done; an image that an `execve`
starts uses the same descriptor. -/
theorem clientStep_message (hc : s.client.Ready) (hsock : s.client.sock = fd)
    (hwaiting : s.waiting = none) (htodo : s.todo = e :: todo) (hret : e.isRet = false)
    (henv : ∀ env, e = .execve env → HoldsFd env) :
    ∃ client : Client, client.Ready ∧ client.sock = fd ∧ clientStep fd after answers s =
      some { s with
        todo, client, toServer := s.toServer ++ frame after e, executed := s.executed ++ [e] } := by
  simp only [clientStep, hwaiting, htodo, hsock, ne_eq, not_true, if_false]
  cases e with
  | call a => exact ⟨s.client, hc, hsock, rfl⟩
  | ret t => cases hret
  | signal => exact ⟨s.client, hc, hsock, rfl⟩
  | execve env =>
    obtain ⟨env', honto, -, -, hready, hsetup⟩ := hc.execve (henv env rfl) true
    refine ⟨_, hready, hsock, ?_⟩
    simp only [finishHandler, honto, hsetup]

/-- The ret handler writes its frame and waits. -/
theorem clientStep_ret (hsock : s.client.sock = fd) (hwaiting : s.waiting = none)
    (htodo : s.todo = .ret t :: todo) :
    clientStep fd after answers s =
      some { s with
        todo, toServer := s.toServer ++ frame after (.ret t), waiting := some t } := by
  simp only [clientStep, hwaiting, htodo, hsock, ne_eq, not_true, if_false, finishHandler]

theorem clientStep_blocked (hwaiting : s.waiting = some t) (htoClient : s.toClient = []) :
    clientStep fd after answers s = none := by
  have hpos := MESSAGE_SIZE_pos ptrSize
  simp only [clientStep, hwaiting, htoClient, List.length_nil, if_pos hpos]

/-- The ret handler returns on a `Continue`. -/
theorem clientStep_answered (hwaiting : s.waiting = some t)
    (htoClient : s.toClient = Message.Continue.message ptrSize) :
    clientStep fd after answers s =
      some { s with waiting := none, toClient := [], executed := s.executed ++ [.ret t] } := by
  have hlen : (Message.Continue.message ptrSize).length = MESSAGE_SIZE ptrSize := length_message _
  have hrecv : recvWaitAll (MESSAGE_SIZE ptrSize) s.toClient =
      (Message.Continue.message ptrSize, []) := by
    rw [htoClient, ← recvWaitAll_append hlen, List.append_nil]
  have hge : ¬s.toClient.length < MESSAGE_SIZE ptrSize := by rw [htoClient, hlen]; omega
  simp only [clientStep, hwaiting, if_neg hge, hrecv, recvMsg_continue, if_true]

theorem retTargets_eventFrame (after : ℕ → UInt8) (e : Event ptrSize) :
    retTargets ptrSize (eventFrame after e).bytes = rets [e] := by
  rw [retTargets, Message.isAValid, Frame.take_bytes, Frame.drop_bytes, header_eventFrame]
  cases e with
  | call a => rfl
  | ret t =>
    rw [(body_eventFrame after t).2, readPointer,
      List.take_of_length_le (le_of_eq (LittleEndian.length_store t)), LittleEndian.load_store]
    rfl
  | signal => rfl
  | execve env => rfl

theorem serverStep_blocked (h : s.toServer = []) : serverStep s = none := by
  simp [serverStep, h, MESSAGE_HEADER_LENGTH]

/-- What a pass of the loop on the frame of an event makes of the system. -/
theorem serverStep_frame (hmap : s.map = callCorrectFunction)
    (hbytes : s.toServer = (eventFrame after e).bytes ++ rest) :
    serverStep s =
      match ExternalServer.pass (running s.stk ((eventFrame after e).bytes ++ rest) []) with
      | .again l =>
        some { s with
          map := l.map
          stk := l.stk
          toServer := l.unread
          toClient := s.toClient ++ l.sent
          approved := s.approved ++ rets [e] }
      | .left _ => none
      | .terminated l =>
        some { s with
          map := l.map
          stk := l.stk
          toServer := l.unread
          toClient := s.toClient ++ l.sent
          terminated := true } := by
  have hlen := (eventFrame after e).length_bytes
  have hge : ¬s.toServer.length < MESSAGE_HEADER_LENGTH + ptrSize := by
    rw [hbytes, List.length_append]
    omega
  have htake : s.toServer.take (MESSAGE_HEADER_LENGTH + ptrSize) = (eventFrame after e).bytes := by
    rw [hbytes, ← hlen, List.take_left]
  unfold serverStep
  dsimp only
  rw [if_neg hge, htake, retTargets_eventFrame, hbytes, hmap]
  rfl

/-- The server performs an event that the stack accepts, and answers it if it is a ret. -/
theorem serverStep_accepted {stk' : PointerStack ptrSize} (hmap : s.map = callCorrectFunction)
    (hbytes : s.toServer = (eventFrame after e).bytes ++ rest)
    (hstep : ShadowStack.step s.stk e = some stk') :
    serverStep s =
      some { s with
        stk := stk'
        toServer := rest
        toClient := s.toClient ++ replyTo (opOf e)
        approved := s.approved ++ rets [e] } := by
  rw [serverStep_frame hmap hbytes, pass_accepted after hstep]
  simp only [running, hmap, List.nil_append]

/-- The server terminates the group on an event that the stack refuses. -/
theorem serverStep_refused (hmap : s.map = callCorrectFunction)
    (hbytes : s.toServer = (eventFrame after e).bytes ++ rest)
    (hstep : ShadowStack.step s.stk e = none) :
    ∃ map, serverStep s = some { s with map, toServer := rest, terminated := true } := by
  obtain ⟨map, hpass⟩ : ∃ map, ExternalServer.pass
      (running s.stk ((eventFrame after e).bytes ++ rest) []) =
        .terminated { map, stk := s.stk, unread := rest, sent := [] } := pass_refused after hstep
  refine ⟨map, ?_⟩
  rw [serverStep_frame hmap hbytes, hpass]
  simp only [List.append_nil]

/-- A whole frame in flight lets the server make a step. -/
theorem serverStep_ready {evs : List (Event ptrSize)} (hmap : s.map = callCorrectFunction)
    (hflight : Carries s.toServer (e :: evs)) : serverStep s ≠ none := by
  obtain ⟨after, rest, hbytes, -⟩ := hflight.of_cons
  cases hstep : ShadowStack.step s.stk e with
  | none =>
    obtain ⟨map, hserver⟩ := serverStep_refused hmap hbytes hstep
    rw [hserver]
    exact Option.some_ne_none _
  | some stk' =>
    rw [serverStep_accepted hmap hbytes hstep]
    exact Option.some_ne_none _

/-- A message that is not a ret is performed without an answer. -/
theorem serverStep_message {flight behind : List (Event ptrSize)} {ss : List (AppPc ptrSize)}
    (hmap : s.map = callCorrectFunction) (hflight : Carries s.toServer (e :: flight ++ behind))
    (hnorets : rets (e :: flight) = [])
    (hstk : PartialRun.run ShadowStack.step s.stk (e :: flight) = some ss) :
    ∃ stk' rest, serverStep s = some { s with stk := stk', toServer := rest } ∧
      Carries rest (flight ++ behind) ∧ rets flight = [] ∧
      PartialRun.run ShadowStack.step stk' flight = some ss := by
  obtain ⟨after, rest, hbytes, hrest⟩ := hflight.of_cons
  rw [PartialRun.run_cons, Option.bind_eq_some_iff] at hstk
  obtain ⟨stk', hstk', hrun⟩ := hstk
  obtain ⟨hret, hrets⟩ := List.append_eq_nil_iff.mp ((rets_append [e] flight).symm.trans hnorets)
  refine ⟨stk', rest, ?_, hrest, hrets, hrun⟩
  rw [serverStep_accepted hmap hbytes hstk', replyTo_opOf, isRet_of_rets hret, hret]
  simp

end Steps

/-! ## The invariant is kept -/

section Invariant

variable {fd : ℤ} {evs : List (Event ptrSize)} {s s' : System ptrSize}

theorem Invariant.initial {client : Client} (hc : client.Ready) (hsock : client.sock = fd) :
    Invariant fd evs (ExternalMode.initial client evs) :=
  ⟨rfl, hc, hsock, [], rfl, .ahead [] rfl rfl rfl rfl .nil rfl rfl rfl⟩

/-- The client keeps the invariant. -/
theorem Invariant.client (h : Invariant fd evs s)
    (henv : ∀ env, .execve env ∈ evs → HoldsFd env) {after : ℕ → UInt8} {answers : Answers}
    (hterm : s.terminated = false) (hstep : clientStep fd after answers s = some s') :
    Invariant fd evs s' := by
  obtain ⟨hevents, hready, hsock, ss, hrun, hphase⟩ := h
  cases hphase with
  | ahead flight _ hmap hwaiting htoClient htoServer hnorets hstk happroved =>
    cases htodo : s.todo with
    | nil => simp [clientStep, hwaiting, htodo] at hstep
    | cons e todo =>
      -- a message goes behind those in flight; a ret goes behind them and makes the client wait
      rw [hwaiting, htodo] at hevents
      cases hret : e.isRet with
      | false =>
        have hfd : ∀ env, e = .execve env → HoldsFd env := by
          rintro env rfl
          exact henv env (by simp [hevents])
        obtain ⟨client, hready', hsock', hclient⟩ :=
          clientStep_message hready hsock hwaiting htodo hret hfd
        obtain rfl := Option.some.inj (hclient.symm.trans hstep)
        obtain ⟨ss', hss'⟩ := ShadowStack.step_isSome hret ss
        refine ⟨?_, hready', hsock', ss', ?_, .ahead (flight ++ [e]) hterm hmap hwaiting htoClient
          (htoServer.concat after e) ?_ ?_ ?_⟩
        · simp [hevents, hwaiting]
        · rw [PartialRun.run_concat, hrun, Option.bind_some, hss']
        · rw [rets_append, hnorets, rets_of_isRet hret, List.append_nil]
        · rw [PartialRun.run_concat, hstk, Option.bind_some, hss']
        · rw [rets_append, rets_of_isRet hret, List.append_nil]
          exact happroved
      | true =>
        obtain ⟨t, rfl⟩ := eq_ret_of_isRet hret
        rw [clientStep_ret hsock hwaiting htodo] at hstep
        obtain rfl := Option.some.inj hstep
        refine ⟨by simpa using hevents, hready, hsock, ss, hrun, ?_⟩
        exact .asked t flight hterm hmap rfl htoClient (htoServer.concat after _) hnorets hstk
          happroved
  | asked t flight _ _ hwaiting htoClient =>
    rw [clientStep_blocked hwaiting htoClient] at hstep
    cases hstep
  -- the ret executes: internal mode makes the step that the server has made
  | answered t _ hmap hwaiting htoClient htoServer hstk happroved =>
    rw [clientStep_answered hwaiting htoClient] at hstep
    obtain rfl := Option.some.inj hstep
    refine ⟨?_, hready, hsock, s.stk, ?_, .ahead [] hterm hmap rfl rfl ?_ rfl rfl ?_⟩
    · simp [hevents, hwaiting]
    · rw [PartialRun.run_concat, hrun, Option.bind_some, hstk]
    · rw [htoServer]
      exact .nil
    · rw [rets_append]
      exact happroved
  | refused t hterminated =>
    rw [hterm] at hterminated
    cases hterminated

/-- The server keeps the invariant. -/
theorem Invariant.server (h : Invariant fd evs s) (hterm : s.terminated = false)
    (hstep : serverStep s = some s') : Invariant fd evs s' := by
  obtain ⟨hevents, hready, hsock, ss, hrun, hphase⟩ := h
  cases hphase with
  | ahead flight _ hmap hwaiting htoClient htoServer hnorets hstk happroved =>
    cases flight with
    | nil =>
      rw [serverStep_blocked htoServer.eq_nil] at hstep
      cases hstep
    -- the oldest message leaves the flight, and the server's stack makes up for it
    | cons e flight =>
      have hflight : Carries s.toServer (e :: flight ++ []) := by rwa [List.append_nil]
      obtain ⟨stk', rest, hserver, hrest, hrets, hrun'⟩ :=
        serverStep_message hmap hflight hnorets hstk
      obtain rfl := Option.some.inj (hserver.symm.trans hstep)
      rw [List.append_nil] at hrest
      exact ⟨hevents, hready, hsock, ss, hrun,
        .ahead flight hterm hmap hwaiting htoClient hrest hrets hrun' happroved⟩
  | asked t flight _ hmap hwaiting htoClient htoServer hnorets hstk happroved =>
    cases flight with
    | nil =>
      -- the ret itself: the server and internal mode check it against the same stack
      obtain ⟨after, rest, hbytes, hrest⟩ := htoServer.of_cons
      obtain rfl := hrest.eq_nil
      obtain rfl : s.stk = ss := by simpa using hstk
      cases hret : ShadowStack.step s.stk (.ret t) with
      | none =>
        obtain ⟨map, hserver⟩ := serverStep_refused hmap hbytes hret
        obtain rfl := Option.some.inj (hserver.symm.trans hstep)
        exact ⟨hevents, hready, hsock, s.stk, hrun,
          .refused t rfl hwaiting htoClient rfl rfl hret happroved⟩
      | some stk' =>
        rw [serverStep_accepted hmap hbytes hret] at hstep
        obtain rfl := Option.some.inj hstep
        refine ⟨hevents, hready, hsock, s.stk, hrun,
          .answered t hterm hmap hwaiting ?_ rfl hret ?_⟩
        · simp [htoClient, opOf, replyTo]
        · simp [happroved, rets]
    | cons e flight =>
      obtain ⟨stk', rest, hserver, hrest, hrets, hrun'⟩ :=
        serverStep_message hmap htoServer hnorets hstk
      obtain rfl := Option.some.inj (hserver.symm.trans hstep)
      exact ⟨hevents, hready, hsock, ss, hrun,
        .asked t flight hterm hmap hwaiting htoClient hrest hrets hrun' happroved⟩
  | answered t _ hmap hwaiting htoClient htoServer =>
    rw [serverStep_blocked htoServer] at hstep
    cases hstep
  | refused t hterminated =>
    rw [hterm] at hterminated
    cases hterminated

/-- A step of either party keeps the invariant. -/
theorem Invariant.step (h : Invariant fd evs s) (henv : ∀ env, .execve env ∈ evs → HoldsFd env)
    {party : Party} (hstep : ExternalMode.step fd s party = some s') : Invariant fd evs s' := by
  unfold ExternalMode.step at hstep
  split at hstep
  · cases hstep
  · next hterm =>
    rw [Bool.not_eq_true] at hterm
    cases party with
    | client after answers => exact h.client henv hterm hstep
    | server => exact h.server hterm hstep

end Invariant

/-! ## Agreement -/

/-- What a state of external mode has to do with internal mode. -/
structure AgreesWithInternal (fd : ℤ) (evs : List (Event ptrSize)) (s : System ptrSize) : Prop where
  /-- The program has executed the first of its events, and internal mode lets them execute. -/
  executed : s.executed <+: evs ∧ (PartialRun.run InternalSS.step [] s.executed).isSome
  /-- If the group was terminated, it was at the ret at which internal mode terminates it. -/
  terminated : s.terminated = true → ∃ t, s.executed ++ [.ret t] <+: evs ∧
    PartialRun.run InternalSS.step [] (s.executed ++ [.ret t]) = none
  /-- When no message is in flight, the server's stack is the stack of internal mode. -/
  idle : s.toServer = [] → s.toClient = [] →
    PartialRun.run InternalSS.step [] s.executed = some s.stk
  /-- At most one `Continue` is in flight. -/
  oneContinue : s.toClient = [] ∨ s.toClient = Message.Continue.message ptrSize
  /-- The rets that were executed are the first of those that the server has checked. -/
  checked : rets s.executed <+: s.approved
  /-- When neither party can make a step and the group lives, the program has executed all. -/
  finished : (∀ party, step fd s party = none) → s.terminated = false → s.executed = evs
  /-- When neither party can make a step, the group was terminated exactly if internal mode
  terminates it. -/
  verdict : (∀ party, step fd s party = none) →
    (s.terminated = true ↔ PartialRun.run InternalSS.step [] evs = none)

section Agreement

variable {fd : ℤ} {evs : List (Event ptrSize)} {s : System ptrSize}

theorem Invariant.executed_prefix (h : Invariant fd evs s) : s.executed <+: evs :=
  ⟨_, h.events.symm⟩

/-- A ret that was refused is the next event. -/
theorem Invariant.refused (h : Invariant fd evs s) (hterm : s.terminated = true) :
    ∃ t, s.executed ++ [.ret t] <+: evs ∧
      PartialRun.run ShadowStack.step [] (s.executed ++ [.ret t]) = none := by
  obtain ⟨hevents, -, -, ss, hrun, hphase⟩ := h
  cases hphase with
  | refused t _ hwaiting _ _ hstk hrefusal =>
    refine ⟨t, ⟨s.todo, ?_⟩, ?_⟩
    · simp [hevents, hwaiting]
    · rw [PartialRun.run_concat, hrun, Option.bind_some, hrefusal]
  | _ => simp_all

/-- A party can make a step until everything is executed or the group is terminated. -/
theorem Invariant.finished (h : Invariant fd evs s)
    (henv : ∀ env, .execve env ∈ evs → HoldsFd env)
    (hstuck : ∀ party, ExternalMode.step fd s party = none) (hterm : s.terminated = false) :
    s.executed = evs := by
  have hserver : serverStep s = none := by simpa [ExternalMode.step, hterm] using hstuck .server
  have hclient : clientStep fd (fun _ => 0) ⟨0, false, by decide⟩ s = none := by
    simpa [ExternalMode.step, hterm] using hstuck (.client (fun _ => 0) ⟨0, false, by decide⟩)
  obtain ⟨hevents, hready, hsock, ss, hrun, hphase⟩ := h
  cases hphase with
  | ahead flight _ hmap hwaiting =>
    cases htodo : s.todo with
    | nil => simp [hevents, hwaiting, htodo]
    | cons e todo =>
      cases hret : e.isRet with
      | false =>
        have hfd : ∀ env, e = .execve env → HoldsFd env := by
          rintro env rfl
          exact henv env (by simp [hevents, htodo])
        obtain ⟨client, -, -, hsome⟩ := clientStep_message hready hsock hwaiting htodo hret hfd
        rw [hsome] at hclient
        cases hclient
      | true =>
        obtain ⟨t, rfl⟩ := eq_ret_of_isRet hret
        rw [clientStep_ret hsock hwaiting htodo] at hclient
        cases hclient
  | asked t flight _ hmap hwaiting htoClient htoServer =>
    cases flight with
    | nil => exact (serverStep_ready hmap htoServer hserver).elim
    | cons e flight => exact (serverStep_ready hmap htoServer hserver).elim
  | answered t _ hmap hwaiting htoClient =>
    rw [clientStep_answered hwaiting htoClient] at hclient
    cases hclient
  | refused t hterminated =>
    rw [hterm] at hterminated
    cases hterminated

/-- The invariant is agreement. -/
theorem Invariant.agrees (h : Invariant fd evs s)
    (henv : ∀ env, .execve env ∈ evs → HoldsFd env) : AgreesWithInternal fd evs s := by
  have hrefused := h.refused
  have hfinished := h.finished henv
  obtain ⟨ss, hrun, hphase⟩ := h.phase
  rw [← InternalSS.step_eq_shadowStack] at hrefused hrun
  refine ⟨⟨h.executed_prefix, by rw [hrun, Option.isSome_some]⟩, hrefused, ?_, ?_, ?_,
    hfinished, ?_⟩
  · intro htoServer htoClient
    cases hphase with
    | ahead flight _ _ _ _ hflight _ hstk =>
      rw [htoServer] at hflight
      obtain rfl := hflight.evs_eq_nil
      rw [hrun]
      exact hstk.symm
    | asked t flight _ _ _ _ hflight =>
      rw [htoServer] at hflight
      simpa using hflight.evs_eq_nil
    | answered t _ _ _ hanswer =>
      have hlen : (Message.Continue.message ptrSize).length = MESSAGE_SIZE ptrSize :=
        length_message _
      have hpos := MESSAGE_SIZE_pos ptrSize
      rw [← hanswer, htoClient, List.length_nil] at hlen
      omega
    | refused t _ _ _ _ hstk => rw [hrun, hstk]
  · cases hphase with
    | answered t _ _ _ hanswer => exact .inr hanswer
    | _ => exact .inl (by assumption)
  · cases hphase with
    | answered t _ _ _ _ _ _ happroved => exact ⟨[t], happroved.symm⟩
    | _ => exact (by assumption : s.approved = rets s.executed) ▸ List.prefix_rfl
  · intro hstuck
    constructor
    · intro hterm
      obtain ⟨t, hprefix, hnone⟩ := hrefused hterm
      by_contra hsome
      have hpre := PartialRun.run_isSome_of_prefix hprefix (Option.ne_none_iff_isSome.mp hsome)
      rw [hnone] at hpre
      cases hpre
    · intro hnone
      by_contra hterm
      rw [← hfinished hstuck (by simpa using hterm), hrun] at hnone
      cases hnone

end Agreement

/-! ## Every schedule ends -/

/-- What every step of either party lowers: the room for frames that the events still to come may
write and the server may read, and for the client to wait and the group to be terminated once. -/
def variant (s : System ptrSize) : ℕ :=
  s.todo.length * (MESSAGE_SIZE ptrSize + 2) + s.toServer.length +
    (if s.waiting.isSome then 1 else 0) + if s.terminated then 0 else 1

section Variant

variable {fd : ℤ} {s s' : System ptrSize}

/-- The part of a handler behind its write leaves the events to come and the bytes in flight. -/
theorem finishHandler_todo (answers : Answers) (s : System ptrSize) (e : Event ptrSize) :
    (finishHandler answers s e).todo = s.todo ∧
      (finishHandler answers s e).toServer = s.toServer := by
  unfold finishHandler
  split
  · exact ⟨rfl, rfl⟩
  · split
    · split <;> exact ⟨rfl, rfl⟩
    · exact ⟨rfl, rfl⟩
  · exact ⟨rfl, rfl⟩

theorem variant_clientStep {after : ℕ → UInt8} {answers : Answers} (hterm : s.terminated = false)
    (h : clientStep fd after answers s = some s') : variant s' < variant s := by
  unfold clientStep at h
  split at h
  · next t hwaiting =>
    split at h
    · cases h
    · dsimp only at h
      split at h
      · obtain rfl := Option.some.inj h
        simp [variant, hwaiting, hterm]
      · obtain rfl := Option.some.inj h
        simp [variant, hterm]
  · next hwaiting =>
    split at h
    · cases h
    · next e todo htodo =>
      split at h
      · obtain rfl := Option.some.inj h
        simp [variant, hwaiting, hterm]
      · obtain rfl := Option.some.inj h
        generalize hs : ({ s with todo, toServer := s.toServer ++ frame after e } :
          System ptrSize) = u
        obtain ⟨htodo', htoServer'⟩ := finishHandler_todo answers u e
        have hframe : (frame after e).length = MESSAGE_SIZE ptrSize := by
          rw [length_frame, size_eq]
        have hroom : s.todo.length * (MESSAGE_SIZE ptrSize + 2) =
            todo.length * (MESSAGE_SIZE ptrSize + 2) + MESSAGE_SIZE ptrSize + 2 := by
          rw [htodo, List.length_cons]
          ring
        have hu : u.todo = todo ∧ u.toServer.length = s.toServer.length + MESSAGE_SIZE ptrSize := by
          subst hs
          simp [hframe]
        rw [variant, variant, htodo', htoServer', hu.1, hu.2, hroom, hterm]
        split <;> split <;> simp <;> omega

theorem variant_serverStep (hterm : s.terminated = false) (h : serverStep s = some s') :
    variant s' < variant s := by
  unfold serverStep at h
  dsimp only at h
  split at h
  · cases h
  · split at h
    · next l hpass =>
      obtain rfl := Option.some.inj h
      have hlt := pass_again_unread hpass
      simp only [variant]
      dsimp only at hlt
      omega
    · cases h
    · next l hpass =>
      obtain rfl := Option.some.inj h
      have hle := pass_terminated_unread hpass
      simp only [variant, hterm]
      dsimp only at hle
      simp
      omega

theorem variant_step {party : Party} (h : step fd s party = some s') : variant s' < variant s := by
  unfold step at h
  split at h
  · cases h
  · next hterm =>
    rw [Bool.not_eq_true] at hterm
    cases party with
    | client after answers => exact variant_clientStep hterm h
    | server => exact variant_serverStep hterm h

end Variant

/-- **External mode agrees with internal mode** on every run of a program, under every schedule of
client and server from a first image on that has connected on the descriptor `fd`; and every
schedule ends. -/
theorem agreesWithInternal {environ : Environ} {answers : Answers} {client : Client} {fd : ℤ}
    (hsetup : setup environ answers = some (client, .connected fd)) {evs : List (Event ptrSize)}
    (henv : ∀ env, .execve env ∈ evs → HoldsFd env) {parties : List Party} {s : System ptrSize}
    (hrun : PartialRun.run (step fd) (initial client evs) parties = some s) :
    AgreesWithInternal fd evs s ∧
      parties.length ≤ evs.length * (MESSAGE_SIZE ptrSize + 2) + 1 := by
  obtain ⟨hready, hsock, -⟩ := Client.Ready.of_connected hsetup
  have hinv : Invariant fd evs s := PartialRun.run_invariant (Invariant fd evs)
    (fun _ _ _ h hstep => h.step henv hstep) (.initial hready hsock) hrun
  have hlen := PartialRun.run_length_le variant (fun _ _ _ => variant_step) hrun
  have hinitial : variant (initial client evs) = evs.length * (MESSAGE_SIZE ptrSize + 2) + 1 := rfl
  exact ⟨hinv.agrees henv, by omega⟩

/-- A call, an `execve`, a signal and a ret that returns from its handler. -/
def aheadEvents : List (Event 8) :=
  [.call 7, .execve [CString.lit "DR_SS_ENV_FD_VAR=1"], .signal, .ret 9]

/-- The client runs ahead of the server by two messages, and the server meets it at the ret. -/
def aheadSchedule : List Party :=
  let client := Party.client (fun n => UInt8.ofNat n) ⟨6, true, by decide⟩
  [client, client, .server, client, client, .server, .server, .server, client]

theorem agreesWithInternal_ahead :
    ∃ s, PartialRun.run (step 5) (initial ⟨5, [Environ.entry DR_SS_ENV_FD (sockStr 5)]⟩ aheadEvents)
        aheadSchedule = some s ∧
      AgreesWithInternal 5 aheadEvents s ∧
      aheadSchedule.length ≤ aheadEvents.length * (MESSAGE_SIZE 8 + 2) + 1 := by
  have hruns : (PartialRun.run (step 5)
      (initial ⟨5, [Environ.entry DR_SS_ENV_FD (sockStr 5)]⟩ aheadEvents)
      aheadSchedule).isSome := rfl
  obtain ⟨s, hs⟩ := Option.isSome_iff_exists.mp hruns
  have hsetup : setup [CString.lit "DR_SS_ENV_FD_VAR="] ⟨5, true, by decide⟩ =
      some (⟨5, [Environ.entry DR_SS_ENV_FD (sockStr 5)]⟩, .connected 5) := rfl
  refine ⟨s, hs, agreesWithInternal hsetup ?_ hs⟩
  intro env henv
  simp only [aheadEvents, List.mem_cons, List.not_mem_nil, or_false] at henv
  rcases henv with h | h | h | h <;> cases h
  decide

end DrShadowStack.ExternalMode
