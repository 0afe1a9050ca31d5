import DrShadowStack.Wire

/-!
# Several threads waiting on the one socket

The threads of the protected program, those of its forked children included, share the socket that
they inherited. A thread whose ret handler has written its `Ret` frame waits for a `Continue`; which
of the waiting threads takes the next one is up to the kernel. Every write and every `recv` moves
one whole frame.

## Shape of the proof

The server answers `Ret` frames in the order of the request queue, so that the threads it has
answered are the first of those that wait, as many as there are `Continue` frames in flight
(`Orderly`). This is kept as long as only these take one (`InOrder`). The first other thread that
takes one has its own `Ret` still in the queue.
-/

namespace DrShadowStack.SharedSocket

open ExternalServer ShadowStack

variable {ι : Type*} {ptrSize : ℕ}

/-- The threads and the server, with the frames in flight between them. -/
structure System (ι : Type*) (ptrSize : ℕ) where
  /-- The request queue, with the thread that wrote each frame. -/
  requests : List (ι × List UInt8)
  replies : List (List UInt8)
  /-- The threads whose ret handlers wait, in the order of their `Ret` frames. -/
  waiters : List ι
  map : HandlerMap ptrSize
  stk : PointerStack ptrSize
  /-- The threads whose `Ret` frames the server has accepted, one entry for each frame. -/
  accepted : List ι
  /-- The threads whose ret handlers got past `recv_msg`, one entry for each time. -/
  passed : List ι
  terminated : Bool

/-- A step: a thread writes the frame of an event, the server makes a pass of its loop, or a waiting
thread takes a reply. -/
inductive Label (ι : Type*) (ptrSize : ℕ)
  | send (t : ι) (after : ℕ → UInt8) (e : Event ptrSize)
  | serve
  | take (t : ι)

/-- The threads whose `Ret` frames are in the queue. -/
def askers (requests : List (ι × List UInt8)) : List ι :=
  (requests.filter fun r => Message.isAValid Message.Ret r.2).map Prod.fst

theorem askers_append (rs rs' : List (ι × List UInt8)) :
    askers (rs ++ rs') = askers rs ++ askers rs' := by
  simp [askers]

/-- The frame of an event asks if the event is a ret. -/
theorem askers_eventFrame (t : ι) (after : ℕ → UInt8) (e : Event ptrSize) :
    askers [(t, (eventFrame after e).bytes)] = if e.isRet then [t] else [] := by
  rw [askers, List.filter_cons, isAValid_ret_eventFrame]
  cases e.isRet <;> rfl

variable [DecidableEq ι]

/-- One step, while the group has not been terminated. -/
def step (s : System ι ptrSize) (l : Label ι ptrSize) : Option (System ι ptrSize) :=
  if s.terminated then none
  else
    match l with
    | .send t after e =>
      -- a thread whose handler waits does nothing else
      if t ∈ s.waiters then none
      else
        some { s with
          requests := s.requests ++ [(t, ExternalSS.frame after e)]
          waiters := s.waiters ++ if e.isRet then [t] else [] }
    | .serve =>
      match s.requests with
      | [] => none
      | (t, bytes) :: requests =>
        match ExternalServer.pass { map := s.map, stk := s.stk, unread := bytes, sent := [] } with
        | .again l =>
          some { s with
            requests
            map := l.map
            stk := l.stk
            replies := s.replies ++ if l.sent = [] then [] else [l.sent]
            accepted := s.accepted ++ if Message.isAValid Message.Ret bytes then [t] else [] }
        | .left _ => none
        | .terminated l => some { s with requests, map := l.map, stk := l.stk, terminated := true }
    | .take t =>
      match s.replies with
      | [] => none
      | frame :: replies =>
        if t ∈ s.waiters then
          if recvMsg Message.Continue ptrSize frame then
            some { s with
              replies, waiters := s.waiters.erase t, passed := s.passed ++ [t] }
          else some { s with replies, terminated := true }
        else none

/-- Before the first message. -/
def initial (ι : Type*) (ptrSize : ℕ) : System ι ptrSize where
  requests := []
  replies := []
  waiters := []
  map := callCorrectFunction
  stk := []
  accepted := []
  passed := []
  terminated := false

/-- No thread has got past `recv_msg` more often than the server has accepted a `Ret` of its. -/
def Checked (s : System ι ptrSize) : Prop := ∀ t, s.passed.count t ≤ s.accepted.count t

/-- The thread that takes a `Continue` is one of those that have waited longest, as many as there
are `Continue` frames in flight. -/
def InOrder (s : System ι ptrSize) : Label ι ptrSize → Prop
  | .take t => t ∈ s.waiters.take s.replies.length
  | _ => True

/-! ## The invariant -/

/-- While the server runs, the threads that wait are those it has answered, with a `Continue` in
flight for each, before those whose `Ret` frames are in the queue. -/
structure Orderly (s : System ι ptrSize) : Prop where
  checked : Checked s
  running : s.terminated = false → ∃ answered, s.waiters = answered ++ askers s.requests ∧
    s.waiters.Nodup ∧
    s.replies = List.replicate answered.length (Message.Continue.message ptrSize) ∧
    ∀ t, s.accepted.count t = s.passed.count t + answered.count t
  map : s.terminated = false → s.map = callCorrectFunction
  requests : ∀ r ∈ s.requests, ∃ after, ∃ e : Event ptrSize, r.2 = (eventFrame after e).bytes

namespace Orderly

variable {s s' : System ι ptrSize}

theorem initial : Orderly (initial ι ptrSize) :=
  ⟨fun _ => le_rfl, fun _ => ⟨[], rfl, List.nodup_nil, rfl, fun _ => rfl⟩, fun _ => rfl, by
    simp [SharedSocket.initial]⟩

/-- A thread that does not wait writes a frame, and waits if it is of a ret. -/
theorem send (h : Orderly s) (hrun : s.terminated = false) {t : ι} (ht : t ∉ s.waiters)
    (after : ℕ → UInt8) (e : Event ptrSize) :
    Orderly { s with
      requests := s.requests ++ [(t, ExternalSS.frame after e)]
      waiters := s.waiters ++ if e.isRet then [t] else [] } := by
  obtain ⟨answered, hwaiters, hnodup, hreplies, hcount⟩ := h.running hrun
  have haskers : askers (s.requests ++ [(t, ExternalSS.frame after e)]) =
      askers s.requests ++ if e.isRet then [t] else [] := by
    rw [askers_append, ← bytes_eventFrame, askers_eventFrame]
  refine ⟨h.checked, fun _ => ⟨answered, ?_, ?_, hreplies, hcount⟩, h.map, ?_⟩
  · rw [haskers, hwaiters, List.append_assoc]
  · split
    · exact List.nodup_append.mpr ⟨hnodup, List.nodup_singleton t, by
        rintro u hu v hv rfl
        exact ht (List.mem_singleton.mp hv ▸ hu)⟩
    · rwa [List.append_nil]
  · intro r hr
    rcases List.mem_append.mp hr with hr | hr
    · exact h.requests r hr
    · obtain rfl := List.mem_singleton.mp hr
      exact ⟨after, e, (bytes_eventFrame after e).symm⟩

end Orderly

/-! ## What a step does -/

section Steps

variable {s : System ι ptrSize} {t : ι} {after : ℕ → UInt8} {e : Event ptrSize}
  {requests : List (ι × List UInt8)}

theorem continue_ne_nil (ptrSize : ℕ) : Message.Continue.message ptrSize ≠ [] := by
  intro h
  have hlen : (Message.Continue.message ptrSize).length = MESSAGE_SIZE ptrSize := length_message _
  have hpos := MESSAGE_SIZE_pos ptrSize
  rw [h, List.length_nil] at hlen
  omega

/-- The server performs an event that the stack accepts, and answers it if it is a ret. -/
theorem step_serve_accepted {stk' : PointerStack ptrSize} (hrun : s.terminated = false)
    (hmap : s.map = callCorrectFunction)
    (hrequests : s.requests = (t, (eventFrame after e).bytes) :: requests)
    (hstep : ShadowStack.step s.stk e = some stk') :
    step s .serve = some { s with
      requests
      stk := stk'
      replies := s.replies ++ if e.isRet then [Message.Continue.message ptrSize] else []
      accepted := s.accepted ++ if e.isRet then [t] else [] } := by
  have hpass : ExternalServer.pass (running s.stk ((eventFrame after e).bytes ++ []) []) =
      .again (running stk' [] ([] ++ replyTo (opOf e))) := pass_accepted after hstep
  rw [List.append_nil, List.nil_append, running, replyTo_opOf] at hpass
  have hreplies : (if (if e.isRet then Message.Continue.message ptrSize else []) = [] then []
      else [if e.isRet then Message.Continue.message ptrSize else []]) =
      if e.isRet then [Message.Continue.message ptrSize] else [] := by
    cases e.isRet
    · rfl
    · exact if_neg (continue_ne_nil ptrSize)
  simp only [step, hrun, hrequests, hmap, hpass, running, isAValid_ret_eventFrame, hreplies,
    Bool.false_eq_true, if_false]

/-- On an event that the stack refuses it terminates the group. -/
theorem step_serve_refused (hrun : s.terminated = false) (hmap : s.map = callCorrectFunction)
    (hrequests : s.requests = (t, (eventFrame after e).bytes) :: requests)
    (hstep : ShadowStack.step s.stk e = none) :
    ∃ map, step s .serve = some { s with requests, map, terminated := true } := by
  obtain ⟨map, hpass⟩ : ∃ map,
      ExternalServer.pass (running s.stk ((eventFrame after e).bytes ++ []) []) =
      .terminated { map, stk := s.stk, unread := [], sent := [] } := pass_refused after hstep
  rw [List.append_nil, running] at hpass
  refine ⟨map, ?_⟩
  simp only [step, hrun, hrequests, hmap, hpass, Bool.false_eq_true, if_false]

end Steps

namespace Orderly

variable {s s' : System ι ptrSize}

/-- The server performs the oldest request. -/
theorem serve (h : Orderly s) (hrun : s.terminated = false) (hstep : step s .serve = some s') :
    Orderly s' := by
  obtain ⟨answered, hwaiters, hnodup, hreplies, hcount⟩ := h.running hrun
  cases hrequests : s.requests with
  | nil => simp [step, hrun, hrequests] at hstep
  | cons r requests =>
    obtain ⟨t, bytes⟩ := r
    obtain ⟨after, e, hbytes⟩ := h.requests (t, bytes) (by simp [hrequests])
    obtain rfl : bytes = (eventFrame after e).bytes := hbytes
    have hrest : ∀ r ∈ requests, ∃ after, ∃ e : Event ptrSize, r.2 = (eventFrame after e).bytes :=
      fun r hr => h.requests r (by simp [hrequests, hr])
    have haskers : askers s.requests = (if e.isRet then [t] else []) ++ askers requests := by
      rw [hrequests, ← askers_eventFrame t after e, ← askers_append]
      rfl
    cases haccept : ShadowStack.step s.stk e with
    | none =>
      obtain ⟨map, hserve⟩ := step_serve_refused hrun (h.map hrun) hrequests haccept
      obtain rfl := Option.some.inj (hserve.symm.trans hstep)
      -- the group is terminated, and nothing more is claimed of it
      refine ⟨h.checked, ?_, ?_, hrest⟩ <;> intro hrun' <;> cases hrun'
    | some stk' =>
      rw [step_serve_accepted hrun (h.map hrun) hrequests haccept] at hstep
      obtain rfl := Option.some.inj hstep
      refine ⟨fun u => ?_, fun _ => ⟨answered ++ (if e.isRet then [t] else []), ?_, hnodup, ?_, ?_⟩,
        h.map, hrest⟩
      · rw [List.count_append]
        exact (h.checked u).trans (Nat.le_add_right _ _)
      · rw [hwaiters, haskers, List.append_assoc]
      · cases e.isRet
        · simp [hreplies]
        · simp [hreplies, List.replicate_succ']
      · intro u
        rw [List.count_append, List.count_append, hcount u, Nat.add_assoc]

/-- The threads that have waited longest are those that were answered. -/
theorem take_waiters (h : Orderly s) (hrun : s.terminated = false) :
    ∃ answered, s.waiters.take s.replies.length = answered ∧
      s.waiters = answered ++ askers s.requests ∧ s.waiters.Nodup ∧
      s.replies = List.replicate answered.length (Message.Continue.message ptrSize) ∧
      ∀ t, s.accepted.count t = s.passed.count t + answered.count t := by
  obtain ⟨answered, hwaiters, hnodup, hreplies, hcount⟩ := h.running hrun
  refine ⟨answered, ?_, hwaiters, hnodup, hreplies, hcount⟩
  rw [hreplies, List.length_replicate, hwaiters, List.take_left]

/-- A waiting thread that takes a `Continue` gets past `recv_msg`. -/
theorem step_take (h : Orderly s) (hrun : s.terminated = false) {t : ι}
    (hstep : step s (.take t) = some s') :
    ∃ replies, s.replies = Message.Continue.message ptrSize :: replies ∧ t ∈ s.waiters ∧
      s' = { s with replies, waiters := s.waiters.erase t, passed := s.passed ++ [t] } := by
  obtain ⟨answered, -, -, -, hreplies, -⟩ := h.take_waiters hrun
  cases hlist : s.replies with
  | nil => simp [step, hrun, hlist] at hstep
  | cons frame replies =>
    have hframe : frame = Message.Continue.message ptrSize :=
      List.eq_of_mem_replicate (hreplies ▸ (by simp [hlist] : frame ∈ s.replies))
    subst hframe
    by_cases ht : t ∈ s.waiters
    · simp only [step, hrun, hlist, if_pos ht, recvMsg_continue, if_true, Bool.false_eq_true,
        if_false, Option.some.injEq] at hstep
      exact ⟨replies, rfl, ht, by rw [← hstep, hrun]⟩
    · simp [step, hrun, hlist, ht] at hstep

/-- A thread that was answered takes a `Continue`. -/
theorem take (h : Orderly s) (hrun : s.terminated = false) {t : ι}
    (hstep : step s (.take t) = some s') (horder : t ∈ s.waiters.take s.replies.length) :
    Orderly s' := by
  obtain ⟨replies, hlist, ht, rfl⟩ := h.step_take hrun hstep
  obtain ⟨answered, htake, hwaiters, hnodup, hreplies, hcount⟩ := h.take_waiters hrun
  rw [htake] at horder
  have hpos : 0 < answered.count t := List.count_pos_iff.mpr horder
  have hcount' : ∀ u, s.accepted.count u =
      (s.passed ++ [t]).count u + (answered.erase t).count u := by
    intro u
    rw [hcount u, List.count_append, List.count_erase, List.count_singleton]
    by_cases hut : t = u
    · subst hut
      simp
      omega
    · simp [hut]
  refine ⟨fun u => ?_, fun _ => ⟨answered.erase t, ?_, hnodup.erase t, ?_, hcount'⟩, h.map,
    h.requests⟩
  · have := hcount' u
    show (s.passed ++ [t]).count u ≤ s.accepted.count u
    omega
  · rw [hwaiters, List.erase_append_left _ horder]
  · have hlen : replies.length + 1 = answered.length := by
      have hlen' := congrArg List.length hlist
      rw [hreplies, List.length_replicate, List.length_cons] at hlen'
      exact hlen'.symm
    rw [List.length_erase_of_mem horder, ← hlen, Nat.add_sub_cancel]
    rw [hlist, ← hlen, List.replicate_succ, List.cons.injEq] at hreplies
    exact hreplies.2

/-- Another thread that takes one gets past `recv_msg` unchecked. -/
theorem inOrder_of_checked (h : Orderly s) (hrun : s.terminated = false) {t : ι}
    (hstep : step s (.take t) = some s') (hchecked : Checked s') :
    t ∈ s.waiters.take s.replies.length := by
  obtain ⟨replies, -, -, rfl⟩ := h.step_take hrun hstep
  obtain ⟨answered, htake, -, -, -, hcount⟩ := h.take_waiters hrun
  rw [htake]
  -- a thread that was not answered has passed as often as it was accepted before this time
  by_contra hnot
  have hzero : answered.count t = 0 := List.count_eq_zero.mpr hnot
  have hle : (s.passed ++ [t]).count t ≤ s.accepted.count t := hchecked t
  rw [hcount t, hzero, List.count_append, List.count_singleton_self] at hle
  omega

end Orderly

/-! ## Runs -/

/-- Every step keeps the order, if a thread that takes a `Continue` is one of those that have waited
longest. -/
theorem Orderly.step {s s' : System ι ptrSize} (h : Orderly s) {l : Label ι ptrSize}
    (hstep : SharedSocket.step s l = some s') (horder : InOrder s l) : Orderly s' := by
  have hrun : s.terminated = false := by
    by_contra hterm
    simp [SharedSocket.step, hterm] at hstep
  cases l with
  | serve => exact h.serve hrun hstep
  | take t => exact h.take hrun hstep horder
  | send t after e =>
    by_cases ht : t ∈ s.waiters
    · simp [SharedSocket.step, hrun, ht] at hstep
    · have hsend := h.send hrun ht after e
      simp only [SharedSocket.step, hrun, if_neg ht, Bool.false_eq_true, if_false,
        Option.some.injEq] at hstep
      subst hstep
      simpa [hrun] using hsend

/-- A step after which everything is checked was in order. -/
theorem Orderly.inOrder {s s' : System ι ptrSize} (h : Orderly s) {l : Label ι ptrSize}
    (hstep : SharedSocket.step s l = some s') (hchecked : Checked s') : InOrder s l := by
  cases l with
  | take t =>
    have hrun : s.terminated = false := by
      by_contra hterm
      simp [SharedSocket.step, hterm] at hstep
    exact h.inOrder_of_checked hrun hstep hchecked
  | _ => trivial

/-- **A ret executes only once it has been checked, exactly on the runs in which the `Continue`
frames go to the threads that have waited longest.** -/
theorem checked_iff_inOrder {labels : List (Label ι ptrSize)}
    (hrun : (PartialRun.run step (initial ι ptrSize) labels).isSome) :
    (∀ pre l post, labels = pre ++ l :: post →
        ∀ s, PartialRun.run step (initial ι ptrSize) pre = some s → InOrder s l) ↔
      ∀ pre, pre <+: labels →
        ∀ s, PartialRun.run step (initial ι ptrSize) pre = some s → Checked s := by
  refine PartialRun.guarded_iff
    (A := fun ls => (PartialRun.run step (initial ι ptrSize) ls).isSome)
    (P := fun ls => ∀ s, PartialRun.run step (initial ι ptrSize) ls = some s → Orderly s)
    ?_ ?_ ?_ ?_ ?_ hrun
  · intro ls l h
    exact PartialRun.run_isSome_of_prefix (List.prefix_append ls [l]) h
  · intro s hs
    obtain rfl := Option.some.inj hs
    exact Orderly.initial
  · intro ls _ h s hs
    exact (h s hs).checked
  · intro ls l _ h horder s' hs'
    obtain ⟨s, hs, hstep⟩ := PartialRun.run_append_eq_some.mp hs'
    exact (h s hs).step (by simpa using hstep) (horder s hs)
  · intro ls l hsome h hchecked s hs
    obtain ⟨s', hs'⟩ := Option.isSome_iff_exists.mp hsome
    obtain ⟨u, hu, hstep⟩ := PartialRun.run_append_eq_some.mp hs'
    obtain rfl := Option.some.inj (hu.symm.trans hs)
    exact (h u hu).inOrder (by simpa using hstep) (hchecked s' hs')

/-- A thread calls and returns, and takes the `Continue` for it. -/
def ownContinue : List (Label ℕ 8) :=
  [.send 1 (fun _ => 0) (.call 5), .send 1 (fun _ => 0) (.ret 5), .serve, .serve, .take 1]

theorem checked_iff_inOrder_own :
    (∀ pre l post, ownContinue = pre ++ l :: post →
        ∀ s, PartialRun.run step (initial ℕ 8) pre = some s → InOrder s l) ↔
      ∀ pre, pre <+: ownContinue →
        ∀ s, PartialRun.run step (initial ℕ 8) pre = some s → Checked s :=
  checked_iff_inOrder rfl

/-- A thread calls and returns, but another, whose `Ret` has not been checked, takes the `Continue`
for it. -/
def strayContinue : List (Label ℕ 8) :=
  [.send 1 (fun _ => 0) (.call 5), .send 1 (fun _ => 0) (.ret 5), .serve, .serve,
    .send 0 (fun _ => 0) (.ret 9), .take 0]

/-- The other thread has executed a ret that the server then refuses. -/
theorem not_checked_strayContinue :
    ∃ s s', PartialRun.run step (initial ℕ 8) strayContinue = some s ∧ ¬Checked s ∧
      step s .serve = some s' ∧ s'.terminated = true ∧ s'.passed = [0] ∧ 0 ∉ s'.accepted := by
  have hruns : (PartialRun.run step (initial ℕ 8) (strayContinue ++ [.serve])).map
      (fun s => (s.terminated, s.passed, s.accepted)) = some (true, [0], [1]) := rfl
  have hstray : (PartialRun.run step (initial ℕ 8) strayContinue).map
      (fun s => (s.passed, s.accepted)) = some ([0], [1]) := rfl
  obtain ⟨s', hs', hfinal⟩ := Option.map_eq_some_iff.mp hruns
  obtain ⟨s, hs, hserve⟩ := PartialRun.run_append_eq_some.mp hs'
  simp only [Prod.mk.injEq] at hfinal
  rw [hs, Option.map_some, Option.some.injEq, Prod.mk.injEq] at hstray
  refine ⟨s, s', hs, fun hchecked => ?_, by simpa using hserve, hfinal.1, hfinal.2.1, ?_⟩
  · have hle := hchecked 0
    rw [hstray.1, hstray.2] at hle
    simp at hle
  · rw [hfinal.2.2]
    decide

end DrShadowStack.SharedSocket
