import DrShadowStack.SharedSocket
import Mathlib.Data.List.Perm.Basic

/-!
# The shared socket in any order of steps

Which thread takes a `Continue` may be the wrong one. What the server does never depends on it: it
performs the events of all threads in the order in which they were written, as one shadow stack does
(`Accounts`). No thread is lost on the way, and none is let through twice.
-/

namespace DrShadowStack.SharedSocket

open ExternalServer ShadowStack

variable {ι : Type*} {ptrSize : ℕ}

/-- An event, the thread that wrote its frame, and the bytes behind a frame without a body. -/
structure Sent (ι : Type*) (ptrSize : ℕ) where
  thread : ι
  after : ℕ → UInt8
  event : Event ptrSize

/-- What a step writes to the server. -/
def Label.sent : Label ι ptrSize → Option (Sent ι ptrSize)
  | .send t after e => some ⟨t, after, e⟩
  | _ => none

/-- All that was written, in its order. -/
def sentBy (labels : List (Label ι ptrSize)) : List (Sent ι ptrSize) := labels.filterMap Label.sent

def Sent.request (m : Sent ι ptrSize) : ι × List UInt8 :=
  (m.thread, ExternalSS.frame m.after m.event)

/-- The threads that return, one entry for each ret. -/
def returning (ms : List (Sent ι ptrSize)) : List ι :=
  (ms.filter fun m => m.event.isRet).map Sent.thread

theorem returning_append (ms ms' : List (Sent ι ptrSize)) :
    returning (ms ++ ms') = returning ms ++ returning ms' := by
  simp [returning]

theorem returning_singleton (m : Sent ι ptrSize) :
    returning [m] = if m.event.isRet then [m.thread] else [] := by
  rw [returning, List.filter_cons]
  cases m.event.isRet <;> rfl

/-- The shadow stack after the events. -/
def stackAfter (ms : List (Sent ι ptrSize)) : Option (PointerStack ptrSize) :=
  PartialRun.run ShadowStack.step [] (ms.map Sent.event)

theorem stackAfter_concat (ms : List (Sent ι ptrSize)) (m : Sent ι ptrSize) :
    stackAfter (ms ++ [m]) = (stackAfter ms).bind fun stk => ShadowStack.step stk m.event := by
  rw [stackAfter, List.map_append, List.map_singleton, PartialRun.run_concat]
  rfl

/-- The state accounts for what was written: `performed` is done, `refused` has ended the group, and
`pending` is in the queue. Each accepted ret has been answered, and each thread that returned either
got past `recv_msg` or waits. -/
structure Accounts (s : System ι ptrSize) (performed refused pending : List (Sent ι ptrSize)) :
    Prop where
  stk : stackAfter performed = some s.stk
  accepted : s.accepted = returning performed
  requests : s.requests = pending.map Sent.request
  running : s.terminated = false → refused = [] ∧ s.map = callCorrectFunction
  terminated : s.terminated = true →
    ∃ m, refused = [m] ∧ ShadowStack.step s.stk m.event = none
  replies : ∀ frame ∈ s.replies, frame = Message.Continue.message ptrSize
  answered : s.passed.length + s.replies.length = s.accepted.length
  threads : (s.passed ++ s.waiters).Perm (returning (performed ++ refused ++ pending))
  waiters : s.waiters.Nodup

namespace Accounts

variable {s : System ι ptrSize} {performed refused pending : List (Sent ι ptrSize)}

theorem initial : Accounts (initial ι ptrSize) [] [] [] where
  stk := rfl
  accepted := rfl
  requests := rfl
  running _ := ⟨rfl, rfl⟩
  terminated := by simp [SharedSocket.initial]
  replies := by simp [SharedSocket.initial]
  answered := rfl
  threads := .refl _
  waiters := List.nodup_nil

/-- The shadow stack refuses what the server has ended the group on. -/
theorem stackAfter_eq_none (h : Accounts s performed refused pending)
    (hterm : s.terminated = true) :
    stackAfter (performed ++ refused ++ pending) = none := by
  obtain ⟨m, rfl, hrefused⟩ := h.terminated hterm
  rw [stackAfter, List.map_append, PartialRun.run_append, ← stackAfter, stackAfter_concat, h.stk,
    Option.bind_some, hrefused]
  rfl

/-- A frame is written. -/
theorem send {t : ι} {after : ℕ → UInt8} {e : Event ptrSize} (h : Accounts s performed [] pending)
    (hrun : s.terminated = false) (ht : t ∉ s.waiters) :
    Accounts { s with
      requests := s.requests ++ [(t, ExternalSS.frame after e)]
      waiters := s.waiters ++ if e.isRet then [t] else [] }
      performed [] (pending ++ [⟨t, after, e⟩]) where
  stk := h.stk
  accepted := h.accepted
  requests := by
    rw [h.requests, List.map_append]
    rfl
  running := h.running
  terminated hterm := absurd (hrun.symm.trans hterm) (by simp)
  replies := h.replies
  answered := h.answered
  threads := by
    rw [← List.append_assoc, ← List.append_assoc, returning_append, returning_singleton]
    exact h.threads.append_right _
  waiters := by
    cases e.isRet
    · simpa using h.waiters
    · exact List.nodup_append.mpr ⟨h.waiters, List.nodup_singleton t, by
        rintro u hu v hv rfl
        exact ht (List.mem_singleton.mp hv ▸ hu)⟩

end Accounts

variable [DecidableEq ι]

/-- A waiting thread takes a `Continue`. -/
theorem step_take_continue {s s' : System ι ptrSize} {t : ι} (hrun : s.terminated = false)
    (hall : ∀ frame ∈ s.replies, frame = Message.Continue.message ptrSize)
    (hstep : step s (.take t) = some s') :
    ∃ replies, s.replies = Message.Continue.message ptrSize :: replies ∧ t ∈ s.waiters ∧
      s' = { s with replies, waiters := s.waiters.erase t, passed := s.passed ++ [t] } := by
  cases hlist : s.replies with
  | nil => simp [step, hrun, hlist] at hstep
  | cons frame replies =>
    obtain rfl := hall frame (hlist ▸ List.mem_cons_self)
    by_cases ht : t ∈ s.waiters
    · simp only [step, hrun, hlist, if_pos ht, recvMsg_continue, if_true, Bool.false_eq_true,
        if_false, Option.some.injEq] at hstep
      exact ⟨replies, rfl, ht, by rw [← hstep, hrun]⟩
    · simp [step, hrun, hlist, ht] at hstep

/-- No step is made once the group is terminated. -/
theorem running_of_step {s s' : System ι ptrSize} {l : Label ι ptrSize}
    (h : step s l = some s') : s.terminated = false := by
  by_contra hterm
  simp [step, hterm] at h

namespace Accounts

variable {s s' : System ι ptrSize} {performed refused pending : List (Sent ι ptrSize)}
  {l : Label ι ptrSize}

/-- The server performs the oldest request, or terminates the group on it. -/
theorem serve (h : Accounts s performed [] pending) (hstep : step s .serve = some s') :
    ∃ performed' refused' pending',
      performed' ++ refused' ++ pending' = performed ++ pending ∧
        Accounts s' performed' refused' pending' := by
  have hrun := running_of_step hstep
  obtain ⟨-, hmap⟩ := h.running hrun
  cases pending with
  | nil => simp [step, hrun, h.requests] at hstep
  | cons m pending =>
    obtain ⟨t, after, e⟩ := m
    have hrequests : s.requests =
        (t, (eventFrame after e).bytes) :: pending.map Sent.request := by
      rw [h.requests, bytes_eventFrame]
      rfl
    have hthreads := h.threads
    rw [List.append_nil] at hthreads
    cases haccept : ShadowStack.step s.stk e with
    | none =>
      obtain ⟨map, hserve⟩ := step_serve_refused hrun hmap hrequests haccept
      obtain rfl := Option.some.inj (hserve.symm.trans hstep)
      refine ⟨performed, [⟨t, after, e⟩], pending, by simp, ?_⟩
      exact {
        stk := h.stk
        accepted := h.accepted
        requests := rfl
        running := fun hterm => absurd hterm (by simp)
        terminated := fun _ => ⟨_, rfl, haccept⟩
        replies := h.replies
        answered := h.answered
        threads := by simpa using hthreads
        waiters := h.waiters }
    | some stk' =>
      rw [step_serve_accepted hrun hmap hrequests haccept] at hstep
      obtain rfl := Option.some.inj hstep
      refine ⟨performed ++ [⟨t, after, e⟩], [], pending, by simp, ?_⟩
      exact {
        stk := by rw [stackAfter_concat, h.stk, Option.bind_some, haccept]
        accepted := by rw [h.accepted, returning_append, returning_singleton]
        requests := rfl
        running := fun _ => ⟨rfl, hmap⟩
        terminated := fun hterm => absurd (hrun.symm.trans hterm) (by simp)
        replies := by
          intro frame hframe
          rcases List.mem_append.mp hframe with hframe | hframe
          · exact h.replies frame hframe
          · cases hret : e.isRet <;> simp [hret] at hframe
            exact hframe
        answered := by
          have hanswered := h.answered
          cases e.isRet <;> simp <;> omega
        threads := by simpa using hthreads
        waiters := h.waiters }

/-- A thread takes a `Continue`, whichever it is. -/
theorem take {t : ι} (h : Accounts s performed [] pending) (hstep : step s (.take t) = some s') :
    Accounts s' performed [] pending := by
  have hrun := running_of_step hstep
  obtain ⟨replies, hreplies, ht, rfl⟩ := step_take_continue hrun h.replies hstep
  exact {
    stk := h.stk
    accepted := h.accepted
    requests := h.requests
    running := h.running
    terminated := h.terminated
    replies := fun frame hframe => h.replies frame (hreplies ▸ List.mem_cons_of_mem _ hframe)
    answered := by
      have hanswered := h.answered
      rw [hreplies, List.length_cons] at hanswered
      show (s.passed ++ [t]).length + replies.length = s.accepted.length
      rw [List.length_append, List.length_singleton]
      omega
    threads := by
      rw [List.append_assoc]
      exact ((List.perm_cons_erase ht).symm.append_left s.passed).trans h.threads
    waiters := h.waiters.erase t }

/-- Every step keeps the account. -/
theorem step (h : Accounts s performed refused pending) (hstep : SharedSocket.step s l = some s') :
    ∃ performed' refused' pending',
      performed' ++ refused' ++ pending' = performed ++ refused ++ pending ++ l.sent.toList ∧
        Accounts s' performed' refused' pending' := by
  have hrun := running_of_step hstep
  obtain ⟨rfl, -⟩ := h.running hrun
  rw [List.append_nil]
  cases l with
  | send t after e =>
    by_cases ht : t ∈ s.waiters
    · simp [SharedSocket.step, hrun, ht] at hstep
    · simp only [SharedSocket.step, hrun, if_neg ht, Bool.false_eq_true, if_false,
        Option.some.injEq] at hstep
      subst hstep
      refine ⟨performed, [], pending ++ [⟨t, after, e⟩], by simp [Label.sent], ?_⟩
      simpa [hrun] using h.send hrun ht
  | serve => simpa [Label.sent] using h.serve hstep
  | take t => exact ⟨performed, [], pending, by simp [Label.sent], h.take hstep⟩

end Accounts

/-- Every state that is reached accounts for what was written. -/
theorem accounts {labels : List (Label ι ptrSize)} {s : System ι ptrSize}
    (h : PartialRun.run step (initial ι ptrSize) labels = some s) :
    ∃ performed refused pending, sentBy labels = performed ++ refused ++ pending ∧
      Accounts s performed refused pending := by
  refine PartialRun.run_history (fun ls s => ∃ performed refused pending,
    sentBy ls = performed ++ refused ++ pending ∧ Accounts s performed refused pending)
    ⟨[], [], [], rfl, .initial⟩ ?_ h
  rintro ls l s s' ⟨performed, refused, pending, hsent, hacc⟩ hstep
  obtain ⟨performed', refused', pending', hsplit, hacc'⟩ := hacc.step hstep
  refine ⟨performed', refused', pending', ?_, hacc'⟩
  rw [hsplit, ← hsent, sentBy, List.filterMap_append]
  cases l <;> rfl

/-- **No ret is lost and none is let through twice.** In any order of steps, the server has
performed the events of all threads as one shadow stack does, in the order in which they were
written, up to one on which it has ended the group; the frames behind that are in its queue. The
rets that it has accepted have executed, or their replies are on the way. -/
theorem performsInOrder {labels : List (Label ι ptrSize)} {s : System ι ptrSize}
    (h : PartialRun.run step (initial ι ptrSize) labels = some s) :
    (s.passed ++ s.waiters).Perm (returning (sentBy labels)) ∧
      s.passed.length + s.replies.length = s.accepted.length ∧
      ∃ performed refused pending, sentBy labels = performed ++ refused ++ pending ∧
        stackAfter performed = some s.stk ∧ s.accepted = returning performed ∧
        s.requests = pending.map Sent.request ∧ (s.terminated = false → refused = []) ∧
        (s.terminated = true →
          ∃ m, refused = [m] ∧ ShadowStack.step s.stk m.event = none) := by
  obtain ⟨performed, refused, pending, hsent, hacc⟩ := accounts h
  refine ⟨hsent ▸ hacc.threads, hacc.answered, performed, refused, pending, hsent, hacc.stk,
    hacc.accepted, hacc.requests, fun hrun => (hacc.running hrun).1, hacc.terminated⟩

theorem performsInOrder_strayContinue :
    ∃ s, PartialRun.run step (initial ℕ 8) strayContinue = some s ∧
      (s.passed ++ s.waiters).Perm (returning (sentBy strayContinue)) ∧
      s.passed.length + s.replies.length = s.accepted.length ∧
      ∃ performed refused pending, sentBy strayContinue = performed ++ refused ++ pending ∧
        stackAfter performed = some s.stk ∧ s.accepted = returning performed ∧
        s.requests = pending.map Sent.request ∧ (s.terminated = false → refused = []) ∧
        (s.terminated = true →
          ∃ m, refused = [m] ∧ ShadowStack.step s.stk m.event = none) := by
  obtain ⟨s, hs⟩ := Option.isSome_iff_exists.mp
    (rfl : (PartialRun.run step (initial ℕ 8) strayContinue).isSome = true)
  exact ⟨s, hs, performsInOrder hs⟩

/-! ## Traffic that is left to itself -/

/-- No thread writes: the server works off its queue, and threads that wait take what it sends. -/
def Label.Delivers (l : Label ι ptrSize) : Prop := l.sent = none

/-- Nothing is left to deliver. -/
def Settled (s : System ι ptrSize) : Prop := ∀ l : Label ι ptrSize, l.Delivers → step s l = none

/-- A request is worth its reply. -/
def variant (s : System ι ptrSize) : ℕ := 2 * s.requests.length + s.replies.length

/-- A delivery lowers the variant, whoever takes what. -/
theorem variant_step {s s' : System ι ptrSize} {l : Label ι ptrSize} (hl : l.Delivers)
    (hstep : step s l = some s') : variant s' < variant s := by
  have hrun := running_of_step hstep
  cases l with
  | send t after e => cases hl
  | serve =>
    cases hrequests : s.requests with
    | nil => simp [step, hrun, hrequests] at hstep
    | cons r requests =>
      simp only [step, hrun, hrequests, Bool.false_eq_true, if_false] at hstep
      rw [variant, variant, hrequests, List.length_cons]
      split at hstep
      · obtain rfl := Option.some.inj hstep
        rw [List.length_append]
        split <;> simp
        omega
      · cases hstep
      · obtain rfl := Option.some.inj hstep
        show 2 * requests.length + s.replies.length < _
        omega
  | take t =>
    cases hreplies : s.replies with
    | nil => simp [step, hrun, hreplies] at hstep
    | cons frame replies =>
      simp only [step, hrun, hreplies, Bool.false_eq_true, if_false] at hstep
      rw [variant, variant, hreplies, List.length_cons]
      split_ifs at hstep <;> obtain rfl := Option.some.inj hstep <;> simp

section Settled

variable {s : System ι ptrSize} {performed refused pending : List (Sent ι ptrSize)}

/-- The server is never stuck on a request. -/
theorem Settled.requests_eq_nil (hsettled : Settled s) (h : Accounts s performed refused pending)
    (hrun : s.terminated = false) : pending = [] := by
  cases pending with
  | nil => rfl
  | cons m pending =>
    have hrequests : s.requests =
        (m.thread, (eventFrame m.after m.event).bytes) :: pending.map Sent.request := by
      rw [h.requests, bytes_eventFrame]
      rfl
    have hmap := (h.running hrun).2
    have hnone : step s .serve = none := hsettled .serve rfl
    cases haccept : ShadowStack.step s.stk m.event with
    | none =>
      obtain ⟨map, hserve⟩ := step_serve_refused hrun hmap hrequests haccept
      rw [hserve] at hnone
      cases hnone
    | some stk' =>
      rw [step_serve_accepted hrun hmap hrequests haccept] at hnone
      cases hnone

/-- For every `Continue` in flight there is a thread that waits. -/
theorem Settled.replies_eq_nil (hsettled : Settled s) (h : Accounts s performed refused pending)
    (hrun : s.terminated = false) : s.replies = [] := by
  cases hreplies : s.replies with
  | nil => rfl
  | cons frame replies =>
    obtain rfl := h.replies frame (hreplies ▸ List.mem_cons_self)
    -- more rets were written than have passed
    have hthreads := h.threads.length_eq
    have hanswered := h.answered
    rw [List.append_assoc, returning_append, List.length_append, List.length_append,
      ← h.accepted] at hthreads
    rw [hreplies, List.length_cons] at hanswered
    obtain ⟨t, ht⟩ : ∃ t, t ∈ s.waiters := List.exists_mem_of_length_pos (by omega)
    have hnone : step s (.take t) = none := hsettled (.take t) rfl
    simp [step, hrun, hreplies, ht, recvMsg_continue] at hnone

end Settled

/-- What the traffic of the frames `sent` comes to: every thread got through each of its rets, or
the group is terminated. -/
def Verdict (sent : List (Sent ι ptrSize)) (s : System ι ptrSize) : Prop :=
  match stackAfter sent with
  | some stk => s.terminated = false ∧ s.stk = stk ∧ s.waiters = [] ∧ s.passed.Perm (returning sent)
  | none => s.terminated = true

theorem Settled.verdict {s : System ι ptrSize} (hsettled : Settled s)
    {performed refused pending : List (Sent ι ptrSize)}
    (h : Accounts s performed refused pending) : Verdict (performed ++ refused ++ pending) s := by
  rw [Verdict]
  cases hrun : s.terminated with
  | true =>
    rw [h.stackAfter_eq_none hrun]
  | false =>
    obtain ⟨rfl, -⟩ := h.running hrun
    obtain rfl := hsettled.requests_eq_nil h hrun
    have hthreads := h.threads
    have hanswered := h.answered
    rw [hsettled.replies_eq_nil h hrun, List.length_nil, h.accepted] at hanswered
    rw [List.append_nil, List.append_nil] at hthreads ⊢
    have hwaiters : s.waiters = [] := by
      have hlen := hthreads.length_eq
      rw [List.length_append] at hlen
      exact List.length_eq_zero_iff.mp (by omega)
    rw [hwaiters, List.append_nil] at hthreads
    rw [h.stk]
    exact ⟨rfl, rfl, hwaiters, hthreads⟩

/-- **Which thread takes which `Continue` decides nothing in the end.** From any state, the
deliveries run out, and where they have run out the outcome is that of one shadow stack on all that
was written, in the order in which it was written. -/
theorem settles {labels : List (Label ι ptrSize)} {s : System ι ptrSize}
    (h : PartialRun.run step (initial ι ptrSize) labels = some s) :
    (∃ rest s', (∀ l ∈ rest, l.Delivers) ∧ PartialRun.run step s rest = some s' ∧ Settled s') ∧
      ∀ rest s', (∀ l ∈ rest, l.Delivers) → PartialRun.run step s rest = some s' →
        rest.length ≤ variant s ∧ (Settled s' → Verdict (sentBy labels) s') := by
  refine ⟨PartialRun.exists_exhausted (fun _ _ _ => variant_step) s, ?_⟩
  intro rest s' hrest hrun
  have hlen := PartialRun.run_length_le_of_allowed (fun _ _ _ => variant_step) hrest hrun
  refine ⟨by omega, fun hsettled => ?_⟩
  obtain ⟨performed, refused, pending, hsent, hacc⟩ :=
    accounts (PartialRun.run_append_eq_some.mpr ⟨s, h, hrun⟩)
  have hnone : sentBy rest = [] := List.filterMap_eq_nil_iff.mpr hrest
  rw [sentBy, List.filterMap_append, ← sentBy, ← sentBy, hnone, List.append_nil] at hsent
  rw [hsent]
  exact hsettled.verdict hacc

/-- Two threads call and return, and each waits for its `Continue`. -/
def bothWait : List (Label ℕ 8) :=
  [.send 0 (fun _ => 0) (.call 5), .send 0 (fun _ => 0) (.ret 5),
    .send 1 (fun _ => 0) (.call 7), .send 1 (fun _ => 0) (.ret 7), .serve, .serve, .serve, .serve]

theorem settles_bothWait :
    ∃ s s', PartialRun.run step (initial ℕ 8) bothWait = some s ∧
      PartialRun.run step s [.take 1, .take 0] = some s' ∧
      2 ≤ variant s ∧ (Settled s' → Verdict (sentBy bothWait) s') := by
  obtain ⟨s', hs'⟩ := Option.isSome_iff_exists.mp
    (rfl : (PartialRun.run step (initial ℕ 8) (bothWait ++ [.take 1, .take 0])).isSome = true)
  obtain ⟨s, hs, hrest⟩ := PartialRun.run_append_eq_some.mp hs'
  exact ⟨s, s', hs, hrest, (settles hs).2 _ s' (by simp [Label.Delivers, Label.sent]) hrest⟩

end DrShadowStack.SharedSocket
