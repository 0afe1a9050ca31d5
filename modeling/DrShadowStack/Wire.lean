import DrShadowStack.ExternalSS
import DrShadowStack.ExternalServer

/-!
# What the client writes is what the server reads

The frame that the client writes for an event is a whole frame of the server (`eventFrame`), and the
operation that it denotes there is the one that the event stands for (`op_eventFrame`), whatever the
memory behind a header's literal holds.
-/

namespace DrShadowStack

open ShadowStack ExternalServer Message

variable {ptrSize : ℕ}

theorem length_frame (after : ℕ → UInt8) (e : Event ptrSize) :
    (ExternalSS.frame after e).length = MESSAGE_HEADER_LENGTH + ptrSize := by
  rw [size_eq]
  cases e with
  | call a => exact length_sendMsgWith Call (LittleEndian.length_store a)
  | ret t => exact length_sendMsgWith Ret (LittleEndian.length_store t)
  | signal => exact length_sendMsg NewSignal after
  | execve env => exact length_sendMsg Execve after

/-- The frame that the client writes for an event. -/
def eventFrame (after : ℕ → UInt8) (e : Event ptrSize) : Frame ptrSize :=
  Frame.ofBytes (ExternalSS.frame after e) (length_frame after e)

@[simp] theorem bytes_eventFrame (after : ℕ → UInt8) (e : Event ptrSize) :
    (eventFrame after e).bytes = ExternalSS.frame after e :=
  Frame.bytes_ofBytes _ _

/-- The header of an event's message. -/
def headerOf : Event ptrSize → CString
  | .call _ => Call.header
  | .ret _ => Ret.header
  | .signal => NewSignal.header
  | .execve _ => Execve.header

theorem split_sendMsgWith (T : MessageType false) (a : AppPc ptrSize) :
    (sendMsgWith T ptrSize (LittleEndian.store a)).take MESSAGE_HEADER_LENGTH = T.header.chars ∧
      (sendMsgWith T ptrSize (LittleEndian.store a)).drop MESSAGE_HEADER_LENGTH =
        LittleEndian.store a := by
  rw [sendMsgWith, messageWith_eq T (LittleEndian.length_store a), ← T.length_header,
    List.take_left, List.drop_left]
  exact ⟨rfl, rfl⟩

theorem header_eventFrame (after : ℕ → UInt8) (e : Event ptrSize) :
    (eventFrame after e).header = (headerOf e).chars := by
  cases e with
  | call a => exact (split_sendMsgWith Call a).1
  | ret t => exact (split_sendMsgWith Ret t).1
  | signal => exact take_sendMsg NewSignal after
  | execve env => exact take_sendMsg Execve after

/-- The bodies of the messages that have one. -/
theorem body_eventFrame (after : ℕ → UInt8) (a : AppPc ptrSize) :
    (eventFrame after (.call a)).body = LittleEndian.store a ∧
      (eventFrame after (.ret a)).body = LittleEndian.store a :=
  ⟨(split_sendMsgWith Call a).2, (split_sendMsgWith Ret a).2⟩

/-- **The wire preserves the meaning of an event.** -/
theorem op_eventFrame (after : ℕ → UInt8) (e : Event ptrSize) :
    (eventFrame after e).op = some (opOf e) := by
  rw [Frame.op, header_eventFrame]
  cases e with
  | call a =>
    rw [(body_eventFrame after a).1, LittleEndian.load_store]
    rfl
  | ret t =>
    rw [(body_eventFrame after t).2, LittleEndian.load_store]
    rfl
  | signal => rfl
  | execve env => rfl

/-- The `RET-` frames are those of rets. -/
theorem isAValid_ret_eventFrame (after : ℕ → UInt8) (e : Event ptrSize) :
    isAValid Ret (eventFrame after e).bytes = e.isRet := by
  rw [isAValid, Frame.take_bytes, header_eventFrame]
  cases e <;> rfl

/-- Only an accepted ret is answered. -/
theorem replyTo_opOf (e : Event ptrSize) :
    replyTo (opOf e) = if e.isRet then Continue.message ptrSize else [] := by
  cases e <;> rfl

/-- The frames of a list of events denote the operations of the events. -/
theorem map_op_eventFrame (frames : List ((ℕ → UInt8) × Event ptrSize)) :
    (frames.map fun w => eventFrame w.1 w.2).map Frame.op =
      ((frames.map Prod.snd).map opOf).map some := by
  simp [op_eventFrame, Function.comp_def]

/-! ## One pass of the server on the frame of an event -/

section Pass

variable {stk stk' : PointerStack ptrSize} {rest sent : List UInt8} {e : Event ptrSize}

/-- An accepted event is performed and answered. -/
theorem pass_accepted (after : ℕ → UInt8) (h : ShadowStack.step stk e = some stk') :
    pass (running stk ((eventFrame after e).bytes ++ rest) sent) =
      .again (running stk' rest (sent ++ replyTo (opOf e))) := by
  rcases processMessage_frame (eventFrame after e) stk with ⟨o, stk'', hop, hstep, hproc⟩ | ⟨hno, -⟩
  · rw [op_eventFrame] at hop
    obtain rfl := Option.some.inj hop
    obtain rfl := Option.some.inj (hstep.symm.trans h)
    rw [pass_frame, hproc]
    rfl
  · rw [ShadowStack.step, hno _ (op_eventFrame after e)] at h
    cases h

/-- On a refused event the server terminates, with the stack as it was and without an answer. -/
theorem pass_refused (after : ℕ → UInt8) (h : ShadowStack.step stk e = none) :
    ∃ map, pass (running stk ((eventFrame after e).bytes ++ rest) sent) =
      .terminated { map, stk, unread := rest, sent } := by
  rcases processMessage_frame (eventFrame after e) stk with
    ⟨o, stk', hop, hstep, -⟩ | ⟨-, map, hproc⟩
  · rw [op_eventFrame] at hop
    obtain rfl := Option.some.inj hop
    rw [ShadowStack.step, hstep] at h
    cases h
  · exact ⟨map, by rw [pass_frame, hproc]; simp⟩

/-- The server's stack behind the frame of an event and what follows it. -/
theorem stackBehind_frame (after : ℕ → UInt8) (e : Event ptrSize) (rest : List UInt8) :
    stackBehind stk (ExternalSS.frame after e ++ rest) =
      (ShadowStack.step stk e).bind fun stk' => stackBehind stk' rest := by
  rw [← bytes_eventFrame]
  cases hstep : ShadowStack.step stk e with
  | none =>
    obtain ⟨map, hpass⟩ : ∃ map, pass (running stk ((eventFrame after e).bytes ++ rest) []) =
        .terminated { map, stk, unread := rest, sent := [] } := pass_refused after hstep
    rw [stackBehind, serve_eq, hpass, Option.bind_none]
  | some stk' =>
    have hpass : pass (running stk ((eventFrame after e).bytes ++ rest) []) =
        .again (running stk' rest ([] ++ replyTo (opOf e))) := pass_accepted after hstep
    rw [stackBehind, serve_eq, hpass, Option.bind_some, stackBehind_eq rest]

end Pass

/-! ## Events in flight -/

/-- The bytes are the frames of the events `evs`, one behind the other. -/
def Carries (bytes : List UInt8) (evs : List (Event ptrSize)) : Prop :=
  ∃ frames : List ((ℕ → UInt8) × Event ptrSize),
    bytes = framesBytes (frames.map fun w => eventFrame w.1 w.2) ∧ frames.map Prod.snd = evs

namespace Carries

variable {bytes : List UInt8} {evs : List (Event ptrSize)} {e : Event ptrSize}

theorem nil : Carries [] ([] : List (Event ptrSize)) := ⟨[], rfl, rfl⟩

/-- A frame is written behind those in flight. -/
theorem concat (h : Carries bytes evs) (after : ℕ → UInt8) (e : Event ptrSize) :
    Carries (bytes ++ ExternalSS.frame after e) (evs ++ [e]) := by
  obtain ⟨frames, rfl, rfl⟩ := h
  exact ⟨frames ++ [(after, e)], by simp [framesBytes], by simp⟩

/-- The first frame in flight is that of the first event. -/
theorem of_cons (h : Carries bytes (e :: evs)) :
    ∃ after rest, bytes = (eventFrame after e).bytes ++ rest ∧ Carries rest evs := by
  obtain ⟨frames, rfl, hframes⟩ := h
  cases frames with
  | nil => cases hframes
  | cons w frames =>
    obtain ⟨rfl, rfl⟩ := List.cons.inj hframes
    exact ⟨w.1, _, by simp [framesBytes], frames, rfl, rfl⟩

theorem eq_nil (h : Carries bytes ([] : List (Event ptrSize))) : bytes = [] := by
  obtain ⟨frames, rfl, hframes⟩ := h
  obtain rfl := List.map_eq_nil_iff.mp hframes
  rfl

/-- Nothing in flight is no event in flight. -/
theorem evs_eq_nil (h : Carries [] evs) : evs = [] := by
  cases evs with
  | nil => rfl
  | cons e evs =>
    obtain ⟨after, rest, hbytes, -⟩ := h.of_cons
    have hlen := (eventFrame after e).length_bytes
    rw [(List.append_eq_nil_iff.mp hbytes.symm).1, List.length_nil] at hlen
    simp [MESSAGE_HEADER_LENGTH] at hlen
    omega

end Carries

end DrShadowStack
