import DrShadowStack.Message

/-!
# Typed send and typed receive (`message.hpp`)

`send_msg<M>` writes the header of `M`. Both receive templates check for the header of `Continue`,
whatever `M` is. So receiving undoes sending for the one type that the program receives so, and for
no other.
-/

namespace DrShadowStack

variable {ptrSize : ℕ}

/-- The receive of type `T` accepts the frames that the send of `T` writes, with their bodies if
there are any, and of the frames of full size none with another header. -/
def ReceiveUndoesSend (ptrSize : ℕ) : {onlyHeader : Bool} → MessageType onlyHeader → Prop
  | true, T =>
    (∀ after, recvMsg T ptrSize (sendMsg T ptrSize after) = true) ∧
      ∀ frame, frame.length = MESSAGE_SIZE ptrSize → Message.isAValid T frame = false →
        recvMsg T ptrSize frame = false
  | false, T =>
    (∀ bdy : List UInt8, bdy.length = ptrSize →
        ∃ buffer, recvMsgAndBody T ptrSize (sendMsgWith T ptrSize bdy) = some buffer ∧
          buffer.take MESSAGE_HEADER_LENGTH = T.header.chars ∧
          buffer.drop MESSAGE_HEADER_LENGTH = bdy) ∧
      ∀ frame, frame.length = MESSAGE_SIZE ptrSize → Message.isAValid T frame = false →
        recvMsgAndBody T ptrSize frame = none

section Frames

variable {onlyHeader : Bool} {frame : List UInt8}

theorem isAValid_iff {T : MessageType onlyHeader} :
    Message.isAValid T frame = true ↔ frame.take MESSAGE_HEADER_LENGTH = T.header.chars := by
  rw [Message.isAValid, beq_iff_eq]

/-- A type whose header is that of `Continue` has its frames told apart as `Continue` has. -/
theorem isAValid_congr {T : MessageType onlyHeader} (h : T.header = Message.Continue.header) :
    Message.isAValid T frame = Message.isAValid Message.Continue frame := by
  rw [Message.isAValid, Message.isAValid, h]

/-- On frames of full size the header alone decides. -/
theorem recvMsg_eq (T : MessageType true) (h : frame.length = MESSAGE_SIZE ptrSize) :
    recvMsg T ptrSize frame = Message.isAValid Message.Continue frame := by
  rw [recvMsg, h, beq_self_eq_true, Bool.true_and]

@[inherit_doc recvMsg_eq]
theorem recvMsgAndBody_eq (T : MessageType false) (h : frame.length = MESSAGE_SIZE ptrSize) :
    recvMsgAndBody T ptrSize frame =
      if Message.isAValid Message.Continue frame then some frame else none := by
  rw [recvMsgAndBody, h, beq_self_eq_true, Bool.true_and]

theorem take_sendMsgWith (T : MessageType false) {bdy : List UInt8} (h : bdy.length = ptrSize) :
    (sendMsgWith T ptrSize bdy).take MESSAGE_HEADER_LENGTH = T.header.chars := by
  rw [sendMsgWith, messageWith_eq T h, ← T.length_header, List.take_left]

theorem drop_sendMsgWith (T : MessageType false) {bdy : List UInt8} (h : bdy.length = ptrSize) :
    (sendMsgWith T ptrSize bdy).drop MESSAGE_HEADER_LENGTH = bdy := by
  rw [sendMsgWith, messageWith_eq T h, ← T.length_header, List.drop_left]

end Frames

/-- **Typed receive undoes typed send for the header of `Continue` alone.** -/
theorem receiveUndoesSend_iff (ptrSize : ℕ) {onlyHeader : Bool} (T : MessageType onlyHeader) :
    ReceiveUndoesSend ptrSize T ↔ T.header = Message.Continue.header := by
  cases onlyHeader with
  | true =>
    have hsend : ∀ after, recvMsg T ptrSize (sendMsg T ptrSize after) = true ↔
        T.header = Message.Continue.header := by
      intro after
      rw [recvMsg_eq T (length_sendMsg T after), isAValid_iff, take_sendMsg]
      exact ⟨CString.ext, congrArg CString.chars⟩
    constructor
    · intro h
      exact (hsend fun _ => 0).mp (h.1 _)
    · intro heq
      refine ⟨fun after => (hsend after).mpr heq, fun frame hlen hother => ?_⟩
      rw [recvMsg_eq T hlen, ← isAValid_congr heq, hother]
  | false =>
    have hsend : ∀ bdy : List UInt8, bdy.length = ptrSize →
        (Message.isAValid Message.Continue (sendMsgWith T ptrSize bdy) = true ↔
          T.header = Message.Continue.header) := by
      intro bdy hbdy
      rw [isAValid_iff, take_sendMsgWith T hbdy]
      exact ⟨CString.ext, congrArg CString.chars⟩
    constructor
    · intro h
      have hzeros : (List.replicate ptrSize (0 : UInt8)).length = ptrSize := List.length_replicate
      obtain ⟨buffer, hrecv, -⟩ := h.1 _ hzeros
      rw [recvMsgAndBody_eq T (length_sendMsgWith T hzeros)] at hrecv
      refine (hsend _ hzeros).mp ?_
      by_contra hother
      rw [if_neg hother] at hrecv
      cases hrecv
    · intro heq
      refine ⟨fun bdy hbdy => ⟨_, ?_, take_sendMsgWith T hbdy, drop_sendMsgWith T hbdy⟩,
        fun frame hlen hother => ?_⟩
      · rw [recvMsgAndBody_eq T (length_sendMsgWith T hbdy), if_pos ((hsend bdy hbdy).mpr heq)]
      · rw [recvMsgAndBody_eq T hlen, ← isAValid_congr heq, hother]
        rfl

/-- The receive of `Ret` refuses a frame that the send of `Ret` writes and accepts one of
`Continue`, and the receive of `NewSignal` refuses its own. -/
theorem not_receiveUndoesSend_ret :
    recvMsgAndBody Message.Ret 8 (sendMsgWith Message.Ret 8 (LittleEndian.store (7 : AppPc 8))) =
        none ∧
      recvMsgAndBody Message.Ret 8 (Message.Continue.message 8) =
        some (Message.Continue.message 8) ∧
      recvMsg Message.NewSignal 8 (Message.NewSignal.message 8) = false ∧
      ¬ReceiveUndoesSend 8 Message.Ret := by
  refine ⟨by decide, by decide, by decide, fun h => ?_⟩
  obtain ⟨buffer, hrecv, -⟩ := h.1 (LittleEndian.store (7 : AppPc 8)) (by decide)
  cases hrecv

end DrShadowStack
