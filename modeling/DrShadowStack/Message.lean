import DrShadowStack.Common.LittleEndian
import DrShadowStack.Constants

/-!
# Messages (`message.hpp`, `message.cpp`)

All messages have `MESSAGE_SIZE` bytes: a header of `MESSAGE_HEADER_LENGTH` characters and a body of
pointer size. A header-only message does not carry a body, but its frame has one all the same:
`message` is the header padded with zeros, while `sendMsg` writes `MESSAGE_SIZE` bytes from the
header's string literal, so that its frame goes on with the literal's NUL and with whatever the
memory after it holds.
-/

namespace DrShadowStack

/-- The number of characters of a message header. -/
def MESSAGE_HEADER_LENGTH : ℕ := 4

/-- The size of a message. -/
def MESSAGE_SIZE (ptrSize : ℕ) : ℕ := ptrSize + MESSAGE_HEADER_LENGTH

/-- A message type. The header's length is checked where the type is made. -/
structure MessageType (onlyHeader : Bool) where
  header : CString
  header_length : header.strlen = MESSAGE_HEADER_LENGTH

namespace Message

/-- The continue message. -/
def Continue : MessageType true := ⟨CString.lit "CONT", rfl⟩

/-- The call message. -/
def Call : MessageType false := ⟨CString.lit "CALL", rfl⟩

/-- The ret message. -/
def Ret : MessageType false := ⟨CString.lit "RET-", rfl⟩

/-- The new signal message. -/
def NewSignal : MessageType true := ⟨CString.lit "NEWS", rfl⟩

/-- The execve message. -/
def Execve : MessageType true := ⟨CString.lit "EXEC", rfl⟩

/-- The fork message. -/
def Fork : MessageType true := ⟨CString.lit "FORK", rfl⟩

/-- The thread message. -/
def Thread : MessageType true := ⟨CString.lit "THRD", rfl⟩

/-- Does the buffer start with the header of `T`? -/
def isAValid {onlyHeader : Bool} (T : MessageType onlyHeader) (buffer : List UInt8) : Bool :=
  buffer.take MESSAGE_HEADER_LENGTH == T.header.chars

end Message

/-- The `n` bytes that `strncpy( memset( dst, 0, n ), src, n )` leaves at `dst`. -/
def setLength (src : CString) (n : ℕ) : List UInt8 :=
  src.chars.take n ++ List.replicate (n - src.strlen) 0

/-- The `n` bytes read from a string literal on: its characters, its NUL, and `after`, the memory
that follows it. -/
def readLiteral (s : CString) (after : ℕ → UInt8) (n : ℕ) : List UInt8 :=
  (s.chars ++ 0 :: (List.range n).map after).take n

namespace MessageType

/-- The padded message of a header-only type. -/
def message (T : MessageType true) (ptrSize : ℕ) : List UInt8 :=
  setLength T.header (MESSAGE_SIZE ptrSize)

/-- The message of a type with a body, made from the `ptrSize` bytes at `ptr`. -/
def messageWith (T : MessageType false) (ptrSize : ℕ) (ptr : List UInt8) : List UInt8 :=
  T.header.chars.take MESSAGE_HEADER_LENGTH ++ ptr.take ptrSize

end MessageType

/-- The bytes that `send_msg` of a header-only type passes to `write`; `after` is the memory that
follows the header's literal. -/
def sendMsg (T : MessageType true) (ptrSize : ℕ) (after : ℕ → UInt8) : List UInt8 :=
  readLiteral T.header after (MESSAGE_SIZE ptrSize)

/-- The bytes that `send_msg` of a type with a body passes to `write`. -/
def sendMsgWith (T : MessageType false) (ptrSize : ℕ) (bdy : List UInt8) : List UInt8 :=
  T.messageWith ptrSize bdy

/-- Does `recv_msg` of a header-only type accept the bytes that `recv` returned? The check compares
with the header of `Continue` whatever the type is. -/
def recvMsg (_T : MessageType true) (ptrSize : ℕ) (buffer : List UInt8) : Bool :=
  buffer.length == MESSAGE_SIZE ptrSize && Message.isAValid Message.Continue buffer

/-- What `recv_msg_and_body` makes of the bytes that `recv` returned: it returns the buffer, or an
assertion fails. Its check compares with the header of `Continue` as well. -/
def recvMsgAndBody (_T : MessageType false) (ptrSize : ℕ) (buffer : List UInt8) :
    Option (List UInt8) :=
  if buffer.length == MESSAGE_SIZE ptrSize && Message.isAValid Message.Continue buffer then
    some buffer
  else none

/-- `recv` with `MSG_WAITALL`: the next `n` bytes of the stream, or what is left of them, and the
stream behind them. -/
def recvWaitAll (n : ℕ) (stream : List UInt8) : List UInt8 × List UInt8 :=
  (stream.take n, stream.drop n)

/-! ## Frames -/

section Frames

variable {ptrSize : ℕ}

@[simp] theorem MessageType.length_header {onlyHeader : Bool} (T : MessageType onlyHeader) :
    T.header.chars.length = MESSAGE_HEADER_LENGTH := T.header_length

theorem header_length_le (ptrSize : ℕ) : MESSAGE_HEADER_LENGTH ≤ MESSAGE_SIZE ptrSize :=
  Nat.le_add_left _ _

theorem MESSAGE_SIZE_pos (ptrSize : ℕ) : 0 < MESSAGE_SIZE ptrSize :=
  Nat.lt_of_lt_of_le (by decide) (header_length_le ptrSize)

@[simp] theorem length_message (T : MessageType true) :
    (T.message ptrSize).length = MESSAGE_SIZE ptrSize := by
  have hle := header_length_le ptrSize
  simp only [MessageType.message, setLength, CString.strlen, List.length_append, List.length_take,
    List.length_replicate, T.length_header]
  omega

@[simp] theorem length_sendMsg (T : MessageType true) (after : ℕ → UInt8) :
    (sendMsg T ptrSize after).length = MESSAGE_SIZE ptrSize := by
  simp only [sendMsg, readLiteral, List.length_take, List.length_append, List.length_cons,
    List.length_map, List.length_range]
  omega

/-- The frame of a header-only message starts with its header, whatever follows it. -/
theorem take_sendMsg (T : MessageType true) (after : ℕ → UInt8) :
    (sendMsg T ptrSize after).take MESSAGE_HEADER_LENGTH = T.header.chars := by
  rw [sendMsg, readLiteral, List.take_take, Nat.min_eq_left (header_length_le ptrSize),
    ← T.length_header, List.take_left]

theorem take_message (T : MessageType true) :
    (T.message ptrSize).take MESSAGE_HEADER_LENGTH = T.header.chars := by
  have htake : T.header.chars.take (MESSAGE_SIZE ptrSize) = T.header.chars :=
    List.take_of_length_le (T.length_header ▸ header_length_le ptrSize)
  rw [MessageType.message, setLength, htake, ← T.length_header, List.take_left]

theorem messageWith_eq (T : MessageType false) {bdy : List UInt8} (h : bdy.length = ptrSize) :
    T.messageWith ptrSize bdy = T.header.chars ++ bdy := by
  rw [MessageType.messageWith, List.take_of_length_le (le_of_eq T.length_header),
    List.take_of_length_le (le_of_eq h)]

theorem length_sendMsgWith (T : MessageType false) {bdy : List UInt8} (h : bdy.length = ptrSize) :
    (sendMsgWith T ptrSize bdy).length = MESSAGE_SIZE ptrSize := by
  rw [sendMsgWith, messageWith_eq T h, List.length_append, T.length_header, h, MESSAGE_SIZE,
    Nat.add_comm]

/-- The padded `Continue` passes the check of `recv_msg`. -/
theorem recvMsg_continue : recvMsg Message.Continue ptrSize (Message.Continue.message ptrSize) := by
  simp [recvMsg, Message.isAValid, take_message]

/-- Receiving the first frame of a stream. -/
theorem recvWaitAll_append {frame rest : List UInt8} {n : ℕ} (h : frame.length = n) :
    recvWaitAll n (frame ++ rest) = (frame, rest) := by
  subst h
  simp [recvWaitAll]

end Frames

end DrShadowStack
