import DrShadowStack.Common.TwoRuns
import DrShadowStack.ExternalSS

/-!
# The bytes that the client writes for its events

`send_msg` of a header-only type writes `MESSAGE_SIZE` bytes from the header's literal on, so behind
the literal's NUL it writes what the memory of the client holds there. The padded `message` of the
type is what the server sends of `Continue`; the client does not use it.
-/

namespace DrShadowStack.ExternalSS

open TwoRuns

variable {ptrSize : ℕ}

/-- The stream that the client writes: for each event what its handler writes, with the memory
behind the literals as it is at that time. -/
def stream (ws : List ((ℕ → UInt8) × Event ptrSize)) : List UInt8 :=
  ws.flatMap fun w => frame w.1 w.2

/-- The header-only message of an event. -/
def headerOnly : Event ptrSize → Option (MessageType true)
  | .call _ => none
  | .ret _ => none
  | .signal => some Message.NewSignal
  | .execve _ => some Message.Execve

/-- The stream is a function of the events, and the frames of the header-only messages are the
padded ones. -/
structure FunctionOfEvents (evs : List (Event ptrSize)) : Prop where
  same : ∀ ws ws' : List ((ℕ → UInt8) × Event ptrSize), ws.map Prod.snd = evs →
    ws'.map Prod.snd = evs → stream ws = stream ws'
  padded : ∀ e ∈ evs, ∀ T, headerOnly e = some T → ∀ after, frame after e = T.message ptrSize

/-! ## One frame -/

section Frames

variable {after after' : ℕ → UInt8} {e : Event ptrSize} {T : MessageType true}

/-- Behind the header stand the NUL of the literal and what the memory holds behind it. -/
theorem sendMsg_succ (T : MessageType true) (k : ℕ) (after : ℕ → UInt8) :
    sendMsg T (k + 1) after = T.header.chars ++ 0 :: (List.range k).map after := by
  have hsize : MESSAGE_SIZE (k + 1) = T.header.chars.length + (k + 1) := by
    rw [T.length_header, MESSAGE_SIZE, Nat.add_comm]
  rw [sendMsg, readLiteral, hsize, List.take_length_add_append, List.take_succ_cons,
    ← List.map_take, List.take_range, Nat.min_eq_left (by omega)]

theorem message_succ (T : MessageType true) (k : ℕ) :
    T.message (k + 1) = T.header.chars ++ 0 :: List.replicate k 0 := by
  have hle : T.header.chars.length ≤ MESSAGE_SIZE (k + 1) := by
    rw [T.length_header]
    exact header_length_le (k + 1)
  have hrest : MESSAGE_SIZE (k + 1) - T.header.strlen = k + 1 := by
    rw [T.header_length, MESSAGE_SIZE, Nat.add_sub_cancel]
  rw [MessageType.message, setLength, List.take_of_length_le hle, hrest, List.replicate_succ]

/-- The two encoders agree where the memory behind the literal holds zeros. -/
theorem sendMsg_eq_message_iff :
    sendMsg T ptrSize after = T.message ptrSize ↔ ∀ i, i + 1 < ptrSize → after i = 0 := by
  cases ptrSize with
  | zero =>
    have hheader : sendMsg T 0 after = T.message 0 := by
      have hsend := @take_sendMsg 0 T after
      have hmessage := @take_message 0 T
      rw [List.take_of_length_le (by simp [MESSAGE_SIZE])] at hsend hmessage
      rw [hsend, hmessage]
    simp [hheader]
  | succ k =>
    have hzeros := @List.map_eq_replicate_iff _ _ (List.range k) after 0
    rw [List.length_range] at hzeros
    rw [sendMsg_succ, message_succ, List.append_cancel_left_eq, List.cons_inj_right, hzeros]
    simp

theorem frame_of_headerOnly (h : headerOnly e = some T) (after : ℕ → UInt8) :
    frame after e = sendMsg T ptrSize after := by
  cases e with
  | call a => cases h
  | ret t => cases h
  | signal => exact Option.some.inj h ▸ rfl
  | execve env => exact Option.some.inj h ▸ rfl

/-- The frame of a message with a body has no room for anything else. -/
theorem frame_of_withBody (h : headerOnly e = none) (after after' : ℕ → UInt8) :
    frame after e = frame after' e := by
  cases e with
  | call a => rfl
  | ret t => rfl
  | signal => cases h
  | execve env => cases h

theorem length_frame_eq (after after' : ℕ → UInt8) (e : Event ptrSize) :
    (frame after e).length = (frame after' e).length := by
  cases e with
  | call a => rfl
  | ret t => rfl
  | signal => rw [frame, frame, onSignal, onSignal, length_sendMsg, length_sendMsg]
  | execve env => rw [frame, frame, execveMsg, execveMsg, length_sendMsg, length_sendMsg]

/-- A frame is the same for all memories where it has no room for them. -/
theorem frame_eq_iff :
    (∀ after after', frame after e = frame after' e) ↔ ptrSize ≤ 1 ∨ headerOnly e = none := by
  constructor
  · intro h
    by_contra hnot
    obtain ⟨hsize, hheader⟩ := not_or.mp hnot
    obtain ⟨T, hT⟩ := Option.ne_none_iff_exists'.mp hheader
    have hzeros : sendMsg T ptrSize (fun _ => 0) = T.message ptrSize :=
      sendMsg_eq_message_iff.mpr fun _ _ => rfl
    have hones : sendMsg T ptrSize (fun _ => 1) = T.message ptrSize := by
      rw [← hzeros, ← frame_of_headerOnly hT, ← frame_of_headerOnly hT]
      exact h _ _
    exact absurd (sendMsg_eq_message_iff.mp hones 0 (by omega)) (by decide)
  · rintro (hsize | hnone) after after'
    · rcases hT : headerOnly e with _ | T
      · exact frame_of_withBody hT after after'
      · rw [frame_of_headerOnly hT, frame_of_headerOnly hT,
          sendMsg_eq_message_iff.mpr fun i hi => absurd hi (by omega),
          sendMsg_eq_message_iff.mpr fun i hi => absurd hi (by omega)]
    · exact frame_of_withBody hnone after after'

end Frames

/-! ## The stream -/

section Streams

variable {evs : List (Event ptrSize)}

/-- The frames of a stream have their lengths from the events, so they are the same for all memories
exactly where the stream is. -/
theorem stream_same_iff :
    (∀ ws ws' : List ((ℕ → UInt8) × Event ptrSize), ws.map Prod.snd = evs →
        ws'.map Prod.snd = evs → stream ws = stream ws') ↔
      ∀ e ∈ evs, ∀ after after', frame after e = frame after' e := by
  have hlength : ∀ w w' : (ℕ → UInt8) × Event ptrSize, w.2 = w'.2 →
      (frame w.1 w.2).length = (frame w'.1 w'.2).length := by
    rintro ⟨after, e⟩ ⟨after', e'⟩ rfl
    exact length_frame_eq after after' e
  refine (sameOutput_iff Prod.snd_surjective hlength).trans (forall₂_congr fun e _ => ?_)
  constructor
  · intro h after after'
    exact h (after, e) (after', e) rfl rfl
  · rintro h ⟨after, d⟩ ⟨after', d'⟩ rfl rfl
    exact h after after'

theorem padded_of_withBody (h : ptrSize ≤ 1 ∨ ∀ e ∈ evs, headerOnly e = none) :
    ∀ e ∈ evs, ∀ T, headerOnly e = some T → ∀ after, frame after e = T.message ptrSize := by
  intro e he T hT after
  rw [frame_of_headerOnly hT, sendMsg_eq_message_iff]
  intro i hi
  rcases h with hsize | hnone
  · omega
  · rw [hnone e he] at hT
    cases hT

/-- **The stream is a function of the events exactly where no header-only message is sent.** -/
theorem functionOfEvents_iff :
    FunctionOfEvents evs ↔ ptrSize ≤ 1 ∨ ∀ e ∈ evs, headerOnly e = none := by
  have hframes : (∀ e ∈ evs, ∀ after after', frame after e = frame after' e) ↔
      ptrSize ≤ 1 ∨ ∀ e ∈ evs, headerOnly e = none := by
    simp only [frame_eq_iff, ← forall_or_left, imp_iff_not_or]
    exact forall_congr' fun e => or_left_comm
  constructor
  · intro h
    exact hframes.mp (stream_same_iff.mp h.same)
  · intro h
    exact ⟨stream_same_iff.mpr (hframes.mpr h), padded_of_withBody h⟩

/-- One signal on a 64 bit machine: seven bytes of the memory behind the literal are sent. -/
theorem not_functionOfEvents_signal :
    stream [((fun _ => 0), (Event.signal : Event 8))] =
        [78, 69, 87, 83, 0, 0, 0, 0, 0, 0, 0, 0] ∧
      stream [((fun _ => 115), (Event.signal : Event 8))] =
        [78, 69, 87, 83, 0, 115, 115, 115, 115, 115, 115, 115] ∧
      ¬FunctionOfEvents [(Event.signal : Event 8)] := by
  refine ⟨by decide, by decide, fun h => ?_⟩
  have hsame := h.same [((fun _ => 0), .signal)] [((fun _ => 115), .signal)] rfl rfl
  exact absurd hsame (by decide)

end Streams

end DrShadowStack.ExternalSS
