import DrShadowStack.Message
import DrShadowStack.ShadowStack

/-!
# The external shadow stack server (`external_stack_server.cpp`)

The server reads frames of `MESSAGE_HEADER_LENGTH + POINTER_SIZE` bytes from the client's socket and
dispatches each on its header. Writes of a reply succeed in full here; the paths on which they and
the reporting fail are those of `DrShadowStack.Reporting`.

## Shape of the proof

A frame denotes at most one operation on the shadow stack (`Frame.op`), and processing it performs
this operation or terminates (`processMessage_frame`). So the loop runs through any list of frames
whose operations are accepted (`serve_frames`). Every stream splits into such a list and a tail that
is empty or offends (`exists_frames`), and the loop ends on that tail (`serve_offending`).
-/

namespace DrShadowStack.ExternalServer

open StackDiscipline ShadowStack Message

variable {ptrSize : ℕ}

/-- How a function without a result ended: it returned or it called `Group::terminate`, in either
case with what it had done until then. -/
inductive Ended (α : Type*)
  | returned (a : α)
  | terminated (a : α)

/-- The type of a stack used to hold all the pointers, top first. -/
abbrev PointerStack (ptrSize : ℕ) := List (AppPc ptrSize)

/-- The type of a message handling function: from the stack and the message's body to the stack and
the bytes written to the client's socket. -/
abbrev MessageHandler (ptrSize : ℕ) :=
  PointerStack ptrSize → List UInt8 → Ended (PointerStack ptrSize × List UInt8)

/-- Called whenever a signal is sent to the client. -/
def addWildcard : MessageHandler ptrSize := fun stk _ => .returned (wildcard :: stk, [])

/-- `while ( stk.size() ) stk.pop();` -/
def popAll : PointerStack ptrSize → PointerStack ptrSize
  | [] => []
  | _ :: stk => popAll stk

/-- Clears the stack whenever execve is called. -/
def clearStack : MessageHandler ptrSize := fun stk _ => .returned (popAll stk, [])

/-- `*( (char **) buffer )` -/
def readPointer (ptrSize : ℕ) (buffer : List UInt8) : AppPc ptrSize :=
  LittleEndian.load ptrSize (buffer.take ptrSize)

/-- Called when a 'call' was detected. -/
def callHandler : MessageHandler ptrSize := fun stk buffer =>
  .returned (readPointer ptrSize buffer :: stk, [])

/-- Called when a 'ret' was detected. -/
def retHandler : MessageHandler ptrSize := fun stk buffer =>
  let addr := readPointer ptrSize buffer
  match stk with
  -- `terminate` does not return, so `top` and `pop` are not reached
  | [] => .terminated (stk, [])
  | top :: rest =>
    if top = wildcard then .returned (rest, Continue.message ptrSize)
    else if addr ≠ top then .terminated (stk, [])
    else .returned (rest, Continue.message ptrSize)

/-- The message handling function map; a null function pointer is `none`. -/
abbrev HandlerMap (ptrSize : ℕ) := List (List UInt8 × Option (MessageHandler ptrSize))

/-- The map as it is populated. -/
def callCorrectFunction : HandlerMap ptrSize :=
  [(NewSignal.header.chars, some addWildcard), (Execve.header.chars, some clearStack),
    (Call.header.chars, some callHandler), (Ret.header.chars, some retHandler)]

/-- `std::map::operator[]`: a missing key is inserted with a null pointer. -/
def HandlerMap.index (map : HandlerMap ptrSize) (key : List UInt8) :
    Option (MessageHandler ptrSize) × HandlerMap ptrSize :=
  match map.lookup key with
  | some functionPtr => (functionPtr, map)
  | none => (none, (key, none) :: map)

/-- What the loop of the server works on: the map, the stack, the bytes of the client it has not yet
received and the bytes it has written. -/
structure Loop (ptrSize : ℕ) where
  map : HandlerMap ptrSize
  stk : PointerStack ptrSize
  unread : List UInt8
  sent : List UInt8

/-- Verify that a message is valid, then call the appropriate function. -/
def processMessage (map : HandlerMap ptrSize) (stk : PointerStack ptrSize) (buffer : List UInt8) :
    HandlerMap ptrSize × Ended (PointerStack ptrSize × List UInt8) :=
  let messageType := buffer.take MESSAGE_HEADER_LENGTH
  let (functionPtr, map) := map.index messageType
  match functionPtr with
  -- the null pointer is logged, and fails the assertion in front of the call
  | none => (map, .terminated (stk, []))
  | some function => (map, function stk (buffer.drop MESSAGE_HEADER_LENGTH))

/-- How one pass of the loop ends. -/
inductive Pass (ptrSize : ℕ)
  | again (l : Loop ptrSize)
  | left (l : Loop ptrSize)
  | terminated (l : Loop ptrSize)

/-- One pass of the loop. -/
def pass (l : Loop ptrSize) : Pass ptrSize :=
  let numBytes := MESSAGE_HEADER_LENGTH + ptrSize
  let (buffer, unread) := recvWaitAll numBytes l.unread
  -- the stream ended within a message
  if ¬(buffer.length = numBytes ∨ buffer.length = 0) then .terminated { l with unread }
  else if buffer.length = 0 then .left { l with unread }
  else
    match processMessage l.map l.stk buffer with
    | (map, .returned (stk, out)) => .again { map, stk, unread, sent := l.sent ++ out }
    | (map, .terminated (stk, out)) => .terminated { map, stk, unread, sent := l.sent ++ out }

theorem pass_again_unread {l l' : Loop ptrSize} (h : pass l = .again l') :
    l'.unread.length < l.unread.length := by
  unfold pass at h
  simp only [recvWaitAll, List.length_take] at h
  split at h
  · cases h
  · split at h
    · cases h
    · next hpos =>
      split at h
      · obtain rfl := Pass.again.inj h
        simp only [List.length_drop, MESSAGE_HEADER_LENGTH] at hpos ⊢
        omega
      · cases h

theorem pass_terminated_unread {l l' : Loop ptrSize} (h : pass l = .terminated l') :
    l'.unread.length ≤ l.unread.length := by
  unfold pass at h
  simp only [recvWaitAll, List.length_take] at h
  split at h
  · obtain rfl := Pass.terminated.inj h
    simp
  · split at h
    · cases h
    · split at h
      · cases h
      · obtain rfl := Pass.terminated.inj h
        simp

/-- Loop until the client disconnects. -/
def serve (l : Loop ptrSize) : Ended (Loop ptrSize) :=
  match _h : pass l with
  | .again l' => serve l'
  | .left l' => .returned l'
  | .terminated l' => .terminated l'
termination_by l.unread.length
decreasing_by exact pass_again_unread _h

/-- The server before its first message. -/
def initial (stream : List UInt8) : Loop ptrSize :=
  { map := callCorrectFunction, stk := [], unread := stream, sent := [] }

/-- The external shadow stack function, on the bytes that the client sends before it disconnects. -/
def startExternalShadowStack (ptrSize : ℕ) (stream : List UInt8) : Ended (Loop ptrSize) :=
  serve (initial stream)

theorem serve_eq (l : Loop ptrSize) :
    serve l = match pass l with
      | .again l' => serve l'
      | .left l' => .returned l'
      | .terminated l' => .terminated l' := by
  rw [serve]
  split <;> simp_all

/-! ## Frames -/

/-- The bytes of one whole message. -/
structure Frame (ptrSize : ℕ) where
  header : List UInt8
  body : List UInt8
  header_length : header.length = MESSAGE_HEADER_LENGTH
  body_length : body.length = ptrSize

namespace Frame

/-- The frame as it stands in the stream. -/
def bytes (f : Frame ptrSize) : List UInt8 := f.header ++ f.body

/-- The operation on the shadow stack that a frame asks for, unless its header is unknown. -/
def op (f : Frame ptrSize) : Option (Op (AppPc ptrSize) (AppPc ptrSize)) :=
  if f.header = NewSignal.header.chars then some (.push wildcard)
  else if f.header = Execve.header.chars then some .clear
  else if f.header = Call.header.chars then some (.push (LittleEndian.load ptrSize f.body))
  else if f.header = Ret.header.chars then some (.pop (LittleEndian.load ptrSize f.body))
  else none

theorem length_bytes (f : Frame ptrSize) :
    f.bytes.length = MESSAGE_HEADER_LENGTH + ptrSize := by
  rw [bytes, List.length_append, f.header_length, f.body_length]

theorem take_bytes (f : Frame ptrSize) : f.bytes.take MESSAGE_HEADER_LENGTH = f.header := by
  rw [bytes, ← f.header_length, List.take_left]

theorem drop_bytes (f : Frame ptrSize) : f.bytes.drop MESSAGE_HEADER_LENGTH = f.body := by
  rw [bytes, ← f.header_length, List.drop_left]

/-- The frame that full-size bytes make. -/
def ofBytes (bs : List UInt8) (h : bs.length = MESSAGE_HEADER_LENGTH + ptrSize) :
    Frame ptrSize where
  header := bs.take MESSAGE_HEADER_LENGTH
  body := bs.drop MESSAGE_HEADER_LENGTH
  header_length := by rw [List.length_take, h]; omega
  body_length := by rw [List.length_drop, h]; omega

@[simp] theorem bytes_ofBytes (bs : List UInt8)
    (h : bs.length = MESSAGE_HEADER_LENGTH + ptrSize) : (ofBytes bs h).bytes = bs :=
  List.take_append_drop _ _

end Frame

/-- Frames one after the other, as the stream carries them. -/
def framesBytes (frames : List (Frame ptrSize)) : List UInt8 := frames.flatMap Frame.bytes

/-- The reply to an operation: a `Continue` frame for an accepted ret, nothing else. -/
def replyTo : Op (AppPc ptrSize) (AppPc ptrSize) → List UInt8
  | .pop _ => Continue.message ptrSize
  | _ => []

@[simp] theorem popAll_eq_nil (stk : PointerStack ptrSize) : popAll stk = [] := by
  induction stk with
  | nil => rfl
  | cons _ stk ih => exact ih

/-- A known header finds its handler and leaves the map alone. -/
theorem index_of_known {f : Frame ptrSize} {o : Op (AppPc ptrSize) (AppPc ptrSize)}
    (h : f.op = some o) :
    ∃ function, callCorrectFunction.index f.header = (some function, callCorrectFunction) ∧
      ∀ stk, function stk f.body =
        match StackDiscipline.step returnsTo stk o with
        | some stk' => .returned (stk', replyTo o)
        | none => .terminated (stk, []) := by
  have hread : readPointer ptrSize f.body = LittleEndian.load ptrSize f.body := by
    rw [readPointer, List.take_of_length_le (le_of_eq f.body_length)]
  rw [Frame.op] at h
  split_ifs at h with hnews hexec hcall hret
  · obtain rfl := Option.some.inj h
    exact ⟨addWildcard, by rw [hnews]; rfl, fun stk => rfl⟩
  · obtain rfl := Option.some.inj h
    exact ⟨clearStack, by rw [hexec]; rfl, fun stk => by simp [clearStack, replyTo]⟩
  · obtain rfl := Option.some.inj h
    exact ⟨callHandler, by rw [hcall]; rfl, fun stk => by simp [callHandler, hread, replyTo]⟩
  · obtain rfl := Option.some.inj h
    refine ⟨retHandler, by rw [hret]; rfl, fun stk => ?_⟩
    cases stk with
    | nil => rfl
    | cons top rest =>
      rw [retHandler, hread, step_pop_cons, returnsTo]
      by_cases hw : top = wildcard
      · simp [hw, replyTo]
      · by_cases ht : LittleEndian.load ptrSize f.body = top
        · simp [hw, ht, replyTo]
        · simp [hw, ht, Ne.symm ht]

/-- An unknown header is inserted with a null pointer. -/
theorem index_of_unknown {f : Frame ptrSize} (h : f.op = none) :
    (callCorrectFunction : HandlerMap ptrSize).index f.header =
      (none, (f.header, none) :: callCorrectFunction) := by
  rw [Frame.op] at h
  split_ifs at h with hnews hexec hcall hret
  have hlookup : (callCorrectFunction : HandlerMap ptrSize).lookup f.header = none := by
    simp only [callCorrectFunction, List.lookup_cons, List.lookup_nil, beq_false_of_ne hnews,
      beq_false_of_ne hexec, beq_false_of_ne hcall, beq_false_of_ne hret]
  rw [HandlerMap.index, hlookup]

/-- **One frame** is one operation: it is performed and answered, or the server terminates with the
stack as it was and nothing written. -/
theorem processMessage_frame (f : Frame ptrSize) (stk : PointerStack ptrSize) :
    (∃ o stk', f.op = some o ∧ StackDiscipline.step returnsTo stk o = some stk' ∧
      processMessage callCorrectFunction stk f.bytes =
        (callCorrectFunction, .returned (stk', replyTo o))) ∨
    ((∀ o, f.op = some o → StackDiscipline.step returnsTo stk o = none) ∧
      ∃ map, processMessage callCorrectFunction stk f.bytes = (map, .terminated (stk, []))) := by
  simp only [processMessage, f.take_bytes, f.drop_bytes]
  cases hop : f.op with
  | none =>
    rw [index_of_unknown hop]
    exact .inr ⟨fun o ho => (Option.some_ne_none o ho.symm).elim, _, rfl⟩
  | some o =>
    obtain ⟨function, hindex, hfun⟩ := index_of_known hop
    rw [hindex]
    simp only [hfun]
    cases hstep : StackDiscipline.step returnsTo stk o with
    | none =>
      refine .inr ⟨fun o' ho' => ?_, _, rfl⟩
      rw [← Option.some.inj ho']
      exact hstep
    | some stk' => exact .inl ⟨o, stk', rfl, hstep, rfl⟩

/-! ## The loop on a stream of frames -/

/-- The state of the loop while every message so far was accepted. -/
def running (stk : PointerStack ptrSize) (unread sent : List UInt8) : Loop ptrSize :=
  { map := callCorrectFunction, stk, unread, sent }

/-- The tail of a stream on which the server terminates: a truncated frame, an unknown header, or a
ret that the stack refuses. -/
inductive Offending (stk : PointerStack ptrSize) : List UInt8 → Prop
  | truncated {tail : List UInt8} : tail ≠ [] → tail.length < MESSAGE_SIZE ptrSize →
      Offending stk tail
  | unknown {f : Frame ptrSize} {rest : List UInt8} : f.op = none → Offending stk (f.bytes ++ rest)
  | refused {f : Frame ptrSize} {rest : List UInt8} {t : AppPc ptrSize} : f.op = some (.pop t) →
      admits returnsTo stk t = false → Offending stk (f.bytes ++ rest)

section Loop

variable {stk stk' : PointerStack ptrSize} {unread sent : List UInt8}

theorem size_eq (ptrSize : ℕ) : MESSAGE_HEADER_LENGTH + ptrSize = MESSAGE_SIZE ptrSize :=
  Nat.add_comm _ _

/-- A pass that receives a whole frame processes it. -/
theorem pass_frame (f : Frame ptrSize) (rest : List UInt8) :
    pass (running stk (f.bytes ++ rest) sent) =
      match processMessage callCorrectFunction stk f.bytes with
      | (map, .returned (stk, out)) => .again { map, stk, unread := rest, sent := sent ++ out }
      | (map, .terminated (stk, out)) =>
        .terminated { map, stk, unread := rest, sent := sent ++ out } := by
  have hne : ¬(MESSAGE_HEADER_LENGTH + ptrSize = 0) := by
    simp [MESSAGE_HEADER_LENGTH]
  simp only [pass, running, recvWaitAll_append f.length_bytes, f.length_bytes, true_or, not_true,
    if_false, hne]

/-- A frame that is accepted is performed and answered, and the loop goes on behind it. -/
theorem serve_frame {f : Frame ptrSize} {o : Op (AppPc ptrSize) (AppPc ptrSize)}
    (hop : f.op = some o) (hstep : StackDiscipline.step returnsTo stk o = some stk') :
    serve (running stk (f.bytes ++ unread) sent) =
      serve (running stk' unread (sent ++ replyTo o)) := by
  rcases processMessage_frame f stk with ⟨o', stk'', hop', hstep', hproc⟩ | ⟨hno, -⟩
  · obtain rfl : o = o' := by simpa [hop] using hop'
    obtain rfl : stk' = stk'' := by simpa [hstep] using hstep'
    rw [serve_eq, pass_frame, hproc]
    rfl
  · rw [hno o hop] at hstep
    cases hstep

/-- Frames whose operations are accepted are all performed and answered. -/
theorem serve_frames {frames : List (Frame ptrSize)}
    {ops : List (Op (AppPc ptrSize) (AppPc ptrSize))}
    (hops : frames.map Frame.op = ops.map some)
    (hrun : PartialRun.run (StackDiscipline.step returnsTo) stk ops = some stk') :
    serve (running stk (framesBytes frames ++ unread) sent) =
      serve (running stk' unread (sent ++ ops.flatMap replyTo)) := by
  induction frames generalizing stk sent ops with
  | nil =>
    obtain rfl : ops = [] := by simpa using hops.symm
    obtain rfl : stk = stk' := by simpa using hrun
    simp [framesBytes]
  | cons f frames ih =>
    cases ops with
    | nil => simp at hops
    | cons o ops =>
      simp only [List.map_cons, List.cons.injEq] at hops
      rw [PartialRun.run_cons, Option.bind_eq_some_iff] at hrun
      obtain ⟨mid, hmid, hrest⟩ := hrun
      have hbytes : framesBytes (f :: frames) ++ unread =
          f.bytes ++ (framesBytes frames ++ unread) := by
        simp [framesBytes]
      rw [hbytes, serve_frame hops.1 hmid, ih hops.2 hrest, List.flatMap_cons, List.append_assoc]

/-- At the end of the stream the function returns. -/
theorem serve_nil : serve (running stk [] sent) = .returned (running stk [] sent) := by
  rw [serve_eq]
  simp [pass, recvWaitAll, running]

/-- On an offending tail the function terminates, with the stack and the replies as they were and
nothing received behind the offending frame. -/
theorem serve_offending (h : Offending stk unread) :
    ∃ l, serve (running stk unread sent) = .terminated l ∧ l.stk = stk ∧ l.sent = sent ∧
      l.unread = unread.drop (MESSAGE_SIZE ptrSize) := by
  have hbad : ∀ (f : Frame ptrSize) (rest : List UInt8),
      (∀ o, f.op = some o → StackDiscipline.step returnsTo stk o = none) →
      ∃ l, serve (running stk (f.bytes ++ rest) sent) = .terminated l ∧ l.stk = stk ∧
        l.sent = sent ∧ l.unread = (f.bytes ++ rest).drop (MESSAGE_SIZE ptrSize) := by
    intro f rest hno
    rcases processMessage_frame f stk with ⟨o, stk', hop, hstep, -⟩ | ⟨-, map, hproc⟩
    · rw [hno o hop] at hstep
      cases hstep
    · refine ⟨{ map, stk, unread := rest, sent }, ?_, rfl, rfl, ?_⟩
      · rw [serve_eq, pass_frame, hproc]
        simp
      · rw [← size_eq, ← f.length_bytes, List.drop_left]
  cases h with
  -- `recv` returns what there is, which is neither nothing nor a whole message
  | truncated hne hlt =>
    have hlen : (unread.take (MESSAGE_SIZE ptrSize)).length = unread.length := by
      rw [List.length_take]
      omega
    have hpos : unread.length ≠ 0 := by simpa using hne
    refine ⟨running stk (unread.drop (MESSAGE_SIZE ptrSize)) sent, ?_, rfl, rfl, rfl⟩
    rw [serve_eq]
    simp only [pass, running, recvWaitAll, size_eq, hlen]
    rw [if_pos (by omega)]
  | unknown hop => exact hbad _ _ fun o ho => (Option.some_ne_none o (ho.symm.trans hop)).elim
  | refused hop hrefuse =>
    refine hbad _ _ fun o ho => ?_
    rw [← Option.some.inj (hop.symm.trans ho)]
    exact step_pop_eq_none_iff.mpr hrefuse

/-- Every stream is a list of accepted frames and a tail that is empty or offends. -/
theorem exists_frames (stk : PointerStack ptrSize) (stream : List UInt8) :
    ∃ (frames : List (Frame ptrSize)) (ops : List (Op (AppPc ptrSize) (AppPc ptrSize)))
      (stk' : PointerStack ptrSize) (tail : List UInt8),
      stream = framesBytes frames ++ tail ∧ frames.map Frame.op = ops.map some ∧
        PartialRun.run (StackDiscipline.step returnsTo) stk ops = some stk' ∧
        (tail = [] ∨ Offending stk' tail) := by
  -- on what is left of the stream, one whole accepted frame after the other
  induction hn : stream.length using Nat.strong_induction_on generalizing stk stream with
  | _ n ih =>
    rcases Nat.lt_or_ge stream.length (MESSAGE_SIZE ptrSize) with hlt | hge
    · refine ⟨[], [], stk, stream, rfl, rfl, rfl, ?_⟩
      by_cases hnil : stream = []
      · exact .inl hnil
      · exact .inr (.truncated hnil hlt)
    · have htake :
          (stream.take (MESSAGE_SIZE ptrSize)).length = MESSAGE_HEADER_LENGTH + ptrSize := by
        rw [List.length_take, size_eq]
        omega
      have hsplit :
          (Frame.ofBytes _ htake).bytes ++ stream.drop (MESSAGE_SIZE ptrSize) = stream := by
        rw [Frame.bytes_ofBytes, List.take_append_drop]
      generalize Frame.ofBytes _ htake = f at hsplit
      rcases processMessage_frame f stk with ⟨o, mid, hop, hstep, -⟩ | ⟨hno, -⟩
      · have hpos : 0 < MESSAGE_SIZE ptrSize := MESSAGE_SIZE_pos ptrSize
        have hshort : (stream.drop (MESSAGE_SIZE ptrSize)).length < n := by
          rw [List.length_drop]
          omega
        obtain ⟨frames, ops, stk', tail, htail, hops, hrun, hend⟩ := ih _ hshort mid _ rfl
        refine ⟨f :: frames, o :: ops, stk', tail, ?_, ?_, ?_, hend⟩
        · rw [← hsplit, htail]
          simp [framesBytes]
        · rw [List.map_cons, List.map_cons, hop, hops]
        · rw [PartialRun.run_cons, hstep, Option.bind_some, hrun]
      · refine ⟨[], [], stk, stream, rfl, rfl, rfl, .inr ?_⟩
        rw [← hsplit]
        cases hop : f.op with
        | none => exact .unknown hop
        | some o =>
          -- only a pop can be refused
          have hstep := hno o hop
          cases o with
          | push a => cases hstep
          | clear => cases hstep
          | pop t => exact .refused hop (step_pop_eq_none_iff.mp hstep)

/-- The stack of the server behind `bytes`, unless it terminates on them. -/
def stackBehind (stk : PointerStack ptrSize) (bytes : List UInt8) : Option (PointerStack ptrSize) :=
  match serve (running stk bytes []) with
  | .returned l => some l.stk
  | .terminated _ => none

/-- The bytes that the server gets through are whole frames whose operations are accepted. -/
theorem stackBehind_eq_some_iff {bytes : List UInt8} :
    stackBehind stk bytes = some stk' ↔
      ∃ (frames : List (Frame ptrSize)) (ops : List (Op (AppPc ptrSize) (AppPc ptrSize))),
        bytes = framesBytes frames ∧ frames.map Frame.op = ops.map some ∧
          PartialRun.run (StackDiscipline.step returnsTo) stk ops = some stk' := by
  have hframes : ∀ (frames : List (Frame ptrSize)) (ops : List (Op (AppPc ptrSize) (AppPc ptrSize)))
      (mid : PointerStack ptrSize), frames.map Frame.op = ops.map some →
      PartialRun.run (StackDiscipline.step returnsTo) stk ops = some mid →
      stackBehind stk (framesBytes frames) = some mid := by
    intro frames ops mid hops hrun
    have hserve : serve (running stk (framesBytes frames ++ []) []) =
        serve (running mid [] ([] ++ ops.flatMap replyTo)) := serve_frames hops hrun
    rw [List.append_nil, serve_nil] at hserve
    rw [stackBehind, hserve]
    rfl
  constructor
  · intro h
    obtain ⟨frames, ops, mid, tail, rfl, hops, hrun, rfl | hoff⟩ := exists_frames stk bytes
    · rw [List.append_nil, hframes frames ops mid hops hrun] at h
      exact ⟨frames, ops, List.append_nil _, hops, hrun.trans h⟩
    · have hserve : serve (running stk (framesBytes frames ++ tail) []) =
          serve (running mid tail ([] ++ ops.flatMap replyTo)) := serve_frames hops hrun
      obtain ⟨l, hl, -⟩ := serve_offending hoff
      rw [stackBehind, hserve, hl] at h
      cases h
  · rintro ⟨frames, ops, rfl, hops, hrun⟩
    exact hframes frames ops stk' hops hrun

@[simp] theorem stackBehind_nil : stackBehind stk [] = some stk := by
  rw [stackBehind, serve_nil]
  rfl

/-- The function returns on the bytes that the server gets through from the empty stack. -/
theorem start_returned_iff {stream : List UInt8} :
    (∃ l, startExternalShadowStack ptrSize stream = .returned l) ↔
      (stackBehind ([] : PointerStack ptrSize) stream).isSome := by
  show (∃ l, serve (running [] stream []) = .returned l) ↔ _
  rw [stackBehind]
  cases serve (running ([] : PointerStack ptrSize) stream []) <;> simp

/-- Bytes that leave the stack `mid` and bytes served from `mid` on are served one behind the
other. -/
theorem stackBehind_append {mid : PointerStack ptrSize} {bytes bytes' : List UInt8}
    (h : stackBehind stk bytes = some mid) (h' : stackBehind mid bytes' = some stk') :
    stackBehind stk (bytes ++ bytes') = some stk' := by
  obtain ⟨frames, ops, rfl, hops, hrun⟩ := stackBehind_eq_some_iff.mp h
  obtain ⟨frames', ops', rfl, hops', hrun'⟩ := stackBehind_eq_some_iff.mp h'
  refine stackBehind_eq_some_iff.mpr ⟨frames ++ frames', ops ++ ops', ?_, ?_, ?_⟩
  · rw [framesBytes, framesBytes, framesBytes, List.flatMap_append]
  · rw [List.map_append, List.map_append, hops, hops']
  · exact PartialRun.run_append_eq_some.mpr ⟨mid, hrun, hrun'⟩

/-- What the server has sent does not matter to what it does. -/
theorem stackBehind_eq (bytes sent : List UInt8) :
    stackBehind stk bytes = match serve (running stk bytes sent) with
      | .returned l => some l.stk
      | .terminated _ => none := by
  obtain ⟨frames, ops, mid, tail, rfl, hops, hrun, htail⟩ := exists_frames stk bytes
  rw [stackBehind, serve_frames hops hrun, serve_frames hops hrun]
  rcases htail with rfl | hoff
  · rw [serve_nil, serve_nil]
    rfl
  · obtain ⟨l, hl, -⟩ := serve_offending hoff
    obtain ⟨l', hl', -⟩ := serve_offending hoff
    rw [hl, hl']

end Loop

/-! ## Every byte stream -/

/-- The number of `RET-` frames among `frames`. -/
def retFrames (frames : List (Frame ptrSize)) : ℕ :=
  frames.countP fun f => f.header == Ret.header.chars

/-- `n` frames of `Continue`. -/
def continues (ptrSize n : ℕ) : List UInt8 := (List.replicate n (Continue.message ptrSize)).flatten

/-- Two frames that differ at most in the body of a `NEWS` or an `EXEC` frame. -/
def SameButIgnored (f f' : Frame ptrSize) : Prop :=
  f.header = f'.header ∧
    (f.header = NewSignal.header.chars ∨ f.header = Execve.header.chars ∨ f.body = f'.body)

/-- The frames denote the operations `ops`, which lead from the empty stack to `stk`. -/
def Denotes (frames : List (Frame ptrSize)) (ops : List (Op (AppPc ptrSize) (AppPc ptrSize)))
    (stk : PointerStack ptrSize) : Prop :=
  frames.map Frame.op = ops.map some ∧
    PartialRun.run (StackDiscipline.step returnsTo) [] ops = some stk

/-- What the server makes of a byte stream followed by end of stream. -/
structure ServesStream (ptrSize : ℕ) (stream : List UInt8) : Prop where
  /-- It returns exactly on whole frames with known headers whose operations are accepted. -/
  returned_iff : (∃ l, startExternalShadowStack ptrSize stream = .returned l) ↔
    ∃ (frames : List (Frame ptrSize)) (ops : List (Op (AppPc ptrSize) (AppPc ptrSize)))
      (stk : PointerStack ptrSize), stream = framesBytes frames ∧ Denotes frames ops stk
  /-- Then it has answered every `RET-` frame with one `Continue` and written nothing else, and the
  bodies of `NEWS` and `EXEC` frames do not matter. -/
  of_returned : ∀ l, startExternalShadowStack ptrSize stream = .returned l →
    ∃ (frames : List (Frame ptrSize)), stream = framesBytes frames ∧
      l.sent = continues ptrSize (retFrames frames) ∧
      ∀ frames', List.Forall₂ SameButIgnored frames frames' →
        startExternalShadowStack ptrSize (framesBytes frames') = .returned l
  /-- Otherwise it terminates at the first offending frame, with the stack and the replies of the
  frames before it, and no byte behind the offending frame received. -/
  of_terminated : ∀ l, startExternalShadowStack ptrSize stream = .terminated l →
    ∃ (frames : List (Frame ptrSize)) (ops : List (Op (AppPc ptrSize) (AppPc ptrSize)))
      (tail : List UInt8), stream = framesBytes frames ++ tail ∧ Denotes frames ops l.stk ∧
        Offending l.stk tail ∧ l.sent = continues ptrSize (retFrames frames) ∧
        l.unread = tail.drop (MESSAGE_SIZE ptrSize)

theorem replyTo_of_op {f : Frame ptrSize} {o : Op (AppPc ptrSize) (AppPc ptrSize)}
    (h : f.op = some o) :
    replyTo o = if f.header = Ret.header.chars then Continue.message ptrSize else [] := by
  rw [Frame.op] at h
  split_ifs at h with hnews hexec hcall hret
  · obtain rfl := Option.some.inj h
    rw [hnews]
    rfl
  · obtain rfl := Option.some.inj h
    rw [hexec]
    rfl
  · obtain rfl := Option.some.inj h
    rw [hcall]
    rfl
  · obtain rfl := Option.some.inj h
    rw [if_pos hret]
    rfl

/-- One `Continue` for every `RET-` frame. -/
theorem flatMap_replyTo {frames : List (Frame ptrSize)}
    {ops : List (Op (AppPc ptrSize) (AppPc ptrSize))} (h : frames.map Frame.op = ops.map some) :
    ops.flatMap replyTo = continues ptrSize (retFrames frames) := by
  induction frames generalizing ops with
  | nil =>
    obtain rfl : ops = [] := by simpa using h.symm
    rfl
  | cons f frames ih =>
    cases ops with
    | nil => simp at h
    | cons o ops =>
      simp only [List.map_cons, List.cons.injEq] at h
      rw [List.flatMap_cons, ih h.2, replyTo_of_op h.1, retFrames, retFrames, List.countP_cons]
      by_cases hret : f.header = Ret.header.chars
      · simp [hret, continues, List.replicate_succ]
      · simp [hret]

theorem op_eq_of_sameButIgnored {f f' : Frame ptrSize} (h : SameButIgnored f f') :
    f.op = f'.op := by
  obtain ⟨hheader, hbody⟩ := h
  rw [Frame.op, Frame.op, ← hheader]
  rcases hbody with hnews | hexec | hbody
  · simp [hnews]
  · simp [hexec]
  · rw [hbody]

/-- Frames that differ in ignored bodies only ask for the same operations and the same replies. -/
theorem map_op_eq_of_sameButIgnored {frames frames' : List (Frame ptrSize)}
    (h : List.Forall₂ SameButIgnored frames frames') :
    frames.map Frame.op = frames'.map Frame.op ∧ retFrames frames = retFrames frames' := by
  induction h with
  | nil => exact ⟨rfl, rfl⟩
  | cons hf _ ih =>
    obtain ⟨hops, hrets⟩ := ih
    rw [List.map_cons, List.map_cons, op_eq_of_sameButIgnored hf, hops]
    refine ⟨rfl, ?_⟩
    rw [retFrames, retFrames] at hrets ⊢
    rw [List.countP_cons, List.countP_cons, hf.1, hrets]

/-- Frames that are accepted are served to their end. -/
theorem start_of_denotes {frames : List (Frame ptrSize)}
    {ops : List (Op (AppPc ptrSize) (AppPc ptrSize))} {stk : PointerStack ptrSize}
    (h : Denotes frames ops stk) :
    startExternalShadowStack ptrSize (framesBytes frames) =
      .returned (running stk [] (continues ptrSize (retFrames frames))) := by
  have hserve : serve (running [] (framesBytes frames ++ []) []) =
      serve (running stk [] ([] ++ ops.flatMap replyTo)) := serve_frames h.1 h.2
  rw [List.append_nil, List.nil_append, serve_nil, flatMap_replyTo h.1] at hserve
  exact hserve

/-- Accepted frames in front of an offending tail are served, the tail is not. -/
theorem start_of_offending {frames : List (Frame ptrSize)}
    {ops : List (Op (AppPc ptrSize) (AppPc ptrSize))} {stk : PointerStack ptrSize}
    {tail : List UInt8} (h : Denotes frames ops stk) (htail : Offending stk tail) :
    ∃ l, startExternalShadowStack ptrSize (framesBytes frames ++ tail) = .terminated l ∧
      l.stk = stk ∧ l.sent = continues ptrSize (retFrames frames) ∧
      l.unread = tail.drop (MESSAGE_SIZE ptrSize) := by
  have hserve : serve (running [] (framesBytes frames ++ tail) []) =
      serve (running stk tail ([] ++ ops.flatMap replyTo)) := serve_frames h.1 h.2
  rw [List.nil_append, flatMap_replyTo h.1] at hserve
  obtain ⟨l, hl, hrest⟩ := serve_offending htail
  exact ⟨l, hserve.trans hl, hrest⟩

/-- **The server on every byte stream.** -/
theorem servesStream (ptrSize : ℕ) (stream : List UInt8) : ServesStream ptrSize stream := by
  obtain ⟨frames, ops, stk, tail, rfl, hops, hrun, htail⟩ :=
    exists_frames ([] : PointerStack ptrSize) stream
  have hdenotes : Denotes frames ops stk := ⟨hops, hrun⟩
  rcases htail with rfl | hoff
  · -- whole frames, all accepted
    rw [List.append_nil]
    have hstart := start_of_denotes hdenotes
    refine ⟨iff_of_true ⟨_, hstart⟩ ⟨frames, ops, stk, rfl, hdenotes⟩, ?_, ?_⟩
    · intro l hl
      rw [hstart] at hl
      obtain rfl := Ended.returned.inj hl
      refine ⟨frames, rfl, rfl, fun frames' hsame => ?_⟩
      obtain ⟨hops', hrets⟩ := map_op_eq_of_sameButIgnored hsame
      rw [hrets]
      exact start_of_denotes ⟨hops'.symm.trans hops, hrun⟩
    · intro l hl
      rw [hstart] at hl
      cases hl
  · -- the tail offends
    obtain ⟨l₀, hstart, hstk, hsent, hunread⟩ := start_of_offending hdenotes hoff
    refine ⟨iff_of_false ?_ ?_, ?_, ?_⟩
    · rintro ⟨l, hl⟩
      rw [hstart] at hl
      cases hl
    -- other frames for the same bytes would be served to the end
    · rintro ⟨frames', ops', stk', hbytes, hdenotes'⟩
      rw [hbytes, start_of_denotes hdenotes'] at hstart
      cases hstart
    · intro l hl
      rw [hstart] at hl
      cases hl
    · intro l hl
      obtain rfl := Ended.terminated.inj (hstart.symm.trans hl)
      rw [← hstk] at hdenotes hoff
      exact ⟨frames, ops, tail, rfl, hdenotes, hoff, hsent, hunread⟩

end DrShadowStack.ExternalServer
