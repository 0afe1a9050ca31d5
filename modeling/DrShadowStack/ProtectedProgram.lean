import DrShadowStack.AcceptedRuns
import DrShadowStack.Common.Monitor

/-!
# The protected program

DynamoRIO asks the client about every basic block that it puts into its code cache. The client
inserts its clean calls there, and the program runs from the cache. Of DynamoRIO it is assumed that
an inserted call leaves the state of the program alone, and that an instruction executes directly
behind what was inserted before it. Everything else that happens to the state of a thread is left
open: other threads, the kernel and an attacker may change it between any two instructions.

## Shape of the proof

The cache runs an instrumented block as the instructions of the block behind their handlers
(`run_instrument`), so a run from the cache is a run of the native program under the shadow stack as
its monitor (`protectedStep_eq`). What the monitor holds are the return addresses of the activations
that are open (`InOrder.stack_eq`), of which the native program alone decides.
-/

namespace DrShadowStack

open PartialRun StackDiscipline ShadowStack

variable {ptrSize : ℕ} {α : Type}

/-- The address behind an instruction. -/
def Instr.next (instr : Instr ptrSize) : AppPc ptrSize :=
  instr.appPc + BitVec.ofNat _ instr.length

namespace CodeCache

/-! ## Instrumented blocks -/

/-- What stands in a basic block behind the insertions. -/
inductive Item (ptrSize : ℕ)
  | app (instr : Instr ptrSize)
  /-- `dr_insert_clean_call` -/
  | onCall (retToAddr : AppPc ptrSize)
  /-- `dr_insert_mbr_instrumentation` -/
  | onRet (instr : Instr ptrSize)

/-- What `event_app_instruction` inserts before an instruction. -/
def insertHandlers (instr : Instr ptrSize) : List (Item ptrSize) :=
  (if instr.isCall then [.onCall (instr.appPc + BitVec.ofNat _ instr.length)] else []) ++
    if instr.isReturn then [.onRet instr] else []

/-- A basic block as it stands in the code cache. -/
def instrument (bb : List (Instr ptrSize)) : List (Item ptrSize) :=
  bb.flatMap fun instr => insertHandlers instr ++ [.app instr]

/-- A thread of the native program. -/
structure Machine (ptrSize : ℕ) (α : Type) where
  /-- Execute an instruction; `none` where it is not the one that control has reached, or faults. -/
  exec : α → Instr ptrSize → Option α
  pc : α → AppPc ptrSize
  /-- The address that a ret is about to return to. -/
  retTarget : α → AppPc ptrSize
  pc_of_ret : ∀ a b instr, exec a instr = some b → instr.isReturn = true → pc b = retTarget a
  call_or_ret : ∀ a b instr, exec a instr = some b →
    instr.isCall = false ∨ instr.isReturn = false

/-- What happens to a thread: it executes an instruction, the kernel transfers control, it gets
through an `execve`, or its state is changed from outside. -/
inductive Step (ptrSize : ℕ) (α : Type)
  | instr (instr : Instr ptrSize)
  | kernelXfer (type : KernelXferType) (b : α)
  | execve (env : Environ) (b : α)
  | outside (b : α)

namespace Machine

/-- A step of the native program. -/
def step (m : Machine ptrSize α) (a : α) : Step ptrSize α → Option α
  | .instr instr => m.exec a instr
  | .kernelXfer _ b => some b
  | .execve _ b => some b
  | .outside b => some b

/-- An item of the code cache is executed, with the shadow stack of the thread. -/
def item (m : Machine ptrSize α) (c : α × InternalSS.Stack ptrSize) :
    Item ptrSize → Option (α × InternalSS.Stack ptrSize)
  | .app instr => (m.exec c.1 instr).map fun b => (b, c.2)
  | .onCall retToAddr => (InternalSS.handlers.onCall retToAddr c.2).map fun ss => (c.1, ss)
  | .onRet instr =>
    (InternalSS.handlers.onRet instr.appPc (m.retTarget c.1) c.2).map fun ss => (c.1, ss)

/-- A step of the protected program. -/
def protectedStep (m : Machine ptrSize α) (c : α × InternalSS.Stack ptrSize) :
    Step ptrSize α → Option (α × InternalSS.Stack ptrSize)
  | .instr instr =>
    (eventAppInstruction InternalSS.handlers instr (m.retTarget c.1) c.2).bind fun ss =>
      (m.exec c.1 instr).map fun b => (b, ss)
  | .kernelXfer type b =>
    (kernelXferEventHandler InternalSS.handlers type c.2).map fun ss => (b, ss)
  | .execve _ b => some (b, InternalSS.preSyscallEvent c.2 (SYS_execve ptrSize))
  | .outside b => some (b, c.2)

end Machine

/-- What the code cache executes: a block, or the part of it up to where it is left, and what
happens between the blocks. -/
inductive Chunk (ptrSize : ℕ) (α : Type)
  | block (bb : List (Instr ptrSize))
  | between (s : Step ptrSize α)

/-- The steps of a chunk. -/
def Chunk.steps : Chunk ptrSize α → List (Step ptrSize α)
  | .block bb => bb.map .instr
  | .between s => [s]

/-- A chunk is executed from the code cache. -/
def Machine.chunk (m : Machine ptrSize α) (c : α × InternalSS.Stack ptrSize) :
    Chunk ptrSize α → Option (α × InternalSS.Stack ptrSize)
  | .block bb => run m.item c (instrument bb)
  | .between s => m.protectedStep c s

/-! ## Activations -/

/-- Code that was entered and is not left yet: by a call, or as the handler of a signal. -/
inductive Activation (ptrSize : ℕ)
  | call (site : Instr ptrSize)
  | handler

namespace Activation

/-- The entry that the shadow stack has for it. -/
def entry : Activation ptrSize → AppPc ptrSize
  | .call site => site.next
  | .handler => wildcard

/-- A ret may leave it to this address: a call is left to the address behind it. -/
def LeftTo : Activation ptrSize → AppPc ptrSize → Prop
  | .call site, t => t = site.next
  | .handler, _ => True

end Activation

/-- The events that a step raises. -/
def Machine.events (m : Machine ptrSize α) (a : α) : Step ptrSize α → List (Event ptrSize)
  | .instr instr => instr.events (m.retTarget a)
  | .kernelXfer type _ => if type = .signalDelivery then [.signal] else []
  | .execve env _ => [.execve env]
  | .outside _ => []

/-- What a step does to the open activations: a call and a signal open one, a ret leaves one, and an
`execve` leaves them all. -/
def Machine.ops (m : Machine ptrSize α) (a : α) :
    Step ptrSize α → List (Op (Activation ptrSize) (AppPc ptrSize))
  | .instr instr =>
    (if instr.isCall then [.push (.call instr)] else []) ++
      if instr.isReturn then [.pop (m.retTarget a)] else []
  | .kernelXfer type _ => if type = .signalDelivery then [.push .handler] else []
  | .execve _ _ => [.clear]
  | .outside _ => []

/-- The activations that are open behind a run of the native program, the innermost first. -/
def Machine.activations (m : Machine ptrSize α) (a : α) (steps : List (Step ptrSize α)) :
    List (Activation ptrSize) :=
  (Monitor.trace m.step m.ops a steps).foldl perform []

/-- Every ret of the run leaves the innermost activation to where it was called from, or a signal
handler. -/
def InOrder (m : Machine ptrSize α) (a : α) (steps : List (Step ptrSize α)) : Prop :=
  ∀ pre instr post, steps = pre ++ .instr instr :: post → instr.isReturn = true →
    ∀ c, run m.step a pre = some c →
      ∃ act rest, m.activations a pre = act :: rest ∧ act.LeftTo (m.retTarget c)

/-- No call of the run stands directly in front of the wildcard's address. -/
def NoCallToWildcard (steps : List (Step ptrSize α)) : Prop :=
  ∀ instr, .instr instr ∈ steps → instr.isCall = true → instr.next ≠ wildcard

/-! ## The code cache runs the program under its monitor -/

section Cache

variable {m : Machine ptrSize α}

/-- The inserted calls run before the instruction, on the stack alone. -/
theorem run_insertHandlers (instr : Instr ptrSize) (c : α × InternalSS.Stack ptrSize) :
    run m.item c (insertHandlers instr) =
      (eventAppInstruction InternalSS.handlers instr (m.retTarget c.1) c.2).map
        fun ss => (c.1, ss) := by
  obtain ⟨a, ss⟩ := c
  rw [insertHandlers, eventAppInstruction, run_append]
  cases instr.isCall <;> cases instr.isReturn <;>
    simp [Machine.item, InternalSS.handlers]

/-- **An instrumented block** runs as its instructions behind their handlers. -/
theorem run_instrument (bb : List (Instr ptrSize)) (c : α × InternalSS.Stack ptrSize) :
    run m.item c (instrument bb) = run m.protectedStep c (bb.map .instr) := by
  rw [instrument, run_flatMap]
  refine run_eq_run_map Step.instr (fun c instr => ?_) c bb
  rw [run_concat, run_insertHandlers, Machine.protectedStep, Option.bind_map]
  rfl

theorem run_chunk (chunks : List (Chunk ptrSize α)) (c : α × InternalSS.Stack ptrSize) :
    run m.chunk c chunks = run m.protectedStep c (chunks.flatMap Chunk.steps) := by
  rw [run_flatMap]
  refine (run_eq_run_map id (fun c chunk => ?_) c chunks).trans (by rw [List.map_id])
  cases chunk with
  | block bb => exact run_instrument bb c
  | between s => simp [Chunk.steps, Machine.chunk]

/-- The protected program is the native one with the shadow stack of internal mode as its
monitor. -/
theorem protectedStep_eq (c : α × InternalSS.Stack ptrSize) (s : Step ptrSize α) :
    m.protectedStep c s = Monitor.step m.step InternalSS.step m.events c s := by
  cases s with
  | instr instr =>
    rw [Machine.protectedStep, InternalSS.eventAppInstruction_eq]
    rfl
  | kernelXfer type b => cases type <;> rfl
  | execve env b => rfl
  | outside b => rfl

end Cache

/-! ## The activations that are open -/

section Activations

variable {m : Machine ptrSize α} {a b : α} {ss : InternalSS.Stack ptrSize}
  {steps : List (Step ptrSize α)} {act : Activation ptrSize} {t : AppPc ptrSize}

/-- The entry of an activation admits a ret. -/
def Activation.admits (act : Activation ptrSize) (t : AppPc ptrSize) : Bool :=
  returnsTo act.entry t

theorem Activation.admits_handler : Activation.handler.admits t = true := returnsTo_wildcard t

theorem Activation.admits_call_iff {site : Instr ptrSize} (h : site.next ≠ wildcard) :
    (Activation.call site).admits t = true ↔ (Activation.call site).LeftTo t := by
  show returnsTo site.next t = true ↔ t = site.next
  rw [returnsTo, Bool.or_eq_true, beq_iff_eq, beq_iff_eq, or_iff_left h, eq_comm]

/-- An open activation was opened by a step of the run. -/
theorem exists_of_mem_activations (h : act ∈ m.activations a steps) :
    act = .handler ∨ ∃ site, act = .call site ∧ .instr site ∈ steps ∧ site.isCall = true := by
  rcases mem_foldl_perform h with hnil | hpush
  · cases hnil
  obtain ⟨s, hs, c, hc⟩ := Monitor.exists_of_mem_trace hpush
  cases s with
  | instr instr =>
    rw [Machine.ops, List.mem_append] at hc
    rcases hc with hc | hc
    · split at hc
      · next hcall =>
        obtain rfl := Op.push.inj (List.mem_singleton.mp hc)
        exact .inr ⟨instr, rfl, hs, hcall⟩
      · cases hc
    · split at hc
      · cases List.mem_singleton.mp hc
      · cases hc
  | kernelXfer type b =>
    rw [Machine.ops] at hc
    split at hc
    · exact .inl (Op.push.inj (List.mem_singleton.mp hc))
    · cases hc
  | execve env b => cases List.mem_singleton.mp hc
  | outside b => cases hc

/-- The entries of the shadow stack are those of the activations. -/
theorem map_opOf_events (m : Machine ptrSize α) (c : α) (s : Step ptrSize α) :
    (m.events c s).map opOf = (m.ops c s).map (Op.map Activation.entry) := by
  cases s with
  | instr instr =>
    rw [Machine.events, Machine.ops, Instr.events]
    cases instr.isCall <;> cases instr.isReturn <;> rfl
  | kernelXfer type b => cases type <;> rfl
  | execve env b => rfl
  | outside b => rfl

/-- A run of the protected program, in terms of the activations. -/
theorem run_protectedStep_iff :
    run m.protectedStep (a, []) steps = some (b, ss) ↔
      run m.step a steps = some b ∧
        run (StackDiscipline.step Activation.admits) [] (Monitor.trace m.step m.ops a steps) =
          some (m.activations a steps) ∧ ss = (m.activations a steps).map Activation.entry := by
  have hmonitor : m.protectedStep = Monitor.step m.step InternalSS.step m.events := by
    funext c s
    exact protectedStep_eq c s
  have hevents : run InternalSS.step [] (Monitor.trace m.step m.events a steps) =
      (run (StackDiscipline.step Activation.admits) [] (Monitor.trace m.step m.ops a steps)).map
        (List.map Activation.entry) := by
    rw [InternalSS.run_step_eq_ops, InternalSS.opsOf, Monitor.map_trace]
    simp only [map_opOf_events]
    rw [← Monitor.map_trace]
    exact (run_map Activation.entry [] _).symm
  rw [hmonitor, Monitor.run_eq_some_iff, hevents, Option.map_eq_some_iff]
  refine and_congr_right fun _ => ⟨?_, ?_⟩
  · rintro ⟨acts, hacts, rfl⟩
    obtain rfl : m.activations a steps = acts := foldl_perform_of_run hacts
    exact ⟨hacts, rfl⟩
  · rintro ⟨hacts, rfl⟩
    exact ⟨_, hacts, rfl⟩

end Activations

/-! ## Rets in order -/

section Rets

variable {m : Machine ptrSize α} {a b c d : α} {steps : List (Step ptrSize α)}
  {s : Step ptrSize α}

/-- The stack admits the rets of the run. -/
def Admitted (m : Machine ptrSize α) (a : α) (steps : List (Step ptrSize α)) : Prop :=
  (run (StackDiscipline.step Activation.admits) [] (Monitor.trace m.step m.ops a steps)).isSome

theorem Admitted.run_eq (h : Admitted m a steps) :
    run (StackDiscipline.step Activation.admits) [] (Monitor.trace m.step m.ops a steps) =
      some (m.activations a steps) := by
  obtain ⟨acts, hacts⟩ := Option.isSome_iff_exists.mp h
  rw [hacts, ← foldl_perform_of_run hacts]
  rfl

theorem exists_protected_iff :
    (∃ ss, run m.protectedStep (a, []) steps = some (b, ss)) ↔
      run m.step a steps = some b ∧ Admitted m a steps := by
  simp only [run_protectedStep_iff]
  constructor
  · rintro ⟨ss, hb, hacts, -⟩
    exact ⟨hb, by rw [Admitted, hacts, Option.isSome_some]⟩
  · rintro ⟨hb, hadmitted⟩
    exact ⟨_, hb, hadmitted.run_eq, rfl⟩

/-- Of one step only a ret can be refused. -/
theorem run_ops_isSome_iff (hstep : m.step c s = some d) {acts : List (Activation ptrSize)} :
    (run (StackDiscipline.step Activation.admits) acts (m.ops c s)).isSome ↔
      ∀ instr, s = .instr instr → instr.isReturn = true →
        ∃ act rest, acts = act :: rest ∧ act.admits (m.retTarget c) = true := by
  have hother : (∀ instr, s ≠ .instr instr) →
      (run (StackDiscipline.step Activation.admits) acts (m.ops c s)).isSome := by
    intro hs
    cases s with
    | instr instr => exact absurd rfl (hs instr)
    | kernelXfer type b => cases type <;> rfl
    | execve env b => rfl
    | outside b => rfl
  by_cases hs : ∃ instr, s = .instr instr
  · obtain ⟨instr, rfl⟩ := hs
    simp only [Step.instr.injEq, forall_eq', Machine.ops]
    rcases m.call_or_ret c d instr hstep with hcall | hret
    · cases hret : instr.isReturn with
      | false => simp [hcall]
      | true =>
        cases acts with
        | nil => simp [hcall]
        | cons act rest =>
          simp only [hcall, Bool.false_eq_true, if_false, if_true, List.nil_append, run_cons,
            step_pop_cons, List.cons.injEq]
          cases hadmits : act.admits (m.retTarget c) <;> simp [hadmits]
    · cases instr.isCall <;> simp [hret]
  · simp only [not_exists] at hs
    exact iff_of_true (hother hs) fun instr heq => absurd heq (hs instr)

theorem admitted_concat_iff (hc : run m.step a steps = some c) (hstep : m.step c s = some d) :
    Admitted m a (steps ++ [s]) ↔ Admitted m a steps ∧
      ∀ instr, s = .instr instr → instr.isReturn = true →
        ∃ act rest, m.activations a steps = act :: rest ∧ act.admits (m.retTarget c) = true := by
  have hsplit : Admitted m a (steps ++ [s]) ↔
      ∃ acts, run (StackDiscipline.step Activation.admits) []
          (Monitor.trace m.step m.ops a steps) = some acts ∧
        (run (StackDiscipline.step Activation.admits) acts (m.ops c s)).isSome := by
    rw [Admitted, Monitor.trace_concat hc hstep, run_append]
    cases run (StackDiscipline.step Activation.admits) [] (Monitor.trace m.step m.ops a steps) <;>
      simp
  rw [hsplit, ← run_ops_isSome_iff hstep]
  constructor
  · rintro ⟨acts, hacts, hlast⟩
    have hadmitted : Admitted m a steps := by rw [Admitted, hacts, Option.isSome_some]
    obtain rfl := Option.some.inj (hacts.symm.trans hadmitted.run_eq)
    exact ⟨hadmitted, hlast⟩
  · rintro ⟨hadmitted, hlast⟩
    exact ⟨_, hadmitted.run_eq, hlast⟩

theorem inOrder_concat_iff (hc : run m.step a steps = some c) :
    InOrder m a (steps ++ [s]) ↔ InOrder m a steps ∧
      ∀ instr, s = .instr instr → instr.isReturn = true →
        ∃ act rest, m.activations a steps = act :: rest ∧ act.LeftTo (m.retTarget c) := by
  constructor
  · intro h
    refine ⟨fun pre instr post hsteps => h pre instr (post ++ [s]) (by simp [hsteps]), ?_⟩
    rintro instr rfl hret
    exact h steps instr [] rfl hret c hc
  · rintro ⟨hbefore, hlast⟩ pre instr post hsteps hret c' hc'
    rcases concat_eq_append_cons hsteps with ⟨rfl, hs, -⟩ | ⟨post', hsteps'⟩
    · obtain rfl := Option.some.inj (hc.symm.trans hc')
      exact hlast instr hs hret
    · exact hbefore pre instr post' hsteps' hret c' hc'

/-- The shadow stack admits the rets that are in order. -/
theorem admitted_iff_inOrder (hwild : NoCallToWildcard steps) (hb : run m.step a steps = some b) :
    Admitted m a steps ↔ InOrder m a steps := by
  induction steps using List.reverseRecOn generalizing b with
  | nil => exact iff_of_true rfl fun pre instr post hsteps => by simp at hsteps
  | append_singleton steps s ih =>
    obtain ⟨c, hc, hstep⟩ := run_append_eq_some.mp hb
    have hwild' : NoCallToWildcard steps := fun instr hmem =>
      hwild instr (List.mem_append_left [s] hmem)
    rw [admitted_concat_iff hc (by simpa using hstep), inOrder_concat_iff hc, ih hwild' hc]
    refine and_congr_right fun _ => forall₃_congr fun instr _ _ => ?_
    refine exists₂_congr fun act rest => and_congr_right fun hacts => ?_
    -- the call that opened the activation does not return to the wildcard
    have hmem : act ∈ m.activations a steps := hacts ▸ List.mem_cons_self
    rcases exists_of_mem_activations hmem with rfl | ⟨site, rfl, hsite, hcall⟩
    · exact iff_of_true Activation.admits_handler trivial
    · exact Activation.admits_call_iff (hwild' site hsite hcall)

end Rets

/-! ## What the client protects -/

/-- **The protected program is the native program, up to the first ret that is not in order.** -/
theorem protected_iff_inOrder {m : Machine ptrSize α} {chunks : List (Chunk ptrSize α)}
    (hwild : NoCallToWildcard (chunks.flatMap Chunk.steps)) (a b : α) :
    (∃ ss, run m.chunk (a, []) chunks = some (b, ss)) ↔
      run m.step a (chunks.flatMap Chunk.steps) = some b ∧
        InOrder m a (chunks.flatMap Chunk.steps) := by
  simp only [run_chunk, exists_protected_iff]
  exact and_congr_right fun hb => admitted_iff_inOrder hwild hb

/-- A thread with room for one word on its stack, whose calls all go to `0x400500`. -/
def oneWord : Machine 8 (AppPc 8 × AppPc 8) where
  exec a instr :=
    if a.1 = instr.appPc ∧ (instr.isCall = false ∨ instr.isReturn = false) then
      some (if instr.isReturn then (a.2, a.2)
        else if instr.isCall then (0x400500, instr.next) else (instr.next, a.2))
    else none
  pc a := a.1
  retTarget a := a.2
  pc_of_ret a b instr h hret := by
    obtain ⟨-, h⟩ := Option.ite_none_right_eq_some.mp h
    rw [← Option.some.inj h, if_pos hret]
  call_or_ret _ _ _ h := (Option.ite_none_right_eq_some.mp h).1.2

/-- A call of five bytes and the ret of the function called. -/
def callAndRet : List (Chunk 8 (AppPc 8 × AppPc 8)) :=
  [.block [⟨0x400100, 5, true, false⟩], .block [⟨0x400500, 1, false, true⟩]]

theorem noCallToWildcard_callAndRet : NoCallToWildcard (callAndRet.flatMap Chunk.steps) := by
  intro instr hmem hcall
  simp only [callAndRet, List.flatMap_cons, List.flatMap_nil, Chunk.steps, List.map_cons,
    List.map_nil, List.append_nil, List.cons_append, List.nil_append, List.mem_cons,
    Step.instr.injEq, List.not_mem_nil, or_false] at hmem
  rcases hmem with rfl | rfl
  · decide
  · cases hcall

theorem protected_iff_inOrder_callAndRet :
    (∃ ss, run oneWord.chunk ((0x400100, 0), []) callAndRet =
        some ((0x400105, 0x400105), ss)) ↔
      run oneWord.step (0x400100, 0) (callAndRet.flatMap Chunk.steps) =
          some (0x400105, 0x400105) ∧
        InOrder oneWord (0x400100, 0) (callAndRet.flatMap Chunk.steps) :=
  protected_iff_inOrder noCallToWildcard_callAndRet _ _

/-- **Whatever is done to the state of the thread from outside**, a ret that the protected program
executes goes back behind the call that opened the innermost activation, or leaves the handler of a
signal. -/
theorem ret_goesBack {m : Machine ptrSize α} {chunks : List (Chunk ptrSize α)} {a b : α}
    {ss : InternalSS.Stack ptrSize} (hwild : NoCallToWildcard (chunks.flatMap Chunk.steps))
    (hrun : run m.chunk (a, []) chunks = some (b, ss)) {pre post : List (Step ptrSize α)}
    {instr : Instr ptrSize} {c d : α}
    (hsteps : chunks.flatMap Chunk.steps = pre ++ .instr instr :: post)
    (hret : instr.isReturn = true) (hc : run m.step a pre = some c)
    (hd : m.exec c instr = some d) :
    ∃ act rest, m.activations a pre = act :: rest ∧
      (act = .handler ∨ ∃ site, act = .call site ∧ .instr site ∈ pre ∧ site.isCall = true ∧
        m.pc d = site.next) := by
  rw [run_chunk] at hrun
  obtain ⟨hb, hadmitted⟩ := exists_protected_iff.mp ⟨ss, hrun⟩
  have horder := (admitted_iff_inOrder hwild hb).mp hadmitted
  obtain ⟨act, rest, hacts, hleft⟩ := horder pre instr post hsteps hret c hc
  refine ⟨act, rest, hacts, ?_⟩
  have hmem : act ∈ m.activations a pre := hacts ▸ List.mem_cons_self
  rcases exists_of_mem_activations hmem with hhandler | ⟨site, rfl, hsite, hcall⟩
  · exact .inl hhandler
  · exact .inr ⟨site, rfl, hsite, hcall, (m.pc_of_ret c d instr hd hret).trans hleft⟩

theorem ret_goesBack_callAndRet :
    ∃ act rest, oneWord.activations (0x400100, 0) [.instr ⟨0x400100, 5, true, false⟩] =
        act :: rest ∧
      (act = .handler ∨ ∃ site : Instr 8, act = .call site ∧
        (.instr site : Step 8 (AppPc 8 × AppPc 8)) ∈ [.instr ⟨0x400100, 5, true, false⟩] ∧
          site.isCall = true ∧ oneWord.pc (0x400105, 0x400105) = site.next) :=
  @ret_goesBack 8 _ oneWord callAndRet (0x400100, 0) (0x400105, 0x400105) []
    noCallToWildcard_callAndRet (by rfl) [.instr ⟨0x400100, 5, true, false⟩] []
    ⟨0x400500, 1, false, true⟩ (0x400500, 0x400105) (0x400105, 0x400105) (by rfl) (by rfl)
    (by rfl) (by rfl)

end CodeCache

end DrShadowStack
