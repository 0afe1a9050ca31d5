import DrShadowStack.Client

/-!
# Internal mode (`dr_internal_ss_events.cpp`)

The handlers on the `std::stack<app_pc>` of one thread, its top first. `none` stands for
`Group::terminate`. `step_eq` says that they compute the single-thread shadow stack.
-/

namespace DrShadowStack.InternalSS

variable {ptrSize : ℕ}

/-- `std::stack<app_pc>`, top first. -/
abbrev Stack (ptrSize : ℕ) := List (AppPc ptrSize)

/-- The call handler. -/
def onCall (ss : Stack ptrSize) (retToAddr : AppPc ptrSize) : Stack ptrSize := retToAddr :: ss

/-- The ret handler. -/
def onRet (ss : Stack ptrSize) (targetAddr : AppPc ptrSize) : Option (Stack ptrSize) :=
  match ss with
  | [] => none
  | top :: rest =>
    if top = targetAddr then some rest
    else if top = wildcard then some rest
    else none

/-- Called whenever a signal is called. -/
def onSignal (ss : Stack ptrSize) : Stack ptrSize := wildcard :: ss

/-- `while ( ss.size() ) ss.pop();` -/
def popAll : Stack ptrSize → Stack ptrSize
  | [] => []
  | _ :: ss => popAll ss

/-- Called for `execve`; it does not look at whether this is the pre or the post event. -/
def onExecve (ss : Stack ptrSize) (_pre : Bool) : Stack ptrSize := popAll ss

/-- This function dictates what syscall is interesting. -/
def syscallFilter (ptrSize : ℕ) (sysnum : ℤ) : Bool := sysnum == SYS_execve ptrSize

/-- Delegates to the syscall specific function. -/
def syscallEvent (ss : Stack ptrSize) (sysnum : ℤ) (pre : Bool) : Stack ptrSize :=
  if sysnum = SYS_execve ptrSize then onExecve ss pre else ss

/-- Called before every interesting syscall. -/
def preSyscallEvent (ss : Stack ptrSize) (sysnum : ℤ) : Stack ptrSize := syscallEvent ss sysnum true

/-- Called after every interesting syscall. -/
def postSyscallEvent (ss : Stack ptrSize) (sysnum : ℤ) : Stack ptrSize :=
  syscallEvent ss sysnum false

/-- The handlers that `InternalSS::setup` hands to the client. -/
def handlers : SSHandlers ptrSize (Stack ptrSize) where
  onCall a ss := some (onCall ss a)
  onRet _ t ss := onRet ss t
  onSignal ss := some (onSignal ss)

/-- One event in internal mode. A successful `execve` raises the pre-syscall event only; the image
it starts has an empty stack of its own. -/
def step (ss : Stack ptrSize) : Event ptrSize → Option (Stack ptrSize)
  | .call a => handlers.onCall a ss
  | .ret t => handlers.onRet 0 t ss
  | .signal => kernelXferEventHandler handlers .signalDelivery ss
  | .execve _ => some (preSyscallEvent ss (SYS_execve ptrSize))

/-! ## The handlers compute the shadow stack -/

@[simp] theorem popAll_eq_nil (ss : Stack ptrSize) : popAll ss = [] := by
  induction ss with
  | nil => rfl
  | cons _ ss ih => exact ih

@[simp] theorem preSyscallEvent_execve (ss : Stack ptrSize) :
    preSyscallEvent ss (SYS_execve ptrSize) = [] := by
  simp [preSyscallEvent, syscallEvent, onExecve]

@[simp] theorem postSyscallEvent_execve (ss : Stack ptrSize) :
    postSyscallEvent ss (SYS_execve ptrSize) = [] := by
  simp [postSyscallEvent, syscallEvent, onExecve]

/-- The ret handler is the checked pop of the shadow stack. -/
theorem onRet_eq (ss : Stack ptrSize) (t : AppPc ptrSize) :
    onRet ss t = ShadowStack.step ss (.ret t) := by
  cases ss with
  | nil => rfl
  | cons top rest =>
    rw [ShadowStack.step_ret, StackDiscipline.step_pop_cons, onRet, ShadowStack.returnsTo]
    by_cases ht : top = t
    · simp [ht]
    · by_cases hw : top = wildcard <;> simp [ht, hw]

/-- **Internal mode computes the single-thread shadow stack.** -/
theorem step_eq (ss : Stack ptrSize) (e : Event ptrSize) : step ss e = ShadowStack.step ss e := by
  cases e with
  | call a => rfl
  | ret t => exact onRet_eq ss t
  | signal => rfl
  | execve env => simp [step]

theorem step_eq_shadowStack : (step : Stack ptrSize → _) = ShadowStack.step := by
  funext ss e
  exact step_eq ss e

/-- The handlers inserted before an instruction run the events of the instruction. -/
theorem eventAppInstruction_eq (instr : Instr ptrSize) (targetAddr : AppPc ptrSize)
    (ss : Stack ptrSize) :
    eventAppInstruction handlers instr targetAddr ss =
      PartialRun.run step ss (instr.events targetAddr) :=
  eventAppInstruction_eq_run (fun _ _ => rfl) (fun _ _ _ => rfl) instr targetAddr ss

end DrShadowStack.InternalSS
