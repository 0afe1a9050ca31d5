import DrShadowStack.Common.PartialRun
import DrShadowStack.ShadowStack

/-!
# The client's hooks (`dr_shadow_stack_client.cpp`)

The client inserts a call of a mode's handler before every call and every ret instruction, and calls
the signal handler when the kernel transfers control to deliver a signal. The handlers act on the
state of the mode, and `none` stands for `Group::terminate`, which does not return.
-/

namespace DrShadowStack

variable {ptrSize : ℕ} {σ : Type*}

/-- The mode specific event handlers. -/
structure SSHandlers (ptrSize : ℕ) (σ : Type*) where
  /-- The 'on call' handler, given the return address. -/
  onCall : AppPc ptrSize → σ → Option σ
  /-- The 'on ret' handler, given the address of the instruction and the address returned to. -/
  onRet : AppPc ptrSize → AppPc ptrSize → σ → Option σ
  /-- The handler called whenever a signal is caught. -/
  onSignal : σ → Option σ

/-- The reason of a kernel-mediated control transfer; only signal delivery matters here. -/
inductive KernelXferType
  | signalDelivery
  | other
deriving DecidableEq

/-- Called on a kernel-mediated control transfer: a delivered signal adds a wildcard. -/
def kernelXferEventHandler (handlers : SSHandlers ptrSize σ) (type : KernelXferType) (s : σ) :
    Option σ :=
  if type = .signalDelivery then handlers.onSignal s else some s

/-- What the client reads of an application instruction. -/
structure Instr (ptrSize : ℕ) where
  appPc : AppPc ptrSize
  length : ℕ
  isCall : Bool
  isReturn : Bool

/-- The handlers inserted before an instruction, run when control reaches it; `targetAddr` is the
address that a ret is about to return to. -/
def eventAppInstruction (handlers : SSHandlers ptrSize σ) (instr : Instr ptrSize)
    (targetAddr : AppPc ptrSize) (s : σ) : Option σ :=
  let afterCall :=
    if instr.isCall then handlers.onCall (instr.appPc + BitVec.ofNat _ instr.length) s else some s
  afterCall.bind fun s =>
    if instr.isReturn then handlers.onRet instr.appPc targetAddr s else some s

/-- The events that an instruction raises. -/
def Instr.events (instr : Instr ptrSize) (targetAddr : AppPc ptrSize) : List (Event ptrSize) :=
  (if instr.isCall then [.call (instr.appPc + BitVec.ofNat _ instr.length)] else []) ++
    if instr.isReturn then [.ret targetAddr] else []

/-- If a step function treats calls and rets as the handlers do, running the inserted handlers is
running the events of the instruction. -/
theorem eventAppInstruction_eq_run {handlers : SSHandlers ptrSize σ}
    {step : σ → Event ptrSize → Option σ}
    (hcall : ∀ s a, step s (.call a) = handlers.onCall a s)
    (hret : ∀ s pc t, step s (.ret t) = handlers.onRet pc t s)
    (instr : Instr ptrSize) (targetAddr : AppPc ptrSize) (s : σ) :
    eventAppInstruction handlers instr targetAddr s =
      PartialRun.run step s (instr.events targetAddr) := by
  rw [eventAppInstruction, Instr.events, PartialRun.run_append]
  have hfst : (if instr.isCall then
        handlers.onCall (instr.appPc + BitVec.ofNat _ instr.length) s else some s) =
      PartialRun.run step s
        (if instr.isCall then [.call (instr.appPc + BitVec.ofNat _ instr.length)] else []) := by
    split <;> simp [hcall]
  rw [← hfst]
  congr 1
  funext u
  split <;> simp [hret _ instr.appPc]

end DrShadowStack
