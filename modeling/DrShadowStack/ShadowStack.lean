import DrShadowStack.Common.Matching
import DrShadowStack.Constants

/-!
# What the detector is for

The events of a protected process that the client hooks are calls, rets, signal deliveries and
`execve`. The shadow stack they denote is the stack discipline whose entries are return addresses:
a call pushes its return address, a signal pushes the wildcard, a ret pops and is admitted by its
own target or by the wildcard, and `execve` clears. Both modes of the program are compared with
this machine; nothing here is translated from the source.
-/

namespace DrShadowStack

open StackDiscipline

variable {ptrSize : ℕ}

/-- An event of one thread of the protected process. -/
inductive Event (ptrSize : ℕ)
  /-- a call that pushes the return address `retToAddr` -/
  | call (retToAddr : AppPc ptrSize)
  /-- a ret that is about to return to `targetAddr` -/
  | ret (targetAddr : AppPc ptrSize)
  /-- the delivery of a signal to a handler -/
  | signal
  /-- an `execve` that the kernel carries out, with the environment array it was given -/
  | execve (env : Environ)
deriving DecidableEq

/-- Is the event a ret? -/
def Event.isRet : Event ptrSize → Bool
  | .ret _ => true
  | _ => false

namespace ShadowStack

/-- An entry of the stack admits a return to its own address, and the wildcard admits any. -/
def returnsTo (top target : AppPc ptrSize) : Bool := top == target || top == wildcard

/-- The operation on the shadow stack that an event stands for. -/
def opOf : Event ptrSize → Op (AppPc ptrSize) (AppPc ptrSize)
  | .call a => .push a
  | .ret t => .pop t
  | .signal => .push wildcard
  | .execve _ => .clear

/-- The single-thread shadow stack. -/
def step (ss : List (AppPc ptrSize)) (e : Event ptrSize) : Option (List (AppPc ptrSize)) :=
  StackDiscipline.step returnsTo ss (opOf e)

@[simp] theorem returnsTo_self (a : AppPc ptrSize) : returnsTo a a = true := by
  simp [returnsTo]

@[simp] theorem returnsTo_wildcard (t : AppPc ptrSize) : returnsTo wildcard t = true := by
  simp [returnsTo]

theorem returnsTo_of_ne {a t : AppPc ptrSize} (hw : a ≠ wildcard) (ht : a ≠ t) :
    returnsTo a t = false := by
  simp [returnsTo, hw, ht]

@[simp] theorem step_call (ss : List (AppPc ptrSize)) (a : AppPc ptrSize) :
    step ss (.call a) = some (a :: ss) := rfl

@[simp] theorem step_signal (ss : List (AppPc ptrSize)) :
    step ss .signal = some (wildcard :: ss) := rfl

@[simp] theorem step_execve (ss : List (AppPc ptrSize)) (env : Environ) :
    step ss (.execve env) = some [] := rfl

/-- Only a ret can be refused. -/
theorem step_isSome {e : Event ptrSize} (h : e.isRet = false) (ss : List (AppPc ptrSize)) :
    ∃ ss', step ss e = some ss' := by
  cases e with
  | ret t => cases h
  | _ => exact ⟨_, rfl⟩

theorem step_ret (ss : List (AppPc ptrSize)) (t : AppPc ptrSize) :
    step ss (.ret t) = StackDiscipline.step returnsTo ss (.pop t) := rfl

/-- A run of the shadow stack is a run of the stack discipline on the operations. -/
theorem run_eq (ss : List (AppPc ptrSize)) (evs : List (Event ptrSize)) :
    PartialRun.run step ss evs =
      PartialRun.run (StackDiscipline.step returnsTo) ss (evs.map opOf) :=
  PartialRun.run_eq_run_map opOf (fun _ _ => rfl) ss evs

end ShadowStack

end DrShadowStack
