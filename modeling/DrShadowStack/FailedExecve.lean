import DrShadowStack.ExecChain
import DrShadowStack.InternalSS
import DrShadowStack.Wire

/-!
# An `execve` that the kernel rejects

The pre-syscall event runs before the call is attempted, and the post-syscall event when the call
returns to the old image. In both modes both events clear the stack: neither handler looks at its
`pre` argument, and neither event looks at the result of the call. So a rejected call leaves the
stack as it was on no more than the empty stack.
-/

namespace DrShadowStack

variable {ptrSize : ℕ}

namespace InternalSS

/-- The stack after the two events of a rejected call. -/
def failedExecve (ss : Stack ptrSize) : Stack ptrSize :=
  postSyscallEvent (preSyscallEvent ss (SYS_execve ptrSize)) (SYS_execve ptrSize)

/-- A rejected call leaves the stack as it was, and every continuation that was accepted without the
call is accepted after it. -/
structure LeftByFailedExecve (ss : Stack ptrSize) : Prop where
  stack : failedExecve ss = ss
  continuation : ∀ evs : List (Event ptrSize), (PartialRun.run step ss evs).isSome →
    (PartialRun.run step (failedExecve ss) evs).isSome

@[simp] theorem failedExecve_eq_nil (ss : Stack ptrSize) : failedExecve ss = [] := by
  rw [failedExecve, postSyscallEvent_execve]

theorem leftBy_iff_empty (ss : Stack ptrSize) : LeftByFailedExecve ss ↔ ss = [] := by
  constructor
  · intro h
    rw [← h.stack, failedExecve_eq_nil]
  · rintro rfl
    exact ⟨failedExecve_eq_nil [], fun evs hevs => by rwa [failedExecve_eq_nil]⟩

end InternalSS

namespace ExternalSS

open ExternalServer

/-- What the two events of a rejected call make the client write; `none` where one of them does not
end. The call has its environment array rewritten in place. -/
def failedExecve (ptrSize : ℕ) (c : Client) (env : Environ) (after after' : ℕ → UInt8) :
    Option (List UInt8) :=
  match preSyscallEvent ptrSize c after env (SYS_execve ptrSize) with
  | (before, .handedOn env) =>
    match postSyscallEvent ptrSize c after' env (SYS_execve ptrSize) with
    | (behind, .handedOn _) => some (before ++ behind)
    | _ => none
  | _ => none

/-- A rejected call is survived by the client, leaves the stack of the server as it was, and leaves
every stream of messages accepted that was accepted without the call. -/
def LeftByFailedExecve (c : Client) (env : Environ) (after after' : ℕ → UInt8)
    (stk : PointerStack ptrSize) : Prop :=
  ∃ bytes, failedExecve ptrSize c env after after' = some bytes ∧
    stackBehind stk bytes = some stk ∧
    ∀ k, (stackBehind stk k).isSome → (stackBehind stk (bytes ++ k)).isSome

/-- The two messages clear the stack twice. -/
theorem stackBehind_execveMsg (after after' : ℕ → UInt8) (stk : PointerStack ptrSize) :
    stackBehind stk (execveMsg ptrSize after ++ execveMsg ptrSize after') = some [] := by
  refine stackBehind_eq_some_iff.mpr
    ⟨[(after, .execve []), (after', .execve [])].map fun w => eventFrame w.1 w.2, _, ?_,
      map_op_eventFrame _, rfl⟩
  simp [framesBytes, frame]

/-- The client survives the two events where its scan finds an entry. -/
theorem failedExecve_eq {c : Client} (hc : c.Ready) (env : Environ) (after after' : ℕ → UInt8) :
    failedExecve ptrSize c env after after' =
      if HoldsFd env then some (execveMsg ptrSize after ++ execveMsg ptrSize after') else none := by
  rw [failedExecve, preSyscallEvent_execve]
  split_ifs with hfd
  · obtain ⟨env', honto, hmem, -⟩ := hc.execve hfd true
    obtain ⟨env'', honto', -⟩ := hc.execve ⟨_, hmem, beginsWithFd_entry _⟩ false
    simp only [honto, postSyscallEvent_execve, honto']
  · rw [onExecve_of_not_holdsFd hfd]

theorem leftBy_iff_empty_holdsFd {c : Client} (hc : c.Ready) (env : Environ)
    (after after' : ℕ → UInt8) (stk : PointerStack ptrSize) :
    LeftByFailedExecve c env after after' stk ↔ stk = [] ∧ HoldsFd env := by
  have hclear := stackBehind_execveMsg after after' stk
  constructor
  · rintro ⟨bytes, hbytes, hstk, -⟩
    rw [failedExecve_eq hc] at hbytes
    split_ifs at hbytes with hfd
    obtain rfl := Option.some.inj hbytes
    exact ⟨Option.some.inj (hstk.symm.trans hclear), hfd⟩
  · rintro ⟨rfl, hfd⟩
    refine ⟨_, by rw [failedExecve_eq hc, if_pos hfd], hclear, fun k hk => ?_⟩
    obtain ⟨stk', hstk'⟩ := Option.isSome_iff_exists.mp hk
    rw [stackBehind_append hclear hstk', Option.isSome_some]

end ExternalSS

/-- **A rejected `execve` leaves the stack as it was only when the stack is empty**, and in external
mode only when besides the scan of the environment finds an entry. -/
theorem leftByFailedExecve_iff {p : ExternalSS.Process} (hp : ExternalSS.Reachable ptrSize p)
    (env : Environ) (after after' : ℕ → UInt8) (ss : List (AppPc ptrSize)) :
    (InternalSS.LeftByFailedExecve ss ↔ ss = []) ∧
      (ExternalSS.LeftByFailedExecve p.client env after after' ss ↔
        ss = [] ∧ ExternalSS.HoldsFd env) :=
  ⟨InternalSS.leftBy_iff_empty ss,
    ExternalSS.leftBy_iff_empty_holdsFd hp.ready.client env after after' ss⟩

theorem leftByFailedExecve_iff_inherited :
    (InternalSS.LeftByFailedExecve ([] : List (AppPc 8)) ↔ ([] : List (AppPc 8)) = []) ∧
      (ExternalSS.LeftByFailedExecve
          (ExternalSS.firstImage (startProgram [] (CString.lit "/s")) 5).client
          [CString.lit "DR_SS_ENV_FD_VAR=5"] (fun _ => 0) (fun _ => 0) ([] : List (AppPc 8)) ↔
        ([] : List (AppPc 8)) = [] ∧ ExternalSS.HoldsFd [CString.lit "DR_SS_ENV_FD_VAR=5"]) :=
  leftByFailedExecve_iff (@ExternalSS.reachable_firstImage 8 [] (CString.lit "/s")
    ⟨5, true, by decide⟩ ⟨by decide, rfl⟩) _ _ _ _

/-- With the return address 7 on the stack, the ret to it is accepted without the rejected call and
refused after it, in both modes. -/
theorem failedExecve_loses_caller :
    (PartialRun.run InternalSS.step ([7] : List (AppPc 8)) [.ret 7] = some [] ∧
        PartialRun.run InternalSS.step (InternalSS.failedExecve ([7] : List (AppPc 8))) [.ret 7] =
          none ∧
        ¬InternalSS.LeftByFailedExecve ([7] : List (AppPc 8))) ∧
      ¬ExternalSS.LeftByFailedExecve
        (ExternalSS.firstImage (startProgram [] (CString.lit "/s")) 5).client
        [CString.lit "DR_SS_ENV_FD_VAR=5"] (fun _ => 0) (fun _ => 0) ([7] : List (AppPc 8)) := by
  have hready : (ExternalSS.firstImage (startProgram [] (CString.lit "/s")) 5).client.Ready :=
    (@ExternalSS.reachable_firstImage 8 [] (CString.lit "/s") ⟨5, true, by decide⟩
      ⟨by decide, rfl⟩).ready.client
  refine ⟨⟨by decide, by decide, ?_⟩, ?_⟩
  · rw [InternalSS.leftBy_iff_empty]
    simp
  · rw [ExternalSS.leftBy_iff_empty_holdsFd hready]
    simp

end DrShadowStack
