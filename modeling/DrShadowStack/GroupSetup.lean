import DrShadowStack.Logging
import Mathlib.Logic.Function.Basic

/-!
# The process group and its signals (`Group::setup`, `set_default_signal_handler`)

Before anything is forked, the program starts a session of its own and gives every signal but a few
a handler that terminates the group. The kernel may refuse to have a signal changed (`EINVAL`); any
other failure terminates the group.
-/

namespace DrShadowStack.ProcessGroup

open Prog CString Utilities

/-- What the process does on a signal. -/
inductive Disposition
  | standard
  | ignored
  | defaultSignalHandler
deriving DecidableEq

/-- The dispositions of the process, by the number of the signal. -/
abbrev Dispositions := ℕ → Disposition

/-- How a call of `signal` ends: with the disposition changed, or with `SIG_ERR` and an `errno` that
is `EINVAL` or not. -/
inductive SignalEnd
  | changed
  | invalid
  | failed
deriving DecidableEq

/-! ## Signals (`signal.h`) -/

def SIGKILL : ℕ := 9
def SIGPIPE : ℕ := 13
def SIGCHLD : ℕ := 17
def SIGCONT : ℕ := 18
def SIGSTOP : ℕ := 19
def SIGURG : ℕ := 23
def SIGWINCH : ℕ := 28
def SIGIO : ℕ := 29

/-- Signals whose handlers should not be changed. -/
def noChange : List ℕ := [SIGKILL, SIGSTOP, SIGURG, SIGCONT, SIGCHLD, SIGIO, SIGWINCH, 0]

/-- What the kernel answers while the group is set up. -/
structure SetupAnswers where
  getpgrp : ℤ
  /-- The highest number that `_NSIG` lets the loop reach. -/
  nsig : ℕ
  signal : ℕ → SignalEnd
  strsignal : ℕ → CString

/-! ## The functions -/

/-- A default signal handler: it terminates the process group. -/
def defaultSignalHandler (env : Env) (fuel : ℕ) (answers : SetupAnswers) (sig : ℕ) :
    Prog State Unit := do
  logError env fuel (bytesOf "\nSignal " ++ Decimal.toString sig ++ bytesOf " (" ++
    (answers.strsignal sig).chars ++ bytesOf ") caught.\nTerminating process group...")
  terminate env fuel none true

/-- The body of the loop over all possible signals. -/
def changeHandler (env : Env) (fuel : ℕ) (answers : SetupAnswers) (handler : Disposition)
    (signals : Dispositions) (i : ℕ) : Prog State Dispositions :=
  if i ∈ noChange then pure signals
  else
    match answers.signal i with
    | .changed => pure (Function.update signals i handler)
    | .invalid => pure signals
    | .failed => do
      let reason ← nextOutcome env.strerror
      logError env fuel (bytesOf "failed to change signal handler of signal: " ++
        Decimal.toString i ++ bytesOf "\nstrerror returns: " ++ reason.chars)
      terminate env fuel none true
      -- not reached
      throw .killed

/-- Change the default signal handler of most signals. -/
def setDefaultSignalHandler (env : Env) (fuel : ℕ) (answers : SetupAnswers) (handler : Disposition)
    (signals : Dispositions) : Prog State Dispositions :=
  (List.range' 1 answers.nsig).foldlM (changeHandler env fuel answers handler) signals

/-- Set up the group. -/
def setup (env : Env) (fuel : ℕ) (answers : SetupAnswers) (setupComplete : Bool)
    (signals : Dispositions) : Prog State Dispositions :=
  onUnwind (Utilities.terminate env fuel (some destructorCalled) true) do
    if setupComplete = false then do
      -- `setsid`, which fails where the process leads a group already; that is not looked at
      log env fuel (bytesOf "Setup group with group id: " ++ Decimal.toString answers.getpgrp)
      let signals ← setDefaultSignalHandler env fuel answers .defaultSignalHandler signals
      log env fuel (bytesOf "Remapped signal handlers")
      pure signals
    else do
      terminate env fuel
        (some (CString.lit "ERROR: setup is complete already.\n\tTerminating program...\n")) true
      throw .killed

/-! ## What they compute -/

/-- The signals that are changed: those that may be, and that the kernel lets be changed. -/
def Changes (answers : SetupAnswers) (i : ℕ) : Prop :=
  i ∉ noChange ∧ answers.signal i = .changed

/-- A signal of the loop cannot be changed, for no good reason. -/
def FailsToChange (answers : SetupAnswers) (i : ℕ) : Prop :=
  i ∉ noChange ∧ answers.signal i = .failed

instance (answers : SetupAnswers) : DecidablePred (Changes answers) := fun _ =>
  inferInstanceAs (Decidable (_ ∧ _))

instance (answers : SetupAnswers) : DecidablePred (FailsToChange answers) := fun _ =>
  inferInstanceAs (Decidable (_ ∧ _))

/-- What the body of the loop computes. -/
def change (answers : SetupAnswers) (handler : Disposition) (signals : Dispositions) (i : ℕ) :
    Option Dispositions :=
  if FailsToChange answers i then none
  else some (if Changes answers i then Function.update signals i handler else signals)

/-- The dispositions behind the loop, if it gets through. -/
def remapped (answers : SetupAnswers) (handler : Disposition) (is : List ℕ)
    (signals : Dispositions) : Option Dispositions :=
  if ∃ i ∈ is, FailsToChange answers i then none
  else some fun i => if i ∈ is ∧ Changes answers i then handler else signals i

section Computes

variable {env : Env} {fuel : ℕ} {answers : SetupAnswers} {handler : Disposition}
  {signals : Dispositions}

/-- Whenever the handler runs, it ends the process and at most reports. -/
theorem defaultSignalHandler_computes (sig : ℕ) :
    Computes env fuel (defaultSignalHandler env fuel answers sig) none :=
  .seq (.logError _) (.terminate _ _)

theorem changeHandler_computes (signals : Dispositions) (i : ℕ) :
    Computes env fuel (changeHandler env fuel answers handler signals i)
      (change answers handler signals i) := by
  rw [changeHandler, change]
  by_cases hi : i ∈ noChange
  · rw [if_pos hi, if_neg fun h => h.1 hi, if_neg fun h => h.1 hi]
    exact .ret signals
  · rw [if_neg hi]
    cases hsignal : answers.signal i with
    | changed =>
      rw [if_neg (by simp [FailsToChange, hsignal]), if_pos ⟨hi, hsignal⟩]
      exact .ret _
    | invalid =>
      rw [if_neg (by simp [FailsToChange, hsignal]), if_neg (by simp [Changes, hsignal])]
      exact .ret signals
    | failed =>
      rw [if_pos ⟨hi, hsignal⟩]
      exact .outcome fun reason => .seq (.logError _) (.unreached (.terminate _ _))

/-- The loop sets the handler of each signal that it changes, and fails if one of them does. -/
theorem foldlM_change (is : List ℕ) (signals : Dispositions) :
    is.foldlM (change answers handler) signals = remapped answers handler is signals := by
  induction is generalizing signals with
  | nil => simp [remapped]
  | cons i is ih =>
    rw [List.foldlM_cons, change]
    by_cases hfails : FailsToChange answers i
    · rw [if_pos hfails, remapped, if_pos ⟨i, List.mem_cons_self, hfails⟩]
      rfl
    · have hrest : (∃ j ∈ i :: is, FailsToChange answers j) ↔
          ∃ j ∈ is, FailsToChange answers j := by
        simp [hfails]
      rw [if_neg hfails, remapped, if_congr hrest rfl rfl]
      show is.foldlM (change answers handler) _ = _
      rw [ih, remapped]
      congr 2
      funext j
      -- a signal that stands in the list again is set to the same handler again
      by_cases hj : j ∈ is ∧ Changes answers j
      · rw [if_pos hj, if_pos ⟨List.mem_cons_of_mem i hj.1, hj.2⟩]
      · rw [if_neg hj]
        by_cases hji : j = i
        · subst hji
          by_cases hchanges : Changes answers j <;> simp [hchanges]
        · have hne : ¬(j ∈ i :: is ∧ Changes answers j) := fun h =>
            hj ⟨(List.mem_cons.mp h.1).resolve_left hji, h.2⟩
          rw [if_neg hne]
          split
          · rw [Function.update_of_ne hji]
          · rfl

theorem setDefaultSignalHandler_computes (signals : Dispositions) :
    Computes env fuel (setDefaultSignalHandler env fuel answers handler signals)
      (remapped answers handler (List.range' 1 answers.nsig) signals) := by
  rw [← foldlM_change]
  exact .foldlM changeHandler_computes _ _

/-- **Setting up the group** gives the signals that it changes the handler that terminates it. -/
theorem setup_computes (setupComplete : Bool) :
    Computes env fuel (setup env fuel answers setupComplete signals)
      (if setupComplete then none
        else remapped answers .defaultSignalHandler (List.range' 1 answers.nsig) signals) := by
  refine .onUnwind ?_ _
  cases setupComplete with
  | true => exact .unreached (.terminate _ _)
  | false =>
    refine .seq (.log _) ?_
    rw [if_neg Bool.false_ne_true, ← Option.bind_fun_some (remapped _ _ _ _)]
    exact (setDefaultSignalHandler_computes signals).bind fun signals' _ =>
      .seq (.log _) (.ret signals')

end Computes

end DrShadowStack.ProcessGroup
