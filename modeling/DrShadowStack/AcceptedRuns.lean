import DrShadowStack.InternalSS

/-!
# The accepted language of internal mode

A run of one thread is a list of events; its positions are matched by `StackDiscipline.matchOf`,
which knows of no stack: the match of a ret is the last call or signal before it, in the same
segment between two `execve`s, that no earlier ret is matched with. `acceptsMatched` says that
internal mode lets a run through exactly when every ret in it goes back to where its match allows.
-/

namespace DrShadowStack.InternalSS

open PartialRun StackDiscipline ShadowStack

variable {ptrSize : ℕ}

/-- The operations of a run on the shadow stack. -/
abbrev opsOf (evs : List (Event ptrSize)) : List (Op (AppPc ptrSize) (AppPc ptrSize)) :=
  evs.map opOf

/-- No call of the run pushes the wildcard as its return address. -/
def NoWildcardCall (evs : List (Event ptrSize)) : Prop := .call wildcard ∉ evs

instance (evs : List (Event ptrSize)) : Decidable (NoWildcardCall evs) :=
  inferInstanceAs (Decidable (.call wildcard ∉ evs))

/-- The ret at position `i`, if there is one, has a matching push, which is a signal or a call whose
return address is the ret's target. -/
def RetMatched (evs : List (Event ptrSize)) (i : ℕ) : Prop :=
  ∀ t, evs[i]? = some (.ret t) →
    ∃ j, matchOf (opsOf evs) i = some j ∧ (evs[j]? = some .signal ∨ evs[j]? = some (.call t))

/-- Does a ret stand at position `i` whose target is not the return address of a matching call? -/
def isStray (evs : List (Event ptrSize)) (i : ℕ) : Bool :=
  match evs[i]? with
  | some (.ret t) =>
    match matchOf (opsOf evs) i with
    | some j => evs[j]? != some (.call t)
    | none => true
  | _ => false

/-- The positions of the stray rets. -/
def strayRets (evs : List (Event ptrSize)) : Finset ℕ :=
  (Finset.range evs.length).filter fun i => isStray evs i

/-- The positions at which a signal is delivered. -/
def signals (evs : List (Event ptrSize)) : Finset ℕ :=
  (Finset.range evs.length).filter fun j => evs[j]? = some .signal

/-- The stretches of calls, rets and signal handlers that return from everything they enter. -/
inductive BalancedRun : List (Event ptrSize) → Prop
  | nil : BalancedRun []
  | call (a t : AppPc ptrSize) {w : List (Event ptrSize)} :
      BalancedRun w → BalancedRun (.call a :: w ++ [.ret t])
  | signal (t : AppPc ptrSize) {w : List (Event ptrSize)} :
      BalancedRun w → BalancedRun (.signal :: w ++ [.ret t])
  | append {v w : List (Event ptrSize)} :
      BalancedRun v → BalancedRun w → BalancedRun (v ++ w)

/-- What internal mode accepts and what it keeps, for the run `evs` from the empty stack. -/
structure AcceptsMatched (evs : List (Event ptrSize)) : Prop where
  /-- The run reaches its end exactly when every ret is matched. -/
  accepted_iff : (run step [] evs).isSome ↔ ∀ i, RetMatched evs i
  /-- The stack of an accepted run holds the pushes left unmatched, the last one on top. -/
  stack_eq : ∀ ss, run step [] evs = some ss →
    ss = (pending (opsOf evs) evs.length).filterMap (pushedAt (opsOf evs))
  /-- A balanced stretch leaves every entry beneath it in place, throughout. -/
  balanced : ∀ pre w post, evs = pre ++ w ++ post → BalancedRun w →
    ∀ ss, run step [] pre = some ss →
      (∀ ss', run step [] (pre ++ w) = some ss' → ss' = ss) ∧
        ∀ q ss', q <+: w → run step [] (pre ++ q) = some ss' → ss <:+ ss'
  /-- As long as the run is accepted, stray rets are no more than signals. -/
  stray_le : ∀ pre, pre <+: evs → (run step [] pre).isSome →
    (strayRets pre).card ≤ (signals pre).card

/-! ## Positions of events and of operations -/

section Positions

variable {evs : List (Event ptrSize)} {i j : ℕ}

theorem run_step_eq_ops (ss : Stack ptrSize) (evs : List (Event ptrSize)) :
    run step ss evs = run (StackDiscipline.step returnsTo) ss (opsOf evs) := by
  rw [step_eq_shadowStack, ShadowStack.run_eq]

theorem requestedAt_eq_some_iff {t : AppPc ptrSize} :
    requestedAt (opsOf evs) i = some t ↔ evs[i]? = some (.ret t) := by
  rw [requestedAt, List.getElem?_map]
  rcases evs[i]? with _ | (_ | _ | _ | _) <;> simp [opOf]

theorem pushedAt_eq_some_iff {a : AppPc ptrSize} :
    pushedAt (opsOf evs) j = some a ↔
      evs[j]? = some (.call a) ∨ (evs[j]? = some .signal ∧ a = wildcard) := by
  rw [pushedAt, List.getElem?_map]
  rcases evs[j]? with _ | (_ | _ | _ | _) <;> simp [opOf, eq_comm]

/-- Without wildcard calls, a push that admits a ret is a signal or the call the ret goes back
to. -/
theorem admits_iff (hcalls : NoWildcardCall evs) {t : AppPc ptrSize} :
    (∃ a, pushedAt (opsOf evs) j = some a ∧ returnsTo a t = true) ↔
      evs[j]? = some .signal ∨ evs[j]? = some (.call t) := by
  constructor
  · rintro ⟨a, ha, hok⟩
    -- an entry that is the wildcard comes from a signal, since no call pushes it
    rcases pushedAt_eq_some_iff.mp ha with hcall | ⟨hsignal, -⟩
    · have hwild : a ≠ wildcard := by
        rintro rfl
        exact hcalls (List.mem_of_getElem? hcall)
      by_cases hat : a = t
      · exact .inr (hat ▸ hcall)
      · rw [returnsTo_of_ne hwild hat] at hok
        cases hok
    · exact .inl hsignal
  · rintro (hsignal | hcall)
    · exact ⟨wildcard, pushedAt_eq_some_iff.mpr (.inr ⟨hsignal, rfl⟩), returnsTo_wildcard t⟩
    · exact ⟨t, pushedAt_eq_some_iff.mpr (.inl hcall), returnsTo_self t⟩

theorem popMatched_iff (hcalls : NoWildcardCall evs) :
    PopMatched returnsTo (opsOf evs) i ↔ RetMatched evs i := by
  constructor
  · intro h t ht
    obtain ⟨j, a, hj, ha, hok⟩ := h t (requestedAt_eq_some_iff.mpr ht)
    exact ⟨j, hj, (admits_iff hcalls).mp ⟨a, ha, hok⟩⟩
  · intro h t ht
    obtain ⟨j, hj, hpush⟩ := h t (requestedAt_eq_some_iff.mp ht)
    obtain ⟨a, ha, hok⟩ := (admits_iff hcalls).mpr hpush
    exact ⟨j, a, hj, ha, hok⟩

end Positions

theorem BalancedRun.balanced {w : List (Event ptrSize)} (h : BalancedRun w) :
    Balanced (opsOf w) := by
  induction h with
  | nil => exact .nil
  | call a t _ ih =>
    rw [opsOf, List.map_append, List.map_cons]
    exact .wrap a t ih
  | signal t _ ih =>
    rw [opsOf, List.map_append, List.map_cons]
    exact .wrap wildcard t ih
  | append _ _ ihv ihw =>
    rw [opsOf, List.map_append]
    exact .append ihv ihw

/-! ## The parts of the language theorem -/

section Parts

variable {evs : List (Event ptrSize)}

/-- A run from the empty stack, in terms of the matching. -/
theorem run_eq_some_iff_matched (hcalls : NoWildcardCall evs) {ss : Stack ptrSize} :
    run step [] evs = some ss ↔
      (∀ i, RetMatched evs i) ∧ ss = stackAt (opsOf evs) evs.length := by
  rw [run_step_eq_ops, run_eq_some_iff, List.length_map]
  simp only [popMatched_iff hcalls]

/-- A balanced stretch of a run, from whatever stack it starts with. -/
theorem run_balanced {pre w q : List (Event ptrSize)} (hw : BalancedRun w) {ss ss' : Stack ptrSize}
    (hpre : run step [] pre = some ss) (hq : q <+: w)
    (h : run step [] (pre ++ q) = some ss') : ss <:+ ss' ∧ (q = w → ss' = ss) := by
  rw [run_append, hpre, Option.bind_some, run_step_eq_ops] at h
  refine ⟨hw.balanced.suffix_of_prefix (hq.map opOf) h, ?_⟩
  rintro rfl
  exact hw.balanced.run_eq h

/-- In an accepted run a stray ret is matched with a signal. -/
theorem signal_of_stray (hmatched : ∀ i, RetMatched evs i) {i : ℕ} (hi : i ∈ strayRets evs) :
    (requestedAt (opsOf evs) i).isSome ∧
      ∃ j, matchOf (opsOf evs) i = some j ∧ evs[j]? = some .signal := by
  rw [strayRets, Finset.mem_filter, isStray] at hi
  obtain ⟨-, hstray⟩ := hi
  split at hstray
  · next t ht =>
    obtain ⟨j, hj, hpush⟩ := hmatched i t ht
    rw [hj] at hstray
    refine ⟨?_, j, hj, hpush.resolve_right (by simpa using hstray)⟩
    rw [requestedAt_eq_some_iff.mpr ht]
    rfl
  · cases hstray

theorem card_strayRets_le (hmatched : ∀ i, RetMatched evs i) :
    (strayRets evs).card ≤ (signals evs).card := by
  refine le_trans (Finset.card_le_card fun i hi => ?_)
    (le_trans (card_pops_le (opsOf evs) evs.length fun j => evs[j]? = some .signal)
      (Finset.card_le_card fun j hj => ?_))
  · have hrange : i ∈ Finset.range evs.length := (Finset.mem_filter.mp hi).1
    exact Finset.mem_filter.mpr ⟨hrange, signal_of_stray hmatched hi⟩
  · rw [Finset.mem_filter] at hj
    exact Finset.mem_filter.mpr ⟨hj.1, hj.2.2⟩

end Parts

/-- **The accepted language.** Run from the empty stack, with no call pushing the wildcard, internal
mode accepts a run exactly when all its rets are matched, and keeps what is unmatched. -/
theorem acceptsMatched (evs : List (Event ptrSize)) (hcalls : NoWildcardCall evs) :
    AcceptsMatched evs where
  accepted_iff := by
    constructor
    · intro h
      obtain ⟨ss, hss⟩ := Option.isSome_iff_exists.mp h
      exact ((run_eq_some_iff_matched hcalls).mp hss).1
    · intro h
      rw [(run_eq_some_iff_matched hcalls).mpr ⟨h, rfl⟩]
      rfl
  stack_eq ss hss := ((run_eq_some_iff_matched hcalls).mp hss).2
  balanced pre w post _ hw ss hpre :=
    ⟨fun _ h => (run_balanced hw hpre List.prefix_rfl h).2 rfl,
      fun _ _ hq h => (run_balanced hw hpre hq h).1⟩
  stray_le pre hpre haccept := by
    have hcalls' : NoWildcardCall pre := fun hmem => hcalls (hpre.subset hmem)
    obtain ⟨ss, hss⟩ := Option.isSome_iff_exists.mp haccept
    exact card_strayRets_le ((run_eq_some_iff_matched hcalls').mp hss).1

/-- A call, a signal handler that calls and returns, and the return of the call. -/
theorem acceptsMatched_signal_in_call :
    AcceptsMatched ([.call 0x400123, .signal, .call 0x400800, .ret 0x400800, .ret 0x7f0010,
      .ret 0x400123] : List (Event 8)) :=
  acceptsMatched _ (by decide)

end DrShadowStack.InternalSS
