import DrShadowStack.Common.Interleaving
import DrShadowStack.Wire

/-!
# Several threads on the one stack of the server

All threads of the protected program and all children that it forks write to the socket they
inherited, and the server keeps one stack for it. Neither the frames nor the stack say whose an
entry is; `tagged` adds it. The verdict is compared with the one that every thread would get from a
stack of its own, which a forked child copies from its parent.

## Shape of the proof

While a ret finds an entry of its own thread on top and an `execve` finds none of another
(`Undisturbed`), the stack of every thread is its part of the server's stack on top of what the
thread inherited (`Separate`), so that both give one verdict. The first disturbance shows: the ret
that pops another's entry, and the `execve` that clears one, leave the other's part too short.
-/

namespace DrShadowStack.SharedStack

open Interleaving ExternalServer ShadowStack StackDiscipline

variable {ι : Type*} {ptrSize : ℕ}

/-- A message: the event whose handler sends it, and the memory behind the literal of its header. -/
abbrev Msg (ptrSize : ℕ) := (ℕ → UInt8) × Event ptrSize

/-- What the socket carries to the server: the frames of all threads. A fork sends nothing. -/
def stream (acts : List (Action ι (Msg ptrSize))) : List UInt8 :=
  acts.flatMap fun
    | .event _ m => ExternalSS.frame m.1 m.2
    | .fork _ _ => []

/-- One message on the stack of a single thread. -/
def stepMsg (_t : ι) (ss : List (AppPc ptrSize)) (m : Msg ptrSize) :
    Option (List (AppPc ptrSize)) :=
  ShadowStack.step ss m.2

/-- One message of the thread `t` on a stack whose entries carry the thread that pushed them. -/
def stepTagged (t : ι) (stk : List (ι × AppPc ptrSize)) (m : Msg ptrSize) :
    Option (List (ι × AppPc ptrSize)) :=
  StackDiscipline.step (fun e x => returnsTo e.2 x) stk ((opOf m.2).map fun a => (t, a))

/-- One action on the server's stack. -/
def actTagged (stk : List (ι × AppPc ptrSize)) :
    Action ι (Msg ptrSize) → Option (List (ι × AppPc ptrSize))
  | .event t m => stepTagged t stk m
  | .fork _ _ => some stk

/-- The server's stack, with the thread that pushed each entry; `none` once it has terminated. -/
def tagged (acts : List (Action ι (Msg ptrSize))) : Option (List (ι × AppPc ptrSize)) :=
  PartialRun.run actTagged [] acts

theorem tagged_concat (acts : List (Action ι (Msg ptrSize))) (a : Action ι (Msg ptrSize)) :
    tagged (acts ++ [a]) = (tagged acts).bind fun stk => actTagged stk a :=
  PartialRun.run_concat _ _ _

theorem stepTagged_map (t : ι) (stk : List (ι × AppPc ptrSize)) (m : Msg ptrSize) :
    (stepTagged t stk m).map (List.map Prod.snd) = stepMsg t (stk.map Prod.snd) m := by
  rw [stepTagged, step_map Prod.snd]
  cases h : opOf m.2 <;> rw [stepMsg, ShadowStack.step, h] <;> rfl

/-- Without the tags it is the server's stack. -/
theorem tagged_map (acts : List (Action ι (Msg ptrSize))) :
    (tagged acts).map (List.map Prod.snd) = stackBehind [] (stream acts) := by
  suffices h : ∀ stk : List (ι × AppPc ptrSize),
      (PartialRun.run actTagged stk acts).map (List.map Prod.snd) =
        stackBehind (stk.map Prod.snd) (stream acts) from h []
  induction acts with
  | nil => intro stk; simp [stream]
  | cons a acts ih =>
    intro stk
    cases a with
    | fork parent child => exact ih stk
    | event t m =>
      have hstream : stream (.event t m :: acts) = ExternalSS.frame m.1 m.2 ++ stream acts := by
        simp [stream]
      have hstep : ShadowStack.step (stk.map Prod.snd) m.2 =
          (stepTagged t stk m).map (List.map Prod.snd) := (stepTagged_map t stk m).symm
      rw [hstream, stackBehind_frame, hstep, PartialRun.run_cons, actTagged]
      cases stepTagged t stk m with
      | none => rfl
      | some stk' => exact ih stk'

theorem returned_iff_tagged (acts : List (Action ι (Msg ptrSize))) :
    (∃ l, startExternalShadowStack ptrSize (stream acts) = .returned l) ↔ (tagged acts).isSome := by
  rw [start_returned_iff, ← tagged_map, Option.isSome_map]

variable [DecidableEq ι]

/-- The part of the stack that the thread `t` pushed. -/
def entriesOf (t : ι) (stk : List (ι × AppPc ptrSize)) : List (ι × AppPc ptrSize) :=
  stk.filter fun e => e.1 = t

/-- The stacks of the threads for themselves are tagged as well, so that what a thread inherited
carries other tags; without the tags they are single-thread shadow stacks. -/
theorem alone_stepTagged_map (acts : List (Action ι (Msg ptrSize))) (t : ι) :
    (alone stepTagged [] acts t).map (List.map Prod.snd) = alone stepMsg [] acts t :=
  alone_map (List.map Prod.snd) stepTagged_map acts t

/-- Every thread's stack is its part of the server's stack on top of what it inherited. -/
def Separate (acts : List (Action ι (Msg ptrSize))) (stk : List (ι × AppPc ptrSize)) : Prop :=
  ∀ t, ∃ inherited, alone stepTagged [] acts t = some (entriesOf t stk ++ inherited) ∧
    ∀ e ∈ inherited, e.1 ≠ t

/-- The server judges every thread as if it had a stack of its own. -/
structure PerThread (acts : List (Action ι (Msg ptrSize))) : Prop where
  /-- It gets to the end of the interleaving exactly if every thread's own messages are accepted. -/
  verdict : (∃ l, startExternalShadowStack ptrSize (stream acts) = .returned l) ↔
    ∀ t, (alone stepMsg [] acts t).isSome
  /-- Then no thread has pushed, popped or cleared an entry of another. -/
  separate : ∀ stk, tagged acts = some stk → Separate acts stk

/-- The action of a thread meets no entry of another: its ret finds an entry of its own on top, or
is refused by the thread's own stack as it is by the server's; its `execve` finds no other
entries. -/
def Undisturbed (acts : List (Action ι (Msg ptrSize))) : Action ι (Msg ptrSize) → Prop
  | .event t (_, .ret x) => ∀ stk, tagged acts = some stk →
    (∃ top rest, stk = (t, top) :: rest) ∨
      (admits (fun e x => returnsTo e.2 x) stk x = false ∧
        ∀ ss, alone stepMsg [] acts t = some ss → admits returnsTo ss x = false)
  | .event t (_, .execve _) => ∀ stk, tagged acts = some stk → ∀ e ∈ stk, e.1 = t
  | _ => True

/-! ## One action -/

section Act

variable {acts : List (Action ι (Msg ptrSize))} {stk : List (ι × AppPc ptrSize)} {t u : ι}
  {m : Msg ptrSize} {x : AppPc ptrSize}

theorem entriesOf_cons_self (t : ι) (a : AppPc ptrSize) (stk : List (ι × AppPc ptrSize)) :
    entriesOf t ((t, a) :: stk) = (t, a) :: entriesOf t stk := by
  simp [entriesOf]

theorem entriesOf_cons_ne (a : AppPc ptrSize) (stk : List (ι × AppPc ptrSize)) (h : u ≠ t) :
    entriesOf t ((u, a) :: stk) = entriesOf t stk := by
  simp [entriesOf, h]

/-- A push goes on top of the thread's part. -/
theorem Separate.push (h : Separate acts stk) (hop : opOf m.2 = .push x) :
    Separate (acts ++ [.event t m]) ((t, x) :: stk) := by
  intro u
  obtain ⟨inherited, hown, hinh⟩ := h u
  refine ⟨inherited, ?_, hinh⟩
  by_cases hut : u = t
  · subst hut
    rw [alone_event_self, hown, entriesOf_cons_self, Option.bind_some, stepTagged, hop]
    rfl
  · rw [alone_event_ne acts m hut, hown, entriesOf_cons_ne x stk (Ne.symm hut)]

/-- A ret that finds an entry of its own thread on top is checked against the thread's own stack. -/
theorem Separate.pop {top : AppPc ptrSize} {rest : List (ι × AppPc ptrSize)}
    (h : Separate acts ((t, top) :: rest)) (hop : opOf m.2 = .pop x) :
    if returnsTo top x then
      actTagged ((t, top) :: rest) (.event t m) = some rest ∧ Separate (acts ++ [.event t m]) rest
    else
      actTagged ((t, top) :: rest) (.event t m) = none ∧
        alone stepTagged [] (acts ++ [.event t m]) t = none := by
  have hstep : ∀ stk : List (ι × AppPc ptrSize),
      stepTagged t ((t, top) :: stk) m = if returnsTo top x then some stk else none := by
    intro stk
    rw [stepTagged, hop]
    rfl
  obtain ⟨inherited, hown, hinh⟩ := h t
  rw [entriesOf_cons_self] at hown
  have hown' : alone stepTagged [] (acts ++ [.event t m]) t =
      if returnsTo top x then some (entriesOf t rest ++ inherited) else none := by
    rw [alone_event_self, hown, Option.bind_some, List.cons_append, hstep]
  split
  · next hok =>
    refine ⟨by rw [actTagged, hstep, if_pos hok], fun u => ?_⟩
    by_cases hut : u = t
    · subst hut
      exact ⟨inherited, by rw [hown', if_pos hok], hinh⟩
    · obtain ⟨inherited', hown'', hinh'⟩ := h u
      refine ⟨inherited', ?_, hinh'⟩
      rw [alone_event_ne acts m hut, hown'', entriesOf_cons_ne top rest (Ne.symm hut)]
  · next hok => exact ⟨by rw [actTagged, hstep, if_neg hok], by rw [hown', if_neg hok]⟩

/-- An `execve` that finds only entries of its own thread clears only these. -/
theorem Separate.clear (h : Separate acts stk) (hop : opOf m.2 = .clear)
    (hall : ∀ e ∈ stk, e.1 = t) :
    Separate (acts ++ [.event t m]) [] := by
  intro u
  obtain ⟨inherited, hown, hinh⟩ := h u
  by_cases hut : u = t
  · subst hut
    refine ⟨[], ?_, by simp⟩
    rw [alone_event_self, hown, Option.bind_some, stepTagged, hop]
    rfl
  · have hnone : entriesOf u stk = [] :=
      List.filter_eq_nil_iff.mpr fun e he => by simp [hall e he, Ne.symm hut]
    exact ⟨inherited, by rw [alone_event_ne acts m hut, hown, hnone]; rfl, hinh⟩

/-- The entries of a thread's own stack were pushed by threads that have occurred. -/
theorem tag_ne_of_unseen {ss : List (ι × AppPc ptrSize)}
    (hown : alone stepTagged [] acts t = some ss)
    (hunseen : Unseen acts u) : ∀ e ∈ ss, e.1 ≠ u := by
  induction acts using List.reverseRecOn generalizing t ss with
  | nil =>
    obtain rfl := Option.some.inj hown
    simp
  | append_singleton acts a ih =>
    obtain ⟨hacts, ha⟩ := hunseen.of_concat
    cases a with
    | fork parent child =>
      by_cases htc : t = child
      · subst htc
        rw [alone_fork] at hown
        exact ih hown hacts
      · rw [alone_fork_ne acts parent htc] at hown
        exact ih hown hacts
    | event v m =>
      by_cases htv : t = v
      · subst htv
        have htu : t ≠ u := fun heq => ha (by simp [Action.threads, heq])
        rw [alone_event_self, Option.bind_eq_some_iff] at hown
        obtain ⟨ss₀, hss₀, hstep⟩ := hown
        have htags := ih hss₀ hacts
        rw [stepTagged] at hstep
        cases hop : opOf m.2 with
        | push x =>
          rw [hop] at hstep
          obtain rfl := Option.some.inj hstep
          intro e he
          rcases List.mem_cons.mp he with rfl | he
          · exact htu
          · exact htags e he
        | pop x =>
          rw [hop, Op.map] at hstep
          obtain ⟨top, rfl, -⟩ := step_pop_eq_some_iff.mp hstep
          exact fun e he => htags e (List.mem_cons_of_mem top he)
        | clear =>
          rw [hop] at hstep
          obtain rfl := Option.some.inj hstep
          simp
      · rw [alone_event_ne acts m htv] at hown
        exact ih hown hacts

/-- A new child owns nothing on the server's stack, and inherits all that its parent has. -/
theorem Separate.fork {parent child : ι} (h : Separate acts stk)
    (hfresh : ForksFresh (acts ++ [.fork parent child])) :
    Separate (acts ++ [.fork parent child]) stk := by
  intro u
  by_cases huc : u = child
  · subst huc
    -- the child is new, so its stack alone is still empty, and with it its part of the server's
    obtain ⟨inherited, hown, -⟩ := h u
    rw [alone_of_unseen hfresh.last.2] at hown
    have hnone : entriesOf u stk = [] := (List.append_eq_nil_iff.mp (Option.some.inj hown).symm).1
    obtain ⟨inherited', hparent, -⟩ := h parent
    refine ⟨_, ?_, tag_ne_of_unseen hparent hfresh.last.2⟩
    rw [alone_fork, hparent, hnone]
    rfl
  · obtain ⟨inherited, hown, hinh⟩ := h u
    exact ⟨inherited, by rw [alone_fork_ne acts parent huc, hown], hinh⟩

end Act

/-! ## The verdict -/

section Verdict

variable {acts : List (Action ι (Msg ptrSize))} {a : Action ι (Msg ptrSize)}

/-- What holds of undisturbed interleavings: the stacks are separate, or the server and the stack of
some thread have refused. -/
structure Kept (acts : List (Action ι (Msg ptrSize))) : Prop where
  separate : ∀ stk, tagged acts = some stk → Separate acts stk
  refused : tagged acts = none → ∃ t, alone stepTagged [] acts t = none

theorem isSome_alone_stepMsg (acts : List (Action ι (Msg ptrSize))) (t : ι) :
    (alone stepMsg [] acts t).isSome = (alone stepTagged [] acts t).isSome := by
  rw [← alone_stepTagged_map, Option.isSome_map]

theorem Kept.nil : Kept ([] : List (Action ι (Msg ptrSize))) := by
  refine ⟨fun stk hstk t => ?_, fun h => by cases h⟩
  obtain rfl := Option.some.inj hstk
  exact ⟨[], rfl, by simp⟩

theorem Kept.perThread (h : Kept acts) : PerThread acts := by
  refine ⟨?_, h.separate⟩
  simp only [returned_iff_tagged, isSome_alone_stepMsg]
  cases htagged : tagged acts with
  | none =>
    obtain ⟨t, ht⟩ := h.refused htagged
    exact iff_of_false (by simp) fun hall => by simpa [ht] using hall t
  | some stk =>
    refine iff_of_true rfl fun t => ?_
    obtain ⟨inherited, hown, -⟩ := h.separate stk htagged t
    rw [hown, Option.isSome_some]

/-- A state of the server that an action leads to, and what is to be shown of it. -/
theorem Kept.of_some {stk stk' : List (ι × AppPc ptrSize)} (htagged : tagged acts = some stk)
    (hact : actTagged stk a = some stk') (h : Separate (acts ++ [a]) stk') :
    Kept (acts ++ [a]) := by
  have htagged' : tagged (acts ++ [a]) = some stk' := by
    rw [tagged_concat, htagged, Option.bind_some, hact]
  refine ⟨fun u hu => ?_, fun hnone => by simp [htagged'] at hnone⟩
  obtain rfl := Option.some.inj (htagged'.symm.trans hu)
  exact h

theorem Kept.of_none {stk : List (ι × AppPc ptrSize)} {t : ι} (htagged : tagged acts = some stk)
    (hact : actTagged stk a = none) (h : alone stepTagged [] (acts ++ [a]) t = none) :
    Kept (acts ++ [a]) := by
  have htagged' : tagged (acts ++ [a]) = none := by
    rw [tagged_concat, htagged, Option.bind_some, hact]
  exact ⟨fun u hu => by simp [htagged'] at hu, fun _ => ⟨t, h⟩⟩

/-- A thread's own ret that its own stack refuses. -/
theorem alone_ret_eq_none {t : ι} {after : ℕ → UInt8} {x : AppPc ptrSize}
    (h : ∀ ss, alone stepMsg [] acts t = some ss → admits returnsTo ss x = false) :
    alone stepTagged [] (acts ++ [.event t (after, .ret x)]) t = none := by
  rw [← Option.not_isSome_iff_eq_none, ← isSome_alone_stepMsg, alone_event_self]
  cases hss : alone stepMsg [] acts t with
  | none => simp
  | some ss =>
    have hstep : stepMsg t ss (after, .ret x) = none := step_pop_eq_none_iff.mpr (h ss hss)
    rw [Option.bind_some, hstep]
    simp

/-- An undisturbed action keeps the stacks separate, or is refused by both. -/
theorem Kept.concat (h : Kept acts) (hfresh : ForksFresh (acts ++ [a]))
    (hundisturbed : Undisturbed acts a) : Kept (acts ++ [a]) := by
  cases htagged : tagged acts with
  | none =>
    obtain ⟨t, ht⟩ := h.refused htagged
    have htagged' : tagged (acts ++ [a]) = none := by rw [tagged_concat, htagged, Option.bind_none]
    exact ⟨fun u hu => by simp [htagged'] at hu, fun _ => ⟨t, alone_concat_eq_none hfresh ht⟩⟩
  | some stk =>
    have hsep := h.separate stk htagged
    cases a with
    | fork parent child => exact .of_some htagged rfl (hsep.fork hfresh)
    | event t m =>
      obtain ⟨after, e⟩ := m
      cases e with
      | call x => exact .of_some htagged rfl (hsep.push rfl)
      | signal => exact .of_some htagged rfl (hsep.push rfl)
      | execve env => exact .of_some htagged rfl (hsep.clear rfl (hundisturbed stk htagged))
      | ret x =>
        rcases hundisturbed stk htagged with ⟨top, rest, rfl⟩ | ⟨hshared, hown⟩
        · have hpop := hsep.pop (m := (after, .ret x)) rfl
          split at hpop
          · exact .of_some htagged hpop.1 hpop.2
          · exact .of_none htagged hpop.1 hpop.2
        · exact .of_none htagged (step_pop_eq_none_iff.mpr hshared) (alone_ret_eq_none hown)

/-- The parts of a stack on which tags are separate. -/
theorem entriesOf_append {u : ι} {stk inherited : List (ι × AppPc ptrSize)}
    (h : ∀ e ∈ inherited, e.1 ≠ u) :
    entriesOf u (entriesOf u stk ++ inherited) = entriesOf u stk := by
  have hnil : inherited.filter (fun e => e.1 = u) = [] :=
    List.filter_eq_nil_iff.mpr fun e he => by simpa using h e he
  simp [entriesOf, hnil]

/-- A thread that does nothing keeps its part of the server's stack, where all stacks are separate
before and after. -/
theorem Separate.entriesOf_eq {stk stk' : List (ι × AppPc ptrSize)} {u : ι} (h : Separate acts stk)
    (h' : Separate (acts ++ [a]) stk')
    (hsame : alone stepTagged [] (acts ++ [a]) u = alone stepTagged [] acts u) :
    entriesOf u stk' = entriesOf u stk := by
  obtain ⟨inherited, hown, hinh⟩ := h u
  obtain ⟨inherited', hown', hinh'⟩ := h' u
  have heq := congrArg (entriesOf u) (Option.some.inj (hown'.symm.trans (hsame.trans hown)))
  rwa [entriesOf_append hinh', entriesOf_append hinh] at heq

/-- Where all prefixes get a verdict of their own, the action was undisturbed. -/
theorem Kept.undisturbed (h : Kept acts) (hgood : PerThread (acts ++ [a])) :
    Undisturbed acts a := by
  cases a with
  | fork parent child => trivial
  | event t m =>
    obtain ⟨after, e⟩ := m
    cases e with
    | call x => trivial
    | signal => trivial
    | execve env =>
      intro stk htagged e he
      -- clearing the entry of another thread leaves that thread's part too short
      by_contra hne
      have htagged' : tagged (acts ++ [.event t (after, .execve env)]) = some [] := by
        rw [tagged_concat, htagged]
        rfl
      have heq := (h.separate stk htagged).entriesOf_eq (hgood.separate [] htagged')
        (alone_event_ne acts _ hne)
      have hmem : e ∈ entriesOf e.1 stk := by simpa [entriesOf] using he
      rw [← heq] at hmem
      simp [entriesOf] at hmem
    | ret x =>
      intro stk htagged
      cases hshared : admits (fun e x => returnsTo e.2 x) stk x with
      | true =>
        cases stk with
        | nil => simp at hshared
        | cons top rest =>
          obtain ⟨u, top⟩ := top
          rw [admits_cons] at hshared
          by_cases hut : u = t
          · exact .inl ⟨top, rest, by rw [hut]⟩
          · -- popping the entry leaves the part of `u` too short
            have htagged' : tagged (acts ++ [.event t (after, .ret x)]) = some rest := by
              rw [tagged_concat, htagged, Option.bind_some]
              exact if_pos hshared
            have heq := (h.separate _ htagged).entriesOf_eq (hgood.separate rest htagged')
              (alone_event_ne acts _ hut)
            rw [entriesOf_cons_self] at heq
            have hlen := congrArg List.length heq
            simp at hlen
      | false =>
        refine .inr ⟨rfl, fun ss hss => ?_⟩
        -- the server refuses the ret and the thread's own stack accepts it, so the verdicts differ
        by_contra hown
        rw [Bool.not_eq_false] at hown
        have htagged' : tagged (acts ++ [.event t (after, .ret x)]) = none := by
          rw [tagged_concat, htagged, Option.bind_some]
          exact step_pop_eq_none_iff.mpr hshared
        have hall : ∀ u, (alone stepMsg [] (acts ++ [.event t (after, .ret x)]) u).isSome := by
          intro u
          by_cases hut : u = t
          · have hstep : stepMsg t ss (after, .ret x) = some ss.tail := if_pos hown
            rw [hut, alone_event_self, hss, Option.bind_some, hstep, Option.isSome_some]
          · obtain ⟨inherited, hother, -⟩ := h.separate stk htagged u
            rw [alone_event_ne acts _ hut, isSome_alone_stepMsg, hother, Option.isSome_some]
        rw [← hgood.verdict, returned_iff_tagged, htagged'] at hall
        cases hall

end Verdict

/-- **The verdict is per thread exactly on undisturbed interleavings**: those in which no ret and no
`execve` of a thread meets an entry of another. -/
theorem perThread_iff_undisturbed {acts : List (Action ι (Msg ptrSize))}
    (hfresh : ForksFresh acts) :
    (∀ pre a post, acts = pre ++ a :: post → Undisturbed pre a) ↔
      ∀ pre, pre <+: acts → PerThread pre :=
  PartialRun.guarded_iff (fun _ _ h => h.of_concat) Kept.nil (fun _ _ h => h.perThread)
    (fun _ _ hfresh h hundisturbed => h.concat hfresh hundisturbed)
    (fun _ _ _ h hgood => h.undisturbed hgood) hfresh

/-- The message of a thread on x86-64, with zeros behind the literals. -/
def sends (t : ℕ) (e : Event 8) : Action ℕ (Msg 8) := .event t (fun _ => 0, e)

/-- A parent that waits for a child's call to return. -/
def childReturnsFirst : List (Action ℕ (Msg 8)) :=
  [sends 0 (.call 1)] ++ [.fork 0 1] ++ [sends 1 (.call 2)] ++ [sends 1 (.ret 2)] ++
    [sends 0 (.ret 1)]

theorem perThread_iff_undisturbed_child :
    (∀ pre a post, childReturnsFirst = pre ++ a :: post → Undisturbed pre a) ↔
      ∀ pre, pre <+: childReturnsFirst → PerThread pre := by
  have hcall : ForksFresh [sends 0 (.call 1)] := ForksFresh.nil.event 0 _
  have hfork : ForksFresh ([sends 0 (.call 1)] ++ [.fork 0 1]) :=
    hcall.fork (by decide) (by simp [Unseen, sends, Action.threads])
  exact perThread_iff_undisturbed (((hfork.event 1 _).event 1 _).event 0 _)

/-- Two threads with a call each: the ret of the first, which is correct, meets the entry of the
second. -/
def overlappingCalls : List (Action ℕ (Msg 8)) :=
  [sends 0 (.call 1), sends 1 (.call 2), sends 0 (.ret 1)]

/-- A thread without a caller returns to the return address of another thread's call. -/
def borrowedEntry : List (Action ℕ (Msg 8)) := [sends 0 (.call 1), sends 1 (.ret 1)]

/-- A correct thread is killed, and a corrupted ret is accepted. -/
theorem not_perThread :
    ((∀ t, (alone stepMsg [] overlappingCalls t).isSome) ∧
        ¬∃ l, startExternalShadowStack 8 (stream overlappingCalls) = .returned l) ∧
      alone stepMsg [] borrowedEntry 1 = none ∧
        ∃ l, startExternalShadowStack 8 (stream borrowedEntry) = .returned l := by
  refine ⟨⟨fun t => ?_, ?_⟩, by decide, ?_⟩
  · by_cases h0 : t = 0
    · subst h0
      decide
    · by_cases h1 : t = 1
      · subst h1
        decide
      · simp [overlappingCalls, sends, alone, aloneStep, h0, h1]
  · rw [returned_iff_tagged]
    decide
  · rw [returned_iff_tagged]
    decide

end DrShadowStack.SharedStack
