import DrShadowStack.Utilities

/-!
# The error path ends

Whatever fails, a call of one of the functions that report or terminate returns or gets to
`kill_9_group`, within a number of nested calls that does not depend on what fails. So the fuel that
bounds the nesting in the model is no bound of the program: with `nestingDepth` or more of it every
run is the same.

## Shape of the proof

The specs of the functions bound the nesting of one call (`ErrorCall.run_spec`), and what a call
keeps makes the next one possible (`runCalls_spec`). That more fuel does not change a run is proved
for all the functions at once, from one fuel to the next (`moreFuel`).
-/

namespace DrShadowStack.Utilities

open Prog

variable {env : Env} {fuel : ℕ} {s₀ s : State}

/-- The calls that the rest of the program makes. -/
inductive ErrorCall
  | log (args : Text)
  | logError (args : Text)
  | message (args : Text)
  | err (s : Option CString)
  | assert (b : Bool) (s : Option CString)
  | terminate (msg : Option CString) (isError : Bool)

/-- A call, made at the nesting that `fuel` leaves. -/
def ErrorCall.run (env : Env) (fuel : ℕ) : ErrorCall → Prog State Unit
  | .log args => Utilities.log env fuel args
  | .logError args => Utilities.logError env fuel args
  | .message args => Utilities.message env fuel args
  | .err s => Utilities.err env fuel s
  | .assert b s => Utilities.assert env fuel b s
  | .terminate msg isError => Utilities.terminate env fuel msg isError

/-- The call is one that must not return. -/
def ErrorCall.noReturn : ErrorCall → Bool
  | .err _ => true
  | .assert b _ => !b
  | .terminate _ _ => true
  | _ => false

/-- The calls of one process, one after the other. -/
def runCalls (env : Env) (fuel : ℕ) : List ErrorCall → Prog State Unit
  | [] => pure ()
  | c :: calls => do
    c.run env fuel
    runCalls env fuel calls

/-- The number of nested calls that suffices. -/
def nestingDepth : ℕ := 12

/-- From `s` the calls end: they all return, unless one of them must not, or the group is killed.
The one other end is an exception that a stream has thrown. -/
structure ErrorPathEnds (env : Env) (s : State) (calls : List ErrorCall) : Prop where
  ends : ∀ fuel, nestingDepth ≤ fuel →
    (∃ t, runCalls env fuel calls s = .ok () t ∧ ∀ c ∈ calls, c.noReturn = false) ∨
    (∃ t, runCalls env fuel calls s = .error .killed t) ∨
    ∃ e t, runCalls env fuel calls s = .error e t ∧ (e = .threw ∨ e = .aborted) ∧
      ∃ i, env.throws i = true
  /-- More nesting does not change the run. -/
  stable : ∀ fuel, nestingDepth ≤ fuel →
    runCalls env fuel calls s = runCalls env nestingDepth calls s
  /-- The part of `terminate` behind its guard is entered at most once, and not at all if it was
  entered before. -/
  once : ∀ fuel, ∃ new, (final (runCalls env fuel calls s)).trace = s.trace ++ new ∧
    new.count .terminating + s.terminateAlreadyCalled.toNat ≤ 1

/-! ## The nesting -/

/-- What a call takes and keeps. -/
theorem ErrorCall.run_spec (c : ErrorCall) :
    Triple (Inv env s₀ 6) (c.run env fuel) (fun _ t => c.noReturn = false ∧ Inv env s₀ 6 t)
      (Stopped env s₀ 6 (fuel < nestingDepth)) := by
  have h := spec env fuel
  -- each function takes at most `6` more than `terminate`
  have hshort : ∀ {c : ℕ}, c ≤ 6 → ∀ e t, Stopped env s₀ 6 (fuel < 6 + c) e t →
      Stopped env s₀ 6 (fuel < nestingDepth) e t := by
    intro c hc e t he
    refine he.mono le_rfl fun hlt => ?_
    rw [nestingDepth]
    omega
  cases c with
  | log args =>
    exact (h.writeLog s₀ 6 _ args (.inl rfl)).conseq (fun _ hs => hs) (fun _ _ hs => ⟨rfl, hs⟩)
      (hshort (by decide))
  | logError args =>
    exact (h.logError s₀ 6 args).conseq (fun _ hs => hs) (fun _ _ hs => ⟨rfl, hs⟩)
      (hshort (by decide))
  | message args =>
    exact (h.message s₀ 6 args).conseq (fun _ hs => hs) (fun _ _ hs => ⟨rfl, hs⟩)
      (hshort (by decide))
  | err s =>
    refine (h.err s₀ 6 s).conseq (fun _ hs => hs) (fun _ _ hs => hs.elim) (hshort ?_)
    cases s <;> simp [errDepth]
  | assert b s =>
    refine (h.assert s₀ 6 b s).conseq (fun _ hs => hs) (fun _ _ hs => ⟨?_, hs.2⟩) (hshort ?_)
    · rw [noReturn, hs.1]
      rfl
    · cases s <;> simp [errDepth]
  | terminate msg isError =>
    exact (h.terminate s₀ 6 msg isError).conseq (fun _ hs => hs) (fun _ _ hs => hs.elim)
      (hshort (c := 0) (by decide))

theorem runCalls_spec (calls : List ErrorCall) :
    Triple (Inv env s₀ 6) (runCalls env fuel calls)
      (fun _ t => (∀ c ∈ calls, c.noReturn = false) ∧ Inv env s₀ 6 t)
      (Stopped env s₀ 6 (fuel < nestingDepth)) := by
  induction calls with
  | nil => exact .ret fun _ hs => ⟨by simp, hs⟩
  | cons c calls ih =>
    rw [runCalls]
    refine .bind c.run_spec fun _ => ?_
    refine .of_fact (fun _ hs => hs.1) fun hc => ?_
    refine ih.conseq (fun _ hs => hs.2) (fun _ _ hs => ⟨?_, hs.2⟩) fun _ _ he => he
    exact List.forall_mem_cons.mpr ⟨hc, hs.1⟩

/-! ## More fuel -/

/-- With one more the functions run as before, unless they ran out of it. -/
structure MoreFuel (env : Env) (fuel : ℕ) : Prop where
  writeLog : ∀ fd args, Refines (writeLog env fuel fd args) (writeLog env (fuel + 1) fd args)
  logError : ∀ args, Refines (logError env fuel args) (logError env (fuel + 1) args)
  message : ∀ args, Refines (message env fuel args) (message env (fuel + 1) args)
  err : ∀ s, Refines (err env fuel s) (err env (fuel + 1) s)
  assert : ∀ b s, Refines (assert env fuel b s) (assert env (fuel + 1) b s)
  getTid : Refines (getTid env fuel) (getTid env (fuel + 1))
  terminate : ∀ msg isError,
    Refines (terminate env fuel msg isError) (terminate env (fuel + 1) msg isError)

theorem MoreFuel.zero (env : Env) : MoreFuel env 0 where
  writeLog _ _ := .outOfFuel
  logError _ := .outOfFuel
  message _ := .outOfFuel
  err _ := .outOfFuel
  assert _ _ := .outOfFuel
  getTid := .outOfFuel
  terminate _ _ := .outOfFuel

theorem MoreFuel.succ (h : MoreFuel env fuel) : MoreFuel env (fuel + 1) where
  writeLog fd args := by
    unfold Utilities.writeLog
    refine .whenever (.bind (.refl _) fun _ => .bind (.refl _) fun s => .bind ?_ fun stream => ?_)
    · exact .ite (.bind h.getTid fun _ => .refl _) (.refl _)
    · exact .bind (.refl _) fun _ => .bind (.refl _) fun ret => h.assert _ none
  logError args := by
    unfold Utilities.logError
    exact .bind (h.writeLog _ args) fun _ => h.writeLog _ args
  message args := by
    unfold Utilities.message
    exact .bind (h.writeLog _ args) fun _ => h.writeLog _ args
  err s := by
    unfold Utilities.err
    refine .onDestroy (h.terminate _ true) (.bind ?_ fun _ => h.terminate none true)
    exact .ifNonNull fun s => .bind (.refl _) fun reason => h.logError _
  assert b s := by
    unfold Utilities.assert
    exact .whenever (h.err s)
  getTid := by
    unfold Utilities.getTid
    refine .bind (.refl _) fun ret => .bind (.whenever ?_) fun _ => .refl _
    exact .bind (.refl _) fun _ => h.terminate _ true
  terminate msg isError := by
    unfold Utilities.terminate
    refine .bind (.refl _) fun s => .bind (.refl _) fun _ => .bind (.refl _) fun _ =>
      .bind (.refl _) fun _ => .onDestroy (h.terminate _ true) (.bind ?_ fun _ => .refl _)
    exact .ifNonNull fun msg => .ite (h.logError _) (h.message _)

theorem moreFuel (env : Env) (fuel : ℕ) : MoreFuel env fuel := by
  induction fuel with
  | zero => exact .zero env
  | succ fuel ih => exact ih.succ

theorem ErrorCall.run_succ (c : ErrorCall) : Refines (c.run env fuel) (c.run env (fuel + 1)) := by
  have h := moreFuel env fuel
  cases c with
  | log args => exact h.writeLog _ args
  | logError args => exact h.logError args
  | message args => exact h.message args
  | err s => exact h.err s
  | assert b s => exact h.assert b s
  | terminate msg isError => exact h.terminate msg isError

theorem runCalls_succ (calls : List ErrorCall) :
    Refines (runCalls env fuel calls) (runCalls env (fuel + 1) calls) := by
  induction calls with
  | nil => exact .refl _
  | cons c calls ih => exact .bind c.run_succ fun _ => ih

theorem runCalls_le (calls : List ErrorCall) {fuel' : ℕ} (h : fuel ≤ fuel') :
    Refines (runCalls env fuel calls) (runCalls env fuel' calls) := by
  induction h with
  | refl => exact .refl _
  | step _ ih => exact ih.trans (runCalls_succ calls)

/-! ## The end -/

theorem runCalls_ne_outOfFuel (calls : List ErrorCall) (h : nestingDepth ≤ fuel) (t : State) :
    runCalls env fuel calls s ≠ .error .outOfFuel t := by
  intro hrun
  have hshort : fuel < nestingDepth := ((runCalls_spec calls).stopped (.initial env s) hrun).2
  omega

/-- **The error path ends**, whatever keeps failing and in whatever state it starts. -/
theorem errorPathEnds (env : Env) (s : State) (calls : List ErrorCall) :
    ErrorPathEnds env s calls where
  ends fuel hfuel := by
    cases hrun : runCalls env fuel calls s with
    | ok _ t => exact .inl ⟨t, rfl, ((runCalls_spec calls).returned (.initial env s) hrun).1⟩
    | error e t =>
      have hallowed := ((runCalls_spec calls).stopped (.initial env s) hrun).2
      cases e with
      | killed => exact .inr (.inl ⟨t, rfl⟩)
      | threw => exact .inr (.inr ⟨_, t, rfl, .inl rfl, hallowed⟩)
      | aborted => exact .inr (.inr ⟨_, t, rfl, .inr rfl, hallowed⟩)
      | outOfFuel => exact (runCalls_ne_outOfFuel calls hfuel t hrun).elim
  stable fuel hfuel :=
    ((runCalls_le calls hfuel).eq_of_ne (runCalls_ne_outOfFuel calls le_rfl)).symm
  once fuel := by
    have hinv : Inv env s 6 (final (runCalls env fuel calls s)) :=
      ((runCalls_spec calls).conseq (fun _ hs => hs) (fun _ _ hs => hs.2)
        fun _ _ he => he.1).final_of (.initial env s)
    obtain ⟨new, htrace, -, hcount⟩ := hinv.1
    exact ⟨new, htrace, hcount ▸ Bool.toNat_le _⟩

end DrShadowStack.Utilities
