import DrShadowStack.Utilities

/-!
# What a process does besides reporting

Reports go to the log and to the error file between everything else that a process does. `Did`
leaves them out of what it has done. Reporting alone stops a process only if something is wrong with
the process itself: a stream throws, the thread id cannot be looked up, or a write is not complete
(`Impaired`).
-/

namespace DrShadowStack.Utilities

open Prog CString

instance (env : Env) (fd : ℤ) : Decidable (env.IsReportFd fd) :=
  inferInstanceAs (Decidable (fd = env.logFd ∨ fd = env.stdoutFd ∨ fd = env.errorFd))

instance (env : Env) : DecidablePred (Effect.IsReport env)
  | .write fd bytes _ => inferInstanceAs
      (Decidable (env.IsReportFd fd ∧ bytes.getLast? = some 10))
  | .recv _ _ _ => .isFalse id
  | .terminating => .isTrue trivial

/-- From `s` to `t` the process did `xs`, and it reported. -/
def Did (env : Env) (s t : State) (xs : List Effect) : Prop :=
  ∃ new, t.trace = s.trace ++ new ∧ new.filter (fun e => ¬e.IsReport env) = xs

/-- Something that reporting rests on failed. -/
def Impaired (env : Env) (s t : State) : Prop :=
  (∃ i, env.throws i = true) ∨ (∃ i, env.gettid i = -1) ∨
    ∃ new, t.trace = s.trace ++ new ∧ ∃ fd bytes ret, .write fd bytes ret ∈ new ∧ ret ≠ bytes.length

/-- All that was given to a `write` was taken. -/
def Effect.isComplete : Effect → Bool
  | .write _ bytes ret => ret == bytes.length
  | _ => true

/-- The fuel that suffices for every assertion. -/
def assertDepth : ℕ := 12

/-- The process stopped for want of fuel, or impaired. -/
def Halted (env : Env) (fuel : ℕ) (s : State) (e : Stop) (t : State) : Prop :=
  (e = .outOfFuel → fuel < assertDepth) ∧ (Impaired env s t ∨ e = .outOfFuel)

section Did

variable {env : Env} {s t u : State} {xs : List Effect} {e : Effect}

theorem Did.of_trace_eq (h : Did env s t xs) (hu : u.trace = t.trace) : Did env s u xs := by
  obtain ⟨new, htrace, hnew⟩ := h
  exact ⟨new, hu.trans htrace, hnew⟩

theorem Did.refl (env : Env) (s : State) : Did env s s [] := ⟨[], by simp, rfl⟩

theorem Did.reports (h : Did env s t xs) (hu : Reports env t u) : Did env s u xs := by
  obtain ⟨new, htrace, rfl⟩ := h
  obtain ⟨new', htrace', hnew', -⟩ := hu
  refine ⟨new ++ new', by rw [htrace', htrace, List.append_assoc], ?_⟩
  have hnone : new'.filter (fun e => ¬e.IsReport env) = [] :=
    List.filter_eq_nil_iff.mpr fun e he => by simpa using hnew' e he
  rw [List.filter_append, hnone, List.append_nil]

theorem Did.effect (h : Did env s t xs) (he : ¬e.IsReport env) (hu : u.trace = t.trace ++ [e]) :
    Did env s u (xs ++ [e]) := by
  obtain ⟨new, htrace, rfl⟩ := h
  refine ⟨new ++ [e], by rw [hu, htrace, List.append_assoc], ?_⟩
  rw [List.filter_append, List.filter_singleton, decide_eq_true he, cond_true]

/-- What the process did from `s` to `t` besides reporting. -/
def transfers (env : Env) (s t : State) : List Effect :=
  (t.trace.drop s.trace.length).filter fun e => ¬e.IsReport env

theorem Did.transfers_eq (h : Did env s t xs) : transfers env s t = xs := by
  obtain ⟨new, htrace, rfl⟩ := h
  rw [transfers, htrace, List.drop_left]

theorem not_isReport_recv (fd : ℤ) (size : ℕ) (got : Option (List UInt8)) :
    ¬(Effect.recv fd size got).IsReport env := id

theorem Impaired.extend (h : Impaired env s t) (hu : Did env t u xs) : Impaired env s u := by
  rcases h with h | h | ⟨new, htrace, fd, bytes, ret, hmem, hne⟩
  · exact .inl h
  · exact .inr (.inl h)
  · obtain ⟨new', htrace', -⟩ := hu
    exact .inr (.inr ⟨new ++ new', by rw [htrace', htrace, List.append_assoc], fd, bytes, ret,
      List.mem_append_left _ hmem, hne⟩)

theorem Impaired.mono (h : Impaired env s t) (hu : Reports env t u) : Impaired env s u :=
  h.extend ((Did.refl env t).reports hu)

/-- A write that was not complete. -/
theorem Did.impaired {fd ret : ℤ} {bytes : List UInt8} (h : Did env s t xs)
    (hu : u.trace = t.trace ++ [.write fd bytes ret]) (hne : ret ≠ bytes.length) :
    Impaired env s u := by
  obtain ⟨new, htrace, -⟩ := h
  exact .inr (.inr ⟨new ++ [.write fd bytes ret], by rw [hu, htrace, List.append_assoc], fd, bytes,
    ret, by simp, hne⟩)

/-- A process in which nothing can fail but a write, and none has. -/
theorem not_impaired (hthrows : ∀ i, env.throws i = false) (hgettid : ∀ i, env.gettid i ≠ -1)
    (hwrites : t.trace.all Effect.isComplete) : ¬Impaired env s t := by
  rintro (⟨i, hi⟩ | ⟨i, hi⟩ | ⟨new, htrace, fd, bytes, ret, hmem, hne⟩)
  · exact Bool.noConfusion (hi.symm.trans (hthrows i))
  · exact hgettid i hi
  · have hcomplete := List.all_eq_true.mp hwrites (.write fd bytes ret)
      (by rw [htrace]; exact List.mem_append_right _ hmem)
    exact hne (beq_iff_eq.mp hcomplete)

end Did

/-! ## Reporting -/

section Reporting

variable {env : Env} {fuel : ℕ} {s : State} {xs : List Effect} {R : Stop → State → Prop}

/-- A program that only reports, seen from an earlier state. -/
theorem did_of_spec {α : Type} {m : Prog State α} {Q : α → Prop} {depth : ℕ}
    (hdepth : depth ≤ assertDepth)
    (h : ∀ s₀, Triple (Inv env s₀ 6) m (fun a t => Q a ∧ Inv env s₀ 6 t)
      (Stopped env s₀ 6 (fuel < depth))) :
    Triple (Did env s · xs) m (fun a t => Q a ∧ Did env s t xs) fun e t =>
      Did env s t xs ∧ (e = .outOfFuel → fuel < assertDepth) := by
  intro u hu
  cases hrun : m u with
  | ok a t =>
    obtain ⟨hQ, ht⟩ := (h u).returned (.initial env u) hrun
    exact ⟨hQ, hu.reports ht.1⟩
  | error e t =>
    obtain ⟨ht, hallowed⟩ := (h u).stopped (.initial env u) hrun
    refine ⟨hu.reports ht.1, ?_⟩
    rintro rfl
    exact Nat.lt_of_lt_of_le hallowed hdepth

/-- `terminate` stops, whatever there is to show of a stop. -/
theorem terminate_stops {P : State → Prop} {Q : Unit → State → Prop} (hR : ∀ e t, R e t)
    (msg : Option CString) (isError : Bool) : Triple P (terminate env fuel msg isError) Q R := by
  intro u _
  cases hrun : terminate env fuel msg isError u with
  | ok _ t =>
    exact (((spec env fuel).terminate u 6 msg isError).returned (.initial env u) hrun).elim
  | error e t => exact hR e t

/-- The states that a process reaches from `s`. -/
def Reached (s u : State) : Prop := ∃ new, u.trace = s.trace ++ new

theorem getTid_impaired :
    Triple (Reached s) (getTid env fuel) (fun _ => Reached s)
      fun e t => Impaired env s t ∨ e = .outOfFuel := by
  cases fuel with
  | zero => exact .stop fun _ _ => .inr rfl
  | succ fuel =>
    rw [getTid]
    refine .bind (Q := fun ret u => (∃ i, env.gettid i = ret) ∧ Reached s u)
      (fun u hu => ⟨⟨u.clock, rfl⟩, hu⟩) fun ret => ?_
    refine .bind (Q := fun _ => Reached s) ?_ fun _ => .ret fun _ hu => hu
    refine .whenever (fun hret => ?_) fun _ _ hu => hu.2
    refine .of_fact (A := ∃ i, env.gettid i = -1) (fun u hu => hret ▸ hu.1) fun hgettid => ?_
    exact .bind (Q := fun _ _ => True) (.update fun _ _ => trivial) fun _ =>
      terminate_stops (fun _ _ => .inl (.inr (.inl hgettid))) _ _

theorem useStream_impaired :
    Triple (Reached s) (useStream env) (fun _ => Reached s)
      fun e t => Impaired env s t ∨ e = .outOfFuel := by
  refine .bind (Q := fun throws u => (∃ i, env.throws i = throws) ∧ Reached s u)
    (fun u hu => ⟨⟨u.clock, rfl⟩, hu⟩) fun throws => ?_
  refine .whenever (fun hc => .stop fun u hu => .inl (.inl ?_)) fun _ _ hu => hu.2
  rw [← hc]
  exact hu.1

/-- An assertion stops where it fails, with reports, or for want of fuel. -/
theorem assert_stops {P : State → Prop} {b : Bool} {msg : Option CString} :
    Triple P (assert env fuel b msg) (fun _ t => b = true ∧ P t) fun e t =>
      ∃ u, P u ∧ Reports env u t ∧ (e = .outOfFuel → fuel < assertDepth) ∧
        (b = false ∨ e = .outOfFuel) := by
  intro u hu
  have hok := @assert_spec env fuel P b msg u hu
  cases hrun : assert env fuel b msg u with
  | ok _ t =>
    rw [hrun] at hok
    exact hok
  | error e t =>
    obtain ⟨ht, hallowed⟩ := ((spec env fuel).assert u 6 b msg).stopped (.initial env u) hrun
    refine ⟨u, hu, ht.1, ?_, ?_⟩
    · rintro rfl
      have hshort : fuel < 6 + (errDepth msg + 1) := hallowed
      have hdepth : errDepth msg ≤ 5 := by cases msg <;> simp [errDepth]
      rw [assertDepth]
      omega
    · cases fuel with
      | zero => exact .inr (EStateM.Result.error.inj hrun).1.symm
      | succ fuel =>
        cases b with
        | false => exact .inl rfl
        | true =>
          rw [assert_true] at hrun
          cases hrun

/-- Writing a line stops only for want of fuel, or impaired. -/
theorem writeLog_impaired {fd : ℤ} (args : Text) :
    Triple (Reached s) (writeLog env fuel fd args) (fun _ _ => True)
      fun e t => Impaired env s t ∨ e = .outOfFuel := by
  cases fuel with
  | zero => exact .stop fun _ _ => .inr rfl
  | succ fuel =>
    rw [writeLog]
    refine .whenever (fun _ => ?_) fun _ _ _ => trivial
    refine .bind useStream_impaired fun _ => ?_
    refine .bind .read fun u => ?_
    refine .bind (Q := fun _ => Reached s) ?_ fun stream => ?_
    · split
      · exact .bind (getTid_impaired.conseq (fun _ hu => hu.2) (fun _ _ hu => hu) fun _ _ hR => hR)
          fun _ => .ret fun _ hu => hu
      · exact .ret fun _ hu => hu.2
    refine .bind useStream_impaired fun _ => .bind (write_records _ _) fun ret => ?_
    refine assert_stops.conseq (fun _ hv => hv) (fun _ _ _ => trivial) ?_
    rintro e t ⟨v, ⟨u', ⟨new, hnew⟩, hv⟩, ht, -, hfails | hfuel⟩
    · -- the write was not complete
      have himpaired : Impaired env s v := .inr (.inr ⟨_, by rw [hv, hnew, List.append_assoc], fd,
        _, ret, List.mem_append_right new (List.mem_singleton_self _), by simpa using hfails⟩)
      exact .inl (himpaired.mono ht)
    · exact .inr hfuel

/-- Writing a line leaves what was done besides reporting. -/
theorem writeLog_did {fd : ℤ} (hfd : env.IsReportFd fd) (args : Text) :
    Triple (Did env s · xs) (writeLog env fuel fd args) (fun _ t => Did env s t xs) fun e t =>
      Did env s t xs ∧ Halted env fuel s e t := by
  have hdid : Triple (Did env s · xs) (writeLog env fuel fd args)
      (fun _ t => True ∧ Did env s t xs) _ :=
    did_of_spec (show 6 + 3 ≤ assertDepth by decide) fun s₀ =>
      ((spec env fuel).writeLog s₀ 6 fd args hfd).conseq (fun _ hs => hs)
        (fun _ _ hs => ⟨trivial, hs⟩) fun _ _ he => he
  have himpaired : Triple (Did env s · xs) (writeLog env fuel fd args) (fun _ _ => True)
      fun e t => Impaired env s t ∨ e = .outOfFuel :=
    (writeLog_impaired args).conseq (fun u ⟨new, hnew, _⟩ => ⟨new, hnew⟩) (fun _ _ hs => hs)
      fun _ _ hR => hR
  exact (hdid.and himpaired).conseq (fun _ hs => hs) (fun _ _ hs => hs.1.2)
    fun _ _ hR => ⟨hR.1.1, hR.1.2, hR.2⟩

/-- Reporting an error leaves it, too. -/
theorem logError_did (args : Text) :
    Triple (Did env s · xs) (logError env fuel args) (fun _ t => Did env s t xs) fun e t =>
      Did env s t xs ∧ Halted env fuel s e t := by
  have hdid : Triple (Did env s · xs) (logError env fuel args)
      (fun _ t => True ∧ Did env s t xs) _ :=
    did_of_spec (show 6 + 4 ≤ assertDepth by decide) fun s₀ =>
      ((spec env fuel).logError s₀ 6 args).conseq (fun _ hs => hs)
        (fun _ _ hs => ⟨trivial, hs⟩) fun _ _ he => he
  have himpaired : Triple (Did env s · xs) (logError env fuel args) (fun _ _ => True)
      fun e t => Impaired env s t ∨ e = .outOfFuel := by
    cases fuel with
    | zero => exact .stop fun _ _ => .inr rfl
    | succ fuel =>
      rw [logError]
      have hline : ∀ fd, env.IsReportFd fd → Triple (Did env s · xs) (writeLog env fuel fd args)
          (fun _ t => Did env s t xs) fun e t => Impaired env s t ∨ e = .outOfFuel := fun _ hfd =>
        (writeLog_did hfd args).mono fun _ _ hR => hR.2.2
      exact .bind (hline _ (.inl rfl)) fun _ => (hline _ (.inr (.inr rfl))).conseq (fun _ hs => hs)
        (fun _ _ _ => trivial) fun _ _ hR => hR
  exact (hdid.and himpaired).conseq (fun _ hs => hs) (fun _ _ hs => hs.1.2)
    fun _ _ hR => ⟨hR.1.1, hR.1.2, hR.2⟩

/-- `terminate` reports at most. -/
theorem terminate_did (msg : Option CString) (isError : Bool) {Q : Unit → State → Prop} :
    Triple (Did env s · xs) (terminate env fuel msg isError) Q fun e t =>
      Did env s t xs ∧ (e = .outOfFuel → fuel < assertDepth) := by
  refine (did_of_spec (show 6 + 4 ≤ assertDepth by decide) fun s₀ =>
    (terminate_spec msg isError).conseq (fun _ hs => hs)
      (fun _ _ (hs : False) => ⟨hs, hs.elim⟩) fun _ _ he => he).conseq (fun _ hs => hs) ?_
        fun _ _ he => he
  exact fun _ _ hs => hs.1.elim

theorem log_did (args : Text) :
    Triple (Did env s · xs) (log env fuel args) (fun _ t => Did env s t xs) fun e t =>
      Did env s t xs ∧ Halted env fuel s e t :=
  writeLog_did (.inl rfl) args

theorem verboseLog_did (args : Text) :
    Triple (Did env s · xs) (verboseLog env fuel args) (fun _ t => Did env s t xs) fun e t =>
      Did env s t xs ∧ Halted env fuel s e t :=
  .whenever (fun _ => log_did args) fun _ _ hs => hs

/-- The destructor of a `TerminateOnDestruction` does not return, and reports at most. -/
theorem destructor_spec {P : State → Prop} {msg : Option CString}
    (hR : ∀ u e t, P u → Reports env u t → (e = .outOfFuel → fuel < assertDepth) → R e t) :
    Triple P (terminate env fuel msg true) (fun _ _ => False) fun e t => R e.leaveDestructor t := by
  intro u hu
  have hterminate := (spec env fuel).terminate u 6 msg true
  cases hrun : terminate env fuel msg true u with
  | ok _ t => exact hterminate.returned (.initial env u) hrun
  | error e t =>
    obtain ⟨ht, hallowed⟩ := hterminate.stopped (.initial env u) hrun
    refine hR u _ t hu ht.1 fun he => ?_
    obtain rfl : e = .outOfFuel := by cases e <;> first | rfl | cases he
    exact Nat.lt_of_lt_of_le hallowed (by decide)

end Reporting

/-! ## Programs that only report -/

/-- Besides reporting the program computes `r`: it returns only the value of `r`, and where it stops
`r` has none, or the process was impaired, or the fuel was short. -/
def Computes {α : Type} (env : Env) (fuel : ℕ) (m : Prog State α) (r : Option α) : Prop :=
  ∀ s xs, Triple (Did env s · xs) m (fun a t => r = some a ∧ Did env s t xs) fun e t =>
    Did env s t xs ∧ (e = .outOfFuel → fuel < assertDepth) ∧
      (Impaired env s t ∨ e = .outOfFuel ∨ r = none)

namespace Computes

variable {α β : Type} {env : Env} {fuel : ℕ} {m : Prog State α} {r : Option α}

theorem ret (a : α) : Computes env fuel (pure a) (some a) := fun _ _ => .ret fun _ ht => ⟨rfl, ht⟩

theorem bind {f : α → Prog State β} {g : α → Option β} (hm : Computes env fuel m r)
    (hf : ∀ a, r = some a → Computes env fuel (f a) (g a)) :
    Computes env fuel (m >>= f) (r.bind g) := by
  intro s xs
  refine .bind ((hm s xs).mono ?_) fun a => .of_fact (fun _ ht => ht.1) fun ha => ?_
  · rintro e t ⟨ht, hshort, hcause⟩
    exact ⟨ht, hshort, hcause.imp_right (Or.imp_right fun hr => by rw [hr, Option.bind_none])⟩
  · rw [ha, Option.bind_some]
    exact (hf a ha s xs).conseq (fun _ ht => ht.2) (fun _ _ ht => ht) fun _ _ hR => hR

/-- A program in front of another, for its effect alone. -/
theorem seq {m : Prog State Unit} {n : Prog State β} {r : Option β}
    (hm : Computes env fuel m (some ())) (hn : Computes env fuel n r) :
    Computes env fuel (m >>= fun _ => n) r :=
  hm.bind fun _ _ => hn

theorem of_halted {m : Prog State Unit}
    (h : ∀ s xs, Triple (Did env s · xs) m (fun _ t => Did env s t xs) fun e t =>
      Did env s t xs ∧ Halted env fuel s e t) : Computes env fuel m (some ()) := fun s xs =>
  (h s xs).conseq (fun _ ht => ht) (fun _ _ ht => ⟨rfl, ht⟩)
    fun _ _ hR => ⟨hR.1, hR.2.1, hR.2.2.imp_right .inl⟩

theorem log (args : Text) : Computes env fuel (log env fuel args) (some ()) :=
  of_halted fun _ _ => log_did args

theorem verboseLog (args : Text) : Computes env fuel (verboseLog env fuel args) (some ()) :=
  of_halted fun _ _ => verboseLog_did args

theorem logError (args : Text) : Computes env fuel (logError env fuel args) (some ()) :=
  of_halted fun _ _ => logError_did args

/-- An assertion has a value where it holds. -/
theorem assert (b : Bool) (msg : Option CString) :
    Computes env fuel (assert env fuel b msg) (if b then some () else none) := by
  intro s xs
  refine assert_stops.conseq (fun _ ht => ht) (fun _ _ ht => ?_) ?_
  · rw [if_pos ht.1]
    exact ⟨rfl, ht.2⟩
  · rintro e t ⟨u, hu, ht, hshort, hcause⟩
    refine ⟨hu.reports ht, hshort, hcause.elim (fun hb => .inr (.inr ?_)) fun he => .inr (.inl he)⟩
    rw [hb]
    rfl

/-- A program that does not return, and reports at most. -/
theorem of_spec {depth : ℕ} (hdepth : depth ≤ assertDepth)
    (h : ∀ s₀, Triple (Inv env s₀ 6) m (fun _ _ => False) (Stopped env s₀ 6 (fuel < depth))) :
    Computes env fuel m none := by
  intro s xs
  have hdid : Triple (Did env s · xs) m (fun _ t => False ∧ Did env s t xs) _ :=
    did_of_spec hdepth fun s₀ => (h s₀).conseq (fun _ hs => hs) (fun _ _ hs => hs.elim)
      fun _ _ he => he
  exact hdid.conseq (fun _ ht => ht) (fun _ _ ht => ht.1.elim)
    fun _ _ hR => ⟨hR.1, hR.2, .inr (.inr rfl)⟩

theorem terminate (msg : Option CString) (isError : Bool) :
    Computes env fuel (terminate env fuel msg isError) none :=
  of_spec (show 6 + 4 ≤ assertDepth by decide) fun _ => terminate_spec msg isError

/-- An assertion guards what follows it. -/
theorem guard {b : Bool} {msg : Option CString} (h : b = true → Computes env fuel m r) :
    Computes env fuel (do Utilities.assert env fuel b msg; m) (if b then r else none) := by
  have hassert : Computes env fuel (Utilities.assert env fuel b msg) _ := .assert b msg
  cases b with
  | false => exact hassert.bind (g := fun _ => r) fun _ hb => by cases hb
  | true => exact hassert.bind (g := fun _ => r) fun _ _ => h rfl

theorem guard_false {b : Bool} {msg : Option CString} (hb : b = false) :
    Computes env fuel (do Utilities.assert env fuel b msg; m) none := by
  have hguard : Computes env fuel (do Utilities.assert env fuel b msg; m)
      (if b then none else none) := guard fun h => by simp [hb] at h
  rwa [ite_self] at hguard

theorem err (msg : Option CString) : Computes env fuel (err env fuel msg) none := by
  have hdepth : 6 + errDepth msg ≤ assertDepth := by cases msg <;> simp [errDepth, assertDepth]
  exact of_spec hdepth fun s₀ => (spec env fuel).err s₀ 6 msg

/-- What comes behind a program that does not return is not reached. -/
theorem unreached {m : Prog State β} {k : β → Prog State α} (hm : Computes env fuel m none) :
    Computes env fuel (m >>= k) none :=
  hm.bind (g := fun _ => none) fun _ hnone => by cases hnone

/-- What follows does not depend on an outcome. -/
theorem outcome {outcomes : ℕ → β} {k : β → Prog State α}
    (h : ∀ b, Computes env fuel (k b) r) : Computes env fuel (nextOutcome outcomes >>= k) r :=
  fun s xs => .bind (Q := fun _ t => Did env s t xs) (fun _ hu => hu.of_trace_eq rfl)
    fun b => h b s xs

/-- A stream that throws impairs the process. -/
theorem useStream : Computes env fuel (useStream env) (some ()) := by
  intro s xs
  refine .bind (Q := fun throws t => (∃ i, env.throws i = throws) ∧ Did env s t xs)
    (fun u hu => ⟨⟨u.clock, rfl⟩, hu.of_trace_eq rfl⟩) fun throws => ?_
  refine .whenever (fun hc => .stop fun t ht => ⟨ht.2, ?_, .inl (.inl (hc ▸ ht.1))⟩)
    fun _ t ht => ⟨rfl, ht.2⟩
  split <;> exact Stop.noConfusion

/-- A loop computes what its body computes. -/
theorem foldlM {γ : Type} {f : α → γ → Prog State α} {g : α → γ → Option α}
    (h : ∀ a c, Computes env fuel (f a c) (g a c)) (cs : List γ) (a : α) :
    Computes env fuel (cs.foldlM f a) (cs.foldlM g a) := by
  induction cs generalizing a with
  | nil => exact .ret a
  | cons c cs ih =>
    rw [List.foldlM_cons, List.foldlM_cons]
    exact (h a c).bind fun b _ => ih b

/-- An exception or the death of the process. -/
theorem stop {e : Stop} (he : e ≠ .outOfFuel) :
    Computes env fuel (throw e : Prog State α) none := fun _ _ =>
  .stop fun _ ht => ⟨ht, fun h => (he h).elim, .inr (.inr rfl)⟩

/-- An update of the process's own data. -/
theorem update {f : State → State} (hf : ∀ s, (f s).trace = s.trace) :
    Computes env fuel (modify f) (some ()) := fun _ _ =>
  .update fun u hu => ⟨rfl, hu.of_trace_eq (hf u)⟩

/-- The scope of a `TerminateOnDestruction` that is disabled at its end. -/
theorem onUnwind (h : Computes env fuel m r) (msg : Option CString) :
    Computes env fuel (Prog.onUnwind (Utilities.terminate env fuel msg true) m) r := by
  intro s xs
  refine (Triple.onUnwind (h s xs) (destructor_spec (R := fun e t => Did env s t xs ∧
    (e = .outOfFuel → fuel < assertDepth) ∧ (Impaired env s t ∨ e = .outOfFuel ∨ r = none))
    ?_)).mono fun _ _ hR => hR.2
  rintro u e t ⟨hu, -, hcause⟩ ht hshort
  refine ⟨hu.reports ht, hshort, ?_⟩
  rcases hcause with himpaired | hthrew | hr
  · exact .inl (himpaired.mono ht)
  · cases hthrew
  · exact .inr (.inr hr)

/-- A handler that does not return; in front of it every exception unwinds the stack. -/
theorem catching {handler : Prog State α} (hm : Computes { env with unwinds := true } fuel m r)
    (hh : Computes env fuel handler none) : Computes env fuel (Prog.catching handler m) r := by
  intro s xs
  refine Triple.catching (hm s xs) ?_
  rintro u ⟨hu, -, hcause⟩
  have hfrom := hh u [] u (.refl env u)
  have hdid := hh s xs u hu
  cases hrun : handler u with
  | ok a t =>
    rw [hrun] at hfrom
    cases hfrom.1
  | error e t =>
    rw [hrun] at hfrom hdid
    refine ⟨hdid.1, hdid.2.1, ?_⟩
    rcases hcause with himpaired | hthrew | hr
    · exact .inl (himpaired.extend hfrom.1)
    · cases hthrew
    · exact .inr (.inr hr)

end Computes

/-! ## Setting up -/

/-- Sets up the utility class. Of the old log that is to be cleared it is left open whether it is
gone afterwards, and of the new one whether it could be opened. -/
def setup (env : Env) (fuel : ℕ) (clearLog unlinks opens : Bool) : Prog State Unit := do
  -- the log has no descriptor yet, so `log_error` writes to the error file alone
  whenever (clearLog && !unlinks) do
    writeLog env fuel env.errorFd (bytesOf "unlink() failed.")
    -- `exit`
    throw .killed
  whenever (opens = false) do
    writeLog env fuel env.errorFd (bytesOf "open() failed.")
    throw .killed

/-- Once this is called, TIDs will be printed with each message. -/
def enableMultiThreadOrProcessMode (env : Env) (fuel : ℕ) : Prog State Unit := do
  modify fun s => { s with isMultiThreadOrProccess := true }
  log env fuel (bytesOf "Multi-process/threading logging enabled")

section Setup

variable {env : Env} {fuel : ℕ} {clearLog unlinks opens : Bool}

/-- A failure of `setup` is reported in the error file and ends the process. -/
theorem computes_exit (args : Text) :
    Computes env fuel (do writeLog env fuel env.errorFd args; throw .killed : Prog State Unit)
      none :=
  .seq (.of_halted fun _ _ => writeLog_did (.inr (.inr rfl)) args) (.stop Stop.noConfusion)

theorem setup_computes :
    Computes env fuel (setup env fuel clearLog unlinks opens)
      (if (!clearLog || unlinks) && opens then some () else none) := by
  have hopen : Computes env fuel (whenever (opens = false) do
      writeLog env fuel env.errorFd (bytesOf "open() failed.")
      throw .killed) (if opens then some () else none) := by
    cases opens with
    | true => exact .ret ()
    | false => exact computes_exit _
  rw [setup]
  cases hclear : clearLog && !unlinks with
  | true =>
    have hnone : ((!clearLog || unlinks) && opens) = false := by
      cases clearLog <;> cases unlinks <;> simp_all
    rw [hnone]
    exact .unreached (computes_exit _)
  | false =>
    have hsome : ((!clearLog || unlinks) && opens) = opens := by
      cases clearLog <;> cases unlinks <;> simp_all
    rw [hsome]
    exact .seq (.ret ()) hopen

theorem enableMultiThreadOrProcessMode_computes :
    Computes env fuel (enableMultiThreadOrProcessMode env fuel) (some ()) :=
  .seq (.update fun _ => rfl) (.log _)

end Setup

end DrShadowStack.Utilities
