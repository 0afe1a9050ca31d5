import Mathlib.Data.List.Infix
import Mathlib.Data.Option.Basic

/-!
# Runs of a partial step function

A machine is a step function `σ → ε → Option σ`, where `none` means that the event is refused.
`run` folds it over a list of events and stops at the first refusal. The rules below are the ones a
verification needs: a run splits at every point (`run_append`), a refused run has a first refused
event (`run_eq_none_iff`), an invariant of one step is an invariant of the run (`run_invariant`),
events that lower a variant run out (`exists_exhausted`), equal steps give equal runs
(`run_eq_run_map`), and a guard on the events that is exact for an invariant is exact for the
histories (`guarded_iff`).
-/

namespace PartialRun

variable {σ ε δ : Type*}

/-- Run `step` over a list of events from `s`; `none` once an event was refused. -/
def run (step : σ → ε → Option σ) (s : σ) (es : List ε) : Option σ :=
  es.foldlM step s

section Splitting

variable {step : σ → ε → Option σ}

@[simp] theorem run_nil (s : σ) : run step s [] = some s := rfl

@[simp] theorem run_cons (s : σ) (e : ε) (es : List ε) :
    run step s (e :: es) = (step s e).bind fun t => run step t es := rfl

theorem run_append (s : σ) (es fs : List ε) :
    run step s (es ++ fs) = (run step s es).bind fun t => run step t fs := by
  simp only [run, List.foldlM_append]
  rfl

/-- The last event of a run steps from the state that the events before it lead to. -/
theorem run_concat (s : σ) (es : List ε) (e : ε) :
    run step s (es ++ [e]) = (run step s es).bind fun t => step t e := by
  rw [run_append]
  congr 1
  funext t
  simp

theorem run_append_eq_some {s u : σ} {es fs : List ε} :
    run step s (es ++ fs) = some u ↔ ∃ t, run step s es = some t ∧ run step t fs = some u := by
  rw [run_append, Option.bind_eq_some_iff]

/-- Every prefix of an accepted run is accepted. -/
theorem run_isSome_of_prefix {s : σ} {es fs : List ε} (h : es <+: fs)
    (hfs : (run step s fs).isSome) : (run step s es).isSome := by
  obtain ⟨gs, rfl⟩ := h
  obtain ⟨u, hu⟩ := Option.isSome_iff_exists.mp hfs
  obtain ⟨t, ht, -⟩ := run_append_eq_some.mp hu
  simp [ht]

/-- A run is refused exactly when some event of it is the first refused one. -/
theorem run_eq_none_iff {s : σ} {es : List ε} :
    run step s es = none ↔
      ∃ pre e post t, es = pre ++ e :: post ∧ run step s pre = some t ∧ step t e = none := by
  constructor
  · intro h
    -- from the back: the last event is refused, or the first refusal stands before it
    induction es using List.reverseRecOn with
    | nil => simp at h
    | append_singleton es e ih =>
      rw [run_concat] at h
      cases hes : run step s es with
      | none =>
        obtain ⟨pre, f, post, t, rfl, hpre, hf⟩ := ih hes
        exact ⟨pre, f, post ++ [e], t, by simp, hpre, hf⟩
      | some t =>
        rw [hes, Option.bind_some] at h
        exact ⟨es, e, [], t, rfl, hes, h⟩
  · rintro ⟨pre, e, post, t, rfl, hpre, he⟩
    simp [run_append, hpre, he]

/-- A run of events that stand for several others is the run of these. -/
theorem run_flatMap (s : σ) (ds : List δ) (f : δ → List ε) :
    run step s (ds.flatMap f) = run (fun s d => run step s (f d)) s ds := by
  induction ds generalizing s with
  | nil => rfl
  | cons d ds ih =>
    rw [List.flatMap_cons, run_append, run_cons]
    congr 1
    funext t
    exact ih t

end Splitting

/-- An invariant kept by every accepted step holds at the end of every accepted run. -/
theorem run_invariant {step : σ → ε → Option σ} (Inv : σ → Prop)
    (hstep : ∀ s e t, Inv s → step s e = some t → Inv t) {s t : σ} {es : List ε}
    (hs : Inv s) (h : run step s es = some t) : Inv t := by
  induction es generalizing s with
  | nil =>
    obtain rfl : s = t := by simpa using h
    exact hs
  | cons e es ih =>
    rw [run_cons, Option.bind_eq_some_iff] at h
    obtain ⟨u, hu, hrest⟩ := h
    exact ih (hstep s e u hs hu) hrest

/-- An invariant of the state and of the history that led to it. -/
theorem run_history {step : σ → ε → Option σ} {s : σ} (Inv : List ε → σ → Prop) (hnil : Inv [] s)
    (hstep : ∀ es e t u, Inv es t → step t e = some u → Inv (es ++ [e]) u) {es : List ε} {t : σ}
    (h : run step s es = some t) : Inv es t := by
  induction es using List.reverseRecOn generalizing t with
  | nil =>
    obtain rfl : s = t := by simpa using h
    exact hnil
  | append_singleton es e ih =>
    obtain ⟨u, hu, hlast⟩ := Option.bind_eq_some_iff.mp ((run_concat s es e).symm.trans h)
    exact hstep es e u t (ih hu) hlast

section Variants

variable {step : σ → ε → Option σ} {variant : σ → ℕ} {s t : σ}

/-- A variant that the allowed events lower bounds the length of their runs. -/
theorem run_length_le_of_allowed {allowed : ε → Prop}
    (hstep : ∀ s e t, allowed e → step s e = some t → variant t < variant s) {es : List ε}
    (hes : ∀ e ∈ es, allowed e) (h : run step s es = some t) :
    es.length + variant t ≤ variant s := by
  induction es generalizing s with
  | nil =>
    obtain rfl : s = t := by simpa using h
    simp
  | cons e es ih =>
    rw [run_cons, Option.bind_eq_some_iff] at h
    obtain ⟨u, hu, hrest⟩ := h
    have hvar := hstep s e u (hes e List.mem_cons_self) hu
    have hlen := ih (fun f hf => hes f (List.mem_cons_of_mem e hf)) hrest
    simp only [List.length_cons]
    omega

/-- A variant that every accepted step lowers bounds the length of every accepted run. -/
theorem run_length_le (variant : σ → ℕ)
    (hstep : ∀ s e t, step s e = some t → variant t < variant s) {es : List ε}
    (h : run step s es = some t) : es.length + variant t ≤ variant s :=
  run_length_le_of_allowed (fun s e t (_ : True) => hstep s e t) (fun _ _ => trivial) h

/-- Such events run out: some run of them ends where each of them is refused. -/
theorem exists_exhausted {allowed : ε → Prop}
    (hstep : ∀ s e t, allowed e → step s e = some t → variant t < variant s) (s : σ) :
    ∃ es t, (∀ e ∈ es, allowed e) ∧ run step s es = some t ∧ ∀ e, allowed e → step t e = none := by
  induction hn : variant s using Nat.strong_induction_on generalizing s with
  | _ n ih =>
    by_cases hdone : ∀ e, allowed e → step s e = none
    · exact ⟨[], s, by simp, rfl, hdone⟩
    · push Not at hdone
      obtain ⟨e, he, hsome⟩ := hdone
      obtain ⟨t, ht⟩ := Option.ne_none_iff_exists'.mp hsome
      obtain ⟨es, u, hes, hu, hend⟩ := ih (variant t) (hn ▸ hstep s e t he ht) t rfl
      refine ⟨e :: es, u, List.forall_mem_cons.mpr ⟨he, hes⟩, ?_, hend⟩
      rw [run_cons, ht, Option.bind_some, hu]

end Variants

/-- Equal steps give equal runs. -/
theorem run_eq_run_map {step : σ → ε → Option σ} {step' : σ → δ → Option σ} (f : ε → δ)
    (hstep : ∀ s e, step s e = step' s (f e)) (s : σ) (es : List ε) :
    run step s es = run step' s (es.map f) := by
  induction es generalizing s with
  | nil => rfl
  | cons e es ih =>
    rw [List.map_cons, run_cons, run_cons, hstep]
    congr 1
    funext t
    exact ih t

/-! ## Guarded histories -/

/-- Where an event stands in a history with a last event: it is the last one or stands before it. -/
theorem concat_eq_append_cons {es pre post : List ε} {e f : ε}
    (h : es ++ [e] = pre ++ f :: post) :
    (es = pre ∧ e = f ∧ post = []) ∨ ∃ post', es = pre ++ f :: post' := by
  rcases List.eq_nil_or_concat post with rfl | ⟨post', g, rfl⟩
  · obtain ⟨rfl, hlast⟩ := List.append_inj' h rfl
    exact .inl ⟨rfl, by simpa using hlast, rfl⟩
  · rw [List.concat_eq_append, ← List.cons_append, ← List.append_assoc] at h
    obtain ⟨rfl, -⟩ := List.append_inj' h rfl
    exact .inr ⟨post', rfl⟩

/-- **Guarded histories.** Suppose that a guard `C` on the next event is what it takes to keep an
invariant `P` of histories, and that a guard which fails shows in a history that is not good. Then
the guard holds all along a history exactly if every prefix of the history is good. -/
theorem guarded_iff {A P Good : List ε → Prop} {C : List ε → ε → Prop}
    (hA : ∀ es e, A (es ++ [e]) → A es) (hnil : P []) (hgood : ∀ es, A es → P es → Good es)
    (hkeep : ∀ es e, A (es ++ [e]) → P es → C es e → P (es ++ [e]))
    (hexact : ∀ es e, A (es ++ [e]) → P es → Good (es ++ [e]) → C es e) {es : List ε} (hes : A es) :
    (∀ pre e post, es = pre ++ e :: post → C pre e) ↔ ∀ pre, pre <+: es → Good pre := by
  -- both directions carry `P` to the end of the history, so one induction proves them together
  suffices hinv : ((∀ pre e post, es = pre ++ e :: post → C pre e) → P es ∧ ∀ pre, pre <+: es →
      Good pre) ∧ ((∀ pre, pre <+: es → Good pre) →
      P es ∧ ∀ pre e post, es = pre ++ e :: post → C pre e) from
    ⟨fun h => (hinv.1 h).2, fun h => (hinv.2 h).2⟩
  induction es using List.reverseRecOn with
  | nil =>
    refine ⟨fun _ => ⟨hnil, fun pre hpre => ?_⟩, fun _ => ⟨hnil, fun pre e post hsplit => ?_⟩⟩
    · rw [List.prefix_nil.mp hpre]
      exact hgood [] hes hnil
    · simp at hsplit
  | append_singleton es e ih =>
    obtain ⟨hguard, hprefix⟩ := ih (hA es e hes)
    constructor
    · intro hC
      obtain ⟨hP, hgoods⟩ := hguard fun pre f post hsplit =>
        hC pre f (post ++ [e]) (by simp [hsplit])
      have hP' := hkeep es e hes hP (hC es e [] rfl)
      refine ⟨hP', fun pre hpre => ?_⟩
      rcases List.prefix_concat_iff.mp hpre with rfl | hpre
      · exact hgood _ hes hP'
      · exact hgoods pre hpre
    · intro hG
      obtain ⟨hP, hguards⟩ := hprefix fun pre hpre =>
        hG pre (hpre.trans (List.prefix_append es [e]))
      have hC := hexact es e hes hP (hG _ List.prefix_rfl)
      refine ⟨hkeep es e hes hP hC, fun pre f post hsplit => ?_⟩
      rcases concat_eq_append_cons hsplit with ⟨rfl, rfl, -⟩ | ⟨post', rfl⟩
      · exact hC
      · exact hguards pre f post' rfl

end PartialRun
