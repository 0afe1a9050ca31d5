import DrShadowStack.Common.PartialRun
import Mathlib.Logic.Function.Basic

/-!
# Interleavings of threads and forks

An interleaving is a list of actions: a thread raises an event, or a thread forks a child. Given a
machine (`step t` for every thread `t`, `s₀`), `alone` is what each thread would come to with a
machine of its own, whose state a child inherits from its parent at the fork. It is a function of
the thread's own events and of that one state (`alone_append`, `alone_fork`); the other threads do
not enter it.
-/

namespace Interleaving

open PartialRun Function

variable {ι ε σ τ : Type*}

/-- One action of an interleaving. -/
inductive Action (ι ε : Type*)
  | event (t : ι) (e : ε)
  | fork (parent child : ι)

/-- The threads that an action names. -/
def Action.threads : Action ι ε → List ι
  | .event t _ => [t]
  | .fork parent child => [parent, child]

/-- The thread `t` has not occurred in `acts`. -/
def Unseen (acts : List (Action ι ε)) (t : ι) : Prop := ∀ a ∈ acts, t ∉ a.threads

theorem Unseen.of_concat {acts : List (Action ι ε)} {a : Action ι ε} {t : ι}
    (h : Unseen (acts ++ [a]) t) : Unseen acts t ∧ t ∉ a.threads :=
  ⟨fun b hb => h b (by simp [hb]), h a (by simp)⟩

/-- A fork makes a child that is new: its id has not occurred, and is not the parent's. -/
def ForksFresh (acts : List (Action ι ε)) : Prop :=
  ∀ pre parent child post, acts = pre ++ .fork parent child :: post →
    child ≠ parent ∧ Unseen pre child

theorem ForksFresh.of_concat {acts : List (Action ι ε)} {a : Action ι ε}
    (h : ForksFresh (acts ++ [a])) : ForksFresh acts :=
  fun pre parent child post hsplit => h pre parent child (post ++ [a]) (by simp [hsplit])

/-- The last action, when it is a fork. -/
theorem ForksFresh.last {acts : List (Action ι ε)} {parent child : ι}
    (h : ForksFresh (acts ++ [.fork parent child])) :
    child ≠ parent ∧ Unseen acts child :=
  h acts parent child [] rfl

theorem ForksFresh.nil : ForksFresh ([] : List (Action ι ε)) := by
  intro pre parent child post hsplit
  simp at hsplit

/-- An event does not fork. -/
theorem ForksFresh.event {acts : List (Action ι ε)} (h : ForksFresh acts) (t : ι) (e : ε) :
    ForksFresh (acts ++ [.event t e]) := by
  intro pre parent child post hsplit
  rcases concat_eq_append_cons hsplit with ⟨-, hlast, -⟩ | ⟨post', rfl⟩
  · cases hlast
  · exact h pre parent child post' rfl

/-- A fork of a child that is new. -/
theorem ForksFresh.fork {acts : List (Action ι ε)} (h : ForksFresh acts) {parent child : ι}
    (hne : child ≠ parent) (hunseen : Unseen acts child) :
    ForksFresh (acts ++ [.fork parent child]) := by
  intro pre parent' child' post hsplit
  rcases concat_eq_append_cons hsplit with ⟨rfl, hlast, -⟩ | ⟨post', rfl⟩
  · obtain ⟨rfl, rfl⟩ := Action.fork.inj hlast
    exact ⟨hne, hunseen⟩
  · exact h pre parent' child' post' rfl

variable [DecidableEq ι]

/-- The events of the thread `t`. -/
def eventsOf (t : ι) (acts : List (Action ι ε)) : List ε :=
  acts.filterMap fun
    | .event u e => if u = t then some e else none
    | .fork _ _ => none

/-- One action, on machines that every thread has for itself. -/
def aloneStep (step : ι → σ → ε → Option σ) (own : ι → Option σ) : Action ι ε → ι → Option σ
  | .event t e => update own t ((own t).bind fun s => step t s e)
  | .fork parent child => update own child (own parent)

/-- What every thread comes to with a machine of its own; `none` once it refused an event. -/
def alone (step : ι → σ → ε → Option σ) (s₀ : σ) (acts : List (Action ι ε)) : ι → Option σ :=
  acts.foldl (aloneStep step) fun _ => some s₀

section Alone

variable {step : ι → σ → ε → Option σ} {s₀ : σ} {acts : List (Action ι ε)} {t u : ι}

@[simp] theorem alone_nil : alone step s₀ [] t = some s₀ := rfl

theorem alone_concat (acts : List (Action ι ε)) (a : Action ι ε) :
    alone step s₀ (acts ++ [a]) = aloneStep step (alone step s₀ acts) a := by
  rw [alone, List.foldl_append]
  rfl

/-- A thread's own event. -/
theorem alone_event_self (acts : List (Action ι ε)) (t : ι) (e : ε) :
    alone step s₀ (acts ++ [.event t e]) t = (alone step s₀ acts t).bind fun s => step t s e := by
  rw [alone_concat, aloneStep, update_self]

/-- An event of another thread. -/
theorem alone_event_ne (acts : List (Action ι ε)) (e : ε) (h : u ≠ t) :
    alone step s₀ (acts ++ [.event t e]) u = alone step s₀ acts u := by
  rw [alone_concat, aloneStep, update_of_ne h]

/-- A child starts with its parent's state. -/
theorem alone_fork (acts : List (Action ι ε)) (parent child : ι) :
    alone step s₀ (acts ++ [.fork parent child]) child = alone step s₀ acts parent := by
  rw [alone_concat, aloneStep, update_self]

/-- A fork changes no thread but the child. -/
theorem alone_fork_ne (acts : List (Action ι ε)) (parent : ι) {child : ι} (h : u ≠ child) :
    alone step s₀ (acts ++ [.fork parent child]) u = alone step s₀ acts u := by
  rw [alone_concat, aloneStep, update_of_ne h]

/-- A thread that has not occurred is where it starts. -/
theorem alone_of_unseen (h : Unseen acts t) : alone step s₀ acts t = some s₀ := by
  induction acts using List.reverseRecOn with
  | nil => rfl
  | append_singleton acts a ih =>
    obtain ⟨hacts, ha⟩ := h.of_concat
    cases a with
    | event u e =>
      rw [alone_event_ne acts e (by simpa [Action.threads] using ha), ih hacts]
    | fork parent child =>
      have hne : t ≠ child := fun heq => ha (by simp [Action.threads, heq])
      rw [alone_fork_ne acts parent hne, ih hacts]

/-- **A thread's own subsequence.** After a point behind which the thread is not made by a fork, it
runs its own events from the state that it had there. -/
theorem alone_append {post : List (Action ι ε)} (hpost : ∀ p, .fork p t ∉ post) :
    alone step s₀ (acts ++ post) t =
      (alone step s₀ acts t).bind fun s => run (step t) s (eventsOf t post) := by
  -- by the last action: an event of `t` is run, every other action leaves `t` where it is
  induction post using List.reverseRecOn with
  | nil => simp [eventsOf]
  | append_singleton post a ih =>
    have ih := ih fun p hp => hpost p (by simp [hp])
    rw [← List.append_assoc]
    cases a with
    | event u e =>
      by_cases hut : u = t
      · subst hut
        have hevents : eventsOf u (post ++ [.event u e]) = eventsOf u post ++ [e] := by
          simp [eventsOf]
        rw [alone_event_self, ih, hevents, Option.bind_assoc]
        congr 1
        funext s
        rw [run_concat]
      · have hevents : eventsOf t (post ++ [.event u e]) = eventsOf t post := by
          simp [eventsOf, hut]
        rw [alone_event_ne _ e (Ne.symm hut), ih, hevents]
    | fork parent child =>
      have hne : t ≠ child := fun heq => hpost parent (by simp [heq])
      have hevents : eventsOf t (post ++ [.fork parent child]) = eventsOf t post := by
        simp [eventsOf]
      rw [alone_fork_ne _ parent hne, ih, hevents]

/-- Machines with simulating steps come to related states, each alone. -/
theorem alone_map {step' : ι → τ → ε → Option τ} (f : σ → τ)
    (hstep : ∀ t s e, (step t s e).map f = step' t (f s) e) (acts : List (Action ι ε)) (t : ι) :
    (alone step s₀ acts t).map f = alone step' (f s₀) acts t := by
  induction acts using List.reverseRecOn generalizing t with
  | nil => rfl
  | append_singleton acts a ih =>
    cases a with
    | event u e =>
      by_cases htu : t = u
      · subst htu
        rw [alone_event_self, alone_event_self, ← ih t]
        cases alone step s₀ acts t with
        | none => rfl
        | some s => exact hstep t s e
      · rw [alone_event_ne acts e htu, alone_event_ne acts e htu, ih t]
    | fork parent child =>
      by_cases htc : t = child
      · subst htc
        rw [alone_fork, alone_fork, ih parent]
      · rw [alone_fork_ne acts parent htc, alone_fork_ne acts parent htc, ih t]

/-- Once refused, a thread stays refused. -/
theorem alone_concat_eq_none {a : Action ι ε} (hfresh : ForksFresh (acts ++ [a]))
    (h : alone step s₀ acts t = none) : alone step s₀ (acts ++ [a]) t = none := by
  cases a with
  | event u e =>
    by_cases htu : t = u
    · subst htu
      rw [alone_event_self, h, Option.bind_none]
    · rw [alone_event_ne acts e htu, h]
  | fork parent child =>
    by_cases htc : t = child
    · subst htc
      rw [alone_of_unseen hfresh.last.2] at h
      cases h
    · rw [alone_fork_ne acts parent htc, h]

end Alone

end Interleaving
