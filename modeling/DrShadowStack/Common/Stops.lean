import Mathlib.Init

/-!
# Programs that need not return

A program takes a state and either returns a value or stops: the process was killed or aborted, an
exception left the program, or a recursion ran out of the fuel that bounds it. In either case it
leaves a state behind.

`Triple P m Q R` says that from a state with `P` the program returns with `Q` or stops with `R`. The
rules compose triples along a program (`Triple.bind`, `Triple.whenever`, `Triple.onDestroy`), and
`Triple.returned` and `Triple.stopped` read them off a run.

`Refines m m'` says that `m` runs as `m'` does or out of fuel. Its rules follow the same forms, so a
recursion with more fuel is refined by the recursion with less.
-/

/-- How a program ends that does not return. -/
inductive Stop
  | killed
  | threw
  | aborted
  | outOfFuel
deriving DecidableEq

/-- What becomes of it when it happens in a destructor: an exception must not leave one. -/
def Stop.leaveDestructor : Stop → Stop
  | .threw => .aborted
  | e => e

/-- A program on states `σ`. -/
abbrev Prog (σ α : Type) := EStateM Stop σ α

namespace Prog

variable {σ α β : Type}

/-- The state that a run leaves behind. -/
def final : EStateM.Result Stop σ α → σ
  | .ok _ s => s
  | .error _ s => s

/-- The value that a run returns. -/
def value? : EStateM.Result Stop σ α → Option α
  | .ok a _ => some a
  | .error _ _ => none

theorem eq_ok_of_value? {r : EStateM.Result Stop σ α} {a : α} (h : value? r = some a) :
    r = .ok a (final r) := by
  cases r with
  | ok b s => rw [← Option.some.inj h, final]
  | error e s => cases h

/-- `if ( c ) m;` -/
def whenever (c : Prop) [Decidable c] (m : Prog σ Unit) : Prog σ Unit := if c then m else pure ()

/-- `if ( p != nullptr ) f( p );` -/
def ifNonNull (p : Option β) (f : β → Prog σ Unit) : Prog σ Unit :=
  match p with
  | none => pure ()
  | some p => f p

/-- The scope of a local object: its destructor runs when `m` returns and when an exception unwinds
the stack. -/
def onDestroy (destructor : Prog σ Unit) (m : Prog σ α) : Prog σ α := fun s =>
  match m s with
  | .ok a t =>
    match destructor t with
    | .ok _ u => .ok a u
    | .error e u => .error e.leaveDestructor u
  | .error .threw t =>
    match destructor t with
    | .ok _ u => .error .threw u
    | .error e u => .error e.leaveDestructor u
  | .error e t => .error e t

/-- The scope of a local object that is disarmed where `m` returns: its destructor does something
only when an exception unwinds the stack. -/
def onUnwind (destructor : Prog σ Unit) (m : Prog σ α) : Prog σ α := fun s =>
  match m s with
  | .ok a t => .ok a t
  | .error .threw t =>
    match destructor t with
    | .ok _ u => .error .threw u
    | .error e u => .error e.leaveDestructor u
  | .error e t => .error e t

/-- `try m catch ( ... ) handler` -/
def catching (handler m : Prog σ α) : Prog σ α := fun s =>
  match m s with
  | .error .threw t => handler t
  | r => r

/-- From a state with `P` the program returns with `Q` or stops with `R`. -/
def Triple (P : σ → Prop) (m : Prog σ α) (Q : α → σ → Prop) (R : Stop → σ → Prop) : Prop :=
  ∀ s, P s →
    match m s with
    | .ok a t => Q a t
    | .error e t => R e t

/-! ## Runs -/

theorem bind_of_ok {m : Prog σ α} {s t : σ} {a : α} (h : m s = .ok a t) (f : α → Prog σ β) :
    (m >>= f) s = f a t := by
  show EStateM.bind m f s = _
  rw [EStateM.bind, h]

theorem bind_of_error {m : Prog σ α} {s t : σ} {e : Stop} (h : m s = .error e t)
    (f : α → Prog σ β) : (m >>= f) s = .error e t := by
  show EStateM.bind m f s = _
  rw [EStateM.bind, h]

theorem bind_eq_ok {m : Prog σ α} {f : α → Prog σ β} {s t : σ} {b : β} :
    (m >>= f) s = .ok b t ↔ ∃ a u, m s = .ok a u ∧ f a u = .ok b t := by
  cases h : m s with
  | ok a u => simp [bind_of_ok h, and_assoc]
  | error e u => simp [bind_of_error h]

theorem whenever_pos {c : Prop} [Decidable c] (h : c) (m : Prog σ Unit) : whenever c m = m :=
  if_pos h

theorem whenever_neg {c : Prop} [Decidable c] (h : ¬c) (m : Prog σ Unit) : whenever c m = pure () :=
  if_neg h

namespace Triple

variable {P P' : σ → Prop} {Q Q' : α → σ → Prop} {R R' : Stop → σ → Prop} {m : Prog σ α}

theorem returned (h : Triple P m Q R) {s t : σ} {a : α} (hs : P s) (hrun : m s = .ok a t) :
    Q a t := by
  have hpost := h s hs
  rwa [hrun] at hpost

theorem stopped (h : Triple P m Q R) {s t : σ} {e : Stop} (hs : P s) (hrun : m s = .error e t) :
    R e t := by
  have hpost := h s hs
  rwa [hrun] at hpost

/-- What holds however the program ends holds of the state that it leaves. -/
theorem final_of (h : Triple P m (fun _ => P') fun _ => P') {s : σ} (hs : P s) :
    P' (final (m s)) := by
  cases hrun : m s with
  | ok a t => exact h.returned hs hrun
  | error e t => exact h.stopped hs hrun

/-! ## The rules -/

theorem conseq (h : Triple P m Q R) (hP : ∀ s, P' s → P s) (hQ : ∀ a s, Q a s → Q' a s)
    (hR : ∀ e s, R e s → R' e s) : Triple P' m Q' R' := by
  intro s hs
  have hpost := h s (hP s hs)
  cases hrun : m s with
  | ok a t =>
    rw [hrun] at hpost
    exact hQ a t hpost
  | error e t =>
    rw [hrun] at hpost
    exact hR e t hpost

/-- The rule of consequence for stops alone. -/
theorem mono (h : Triple P m Q R) (hR : ∀ e s, R e s → R' e s) : Triple P m Q R' :=
  h.conseq (fun _ hs => hs) (fun _ _ hq => hq) hR

/-- Two specs of one program. -/
theorem and (h : Triple P m Q R) (h' : Triple P m Q' R') :
    Triple P m (fun a s => Q a s ∧ Q' a s) fun e s => R e s ∧ R' e s := by
  intro s hs
  cases hrun : m s with
  | ok a t => exact ⟨h.returned hs hrun, h'.returned hs hrun⟩
  | error e t => exact ⟨h.stopped hs hrun, h'.stopped hs hrun⟩

/-- Behind a program that does not return nothing is left to show. -/
theorem of_false : Triple (fun _ => False) m Q R := fun _ hs => hs.elim

/-- A fact that the precondition implies, and that is not about the state, may be assumed. -/
theorem of_fact {A : Prop} (hA : ∀ s, P s → A) (h : A → Triple P m Q R) : Triple P m Q R :=
  fun s hs => h (hA s hs) s hs

theorem ret {a : α} (h : ∀ s, P s → Q a s) : Triple P (pure a) Q R := h

theorem stop {e : Stop} (h : ∀ s, P s → R e s) : Triple P (throw e : Prog σ α) Q R := h

theorem read : Triple P (get : Prog σ σ) (fun a s => a = s ∧ P s) R := fun _ hs => ⟨rfl, hs⟩

theorem update {Q : Unit → σ → Prop} {f : σ → σ} (h : ∀ s, P s → Q () (f s)) :
    Triple P (modify f : Prog σ Unit) Q R := h

theorem bind {Q' : β → σ → Prop} {f : α → Prog σ β} (hm : Triple P m Q R)
    (hf : ∀ a, Triple (Q a) (f a) Q' R) : Triple P (m >>= f) Q' R := by
  intro s hs
  cases hrun : m s with
  | ok a t =>
    rw [bind_of_ok hrun]
    exact hf a t (hm.returned hs hrun)
  | error e t =>
    rw [bind_of_error hrun]
    exact hm.stopped hs hrun

theorem whenever {c : Prop} [Decidable c] {m : Prog σ Unit} {Q : Unit → σ → Prop}
    (hm : c → Triple P m Q R) (hskip : ¬c → ∀ s, P s → Q () s) :
    Triple P (Prog.whenever c m) Q R := by
  by_cases hc : c
  · rw [whenever_pos hc]
    exact hm hc
  · rw [whenever_neg hc]
    exact ret (hskip hc)

theorem ifNonNull {p : Option β} {f : β → Prog σ Unit} {Q : Unit → σ → Prop}
    (hf : ∀ b, p = some b → Triple P (f b) Q R) (hnull : p = none → ∀ s, P s → Q () s) :
    Triple P (Prog.ifNonNull p f) Q R := by
  cases p with
  | none => exact ret (hnull rfl)
  | some b => exact hf b rfl

/-- A scope whose destructor does not return is not left, however its body ends. -/
theorem onDestroy {I : σ → Prop} {destructor : Prog σ Unit}
    (hm : Triple P m (fun _ => I) fun e s => I s ∧ R e s)
    (hd : Triple I destructor (fun _ _ => False) fun e s => R e.leaveDestructor s) :
    Triple P (Prog.onDestroy destructor m) Q R := by
  intro s hs
  have hpost := hm s hs
  rw [Prog.onDestroy]
  have hdestroy : ∀ t, I t → ∃ e u, destructor t = .error e u ∧ R e.leaveDestructor u := by
    intro t ht
    cases hrun : destructor t with
    | ok _ u => exact (hd.returned ht hrun).elim
    | error e u => exact ⟨e, u, rfl, hd.stopped ht hrun⟩
  cases hrun : m s with
  | ok a t =>
    rw [hrun] at hpost
    obtain ⟨e, u, hrun', hR⟩ := hdestroy t hpost
    simpa only [hrun'] using hR
  | error e t =>
    rw [hrun] at hpost
    obtain ⟨e', u, hrun', hR⟩ := hdestroy t hpost.1
    cases e with
    | threw => simpa only [hrun'] using hR
    | _ => exact hpost.2

/-- An exception does not leave a scope whose destructor does not return. -/
theorem onUnwind {destructor : Prog σ Unit}
    (hm : Triple P m Q R)
    (hd : Triple (R .threw) destructor (fun _ _ => False) fun e s => R e.leaveDestructor s) :
    Triple P (Prog.onUnwind destructor m) Q fun e s => e ≠ .threw ∧ R e s := by
  intro s hs
  have hpost := hm s hs
  rw [Prog.onUnwind]
  cases hrun : m s with
  | ok a t =>
    rw [hrun] at hpost
    exact hpost
  | error e t =>
    rw [hrun] at hpost
    cases e with
    | threw =>
      cases hrun' : destructor t with
      | ok _ u => exact (hd.returned hpost hrun').elim
      | error e' u =>
        simp only [hrun']
        exact ⟨by cases e' <;> exact Stop.noConfusion, hd.stopped hpost hrun'⟩
    | _ => exact ⟨Stop.noConfusion, hpost⟩

/-- A handler goes on from where an exception was thrown. -/
theorem catching {handler : Prog σ α} (hm : Triple P m Q R) (hh : Triple (R .threw) handler Q R) :
    Triple P (Prog.catching handler m) Q R := by
  intro s hs
  have hpost := hm s hs
  rw [Prog.catching]
  cases hrun : m s with
  | ok a t =>
    rw [hrun] at hpost
    exact hpost
  | error e t =>
    rw [hrun] at hpost
    cases e with
    | threw => exact hh t hpost
    | _ => exact hpost

end Triple

/-! ## More fuel -/

/-- The program runs as `m'` does, or its fuel runs out. -/
def Refines (m m' : Prog σ α) : Prop := ∀ s, m s = m' s ∨ ∃ t, m s = .error .outOfFuel t

namespace Refines

variable {m m' m'' : Prog σ α}

theorem refl (m : Prog σ α) : Refines m m := fun _ => .inl rfl

theorem outOfFuel : Refines (throw .outOfFuel) m := fun s => .inr ⟨s, rfl⟩

theorem trans (h : Refines m m') (h' : Refines m' m'') : Refines m m'' := by
  intro s
  rcases h s with heq | hfuel
  · rw [heq]
    exact h' s
  · exact .inr hfuel

theorem bind {f f' : α → Prog σ β} (hm : Refines m m') (hf : ∀ a, Refines (f a) (f' a)) :
    Refines (m >>= f) (m' >>= f') := by
  intro s
  rcases hm s with heq | ⟨t, hfuel⟩
  · cases hrun : m' s with
    | ok a t =>
      rw [bind_of_ok (heq.trans hrun), bind_of_ok hrun]
      exact hf a t
    | error e t =>
      rw [bind_of_error (heq.trans hrun), bind_of_error hrun]
      exact .inl rfl
  · exact .inr ⟨t, bind_of_error hfuel f⟩

theorem whenever {c : Prop} [Decidable c] {m m' : Prog σ Unit} (hm : Refines m m') :
    Refines (Prog.whenever c m) (Prog.whenever c m') := by
  by_cases hc : c
  · rw [whenever_pos hc, whenever_pos hc]
    exact hm
  · rw [whenever_neg hc, whenever_neg hc]
    exact refl _

theorem ifNonNull {p : Option β} {f f' : β → Prog σ Unit} (hf : ∀ b, Refines (f b) (f' b)) :
    Refines (Prog.ifNonNull p f) (Prog.ifNonNull p f') := by
  cases p with
  | none => exact refl _
  | some b => exact hf b

theorem ite {c : Prop} [Decidable c] {n n' : Prog σ α} (hm : Refines m m') (hn : Refines n n') :
    Refines (if c then m else n) (if c then m' else n') := by
  split
  · exact hm
  · exact hn

theorem onDestroy {d d' : Prog σ Unit} (hd : Refines d d') (hm : Refines m m') :
    Refines (Prog.onDestroy d m) (Prog.onDestroy d' m') := by
  intro s
  rcases hm s with heq | ⟨t, hfuel⟩
  · -- the bodies end alike, and the destructors run from the same state
    rw [Prog.onDestroy, Prog.onDestroy, heq]
    cases m' s with
    | ok a t =>
      rcases hd t with heq' | ⟨u, hfuel'⟩
      · exact .inl (by simp only [heq'])
      · exact .inr ⟨u, by simp only [hfuel']; rfl⟩
    | error e t =>
      cases e with
      | threw =>
        rcases hd t with heq' | ⟨u, hfuel'⟩
        · exact .inl (by simp only [heq'])
        · exact .inr ⟨u, by simp only [hfuel']; rfl⟩
      | _ => exact .inl rfl
  · exact .inr ⟨t, by rw [Prog.onDestroy, hfuel]⟩

/-- A run that does not end out of fuel is the run of the program that is refined. -/
theorem eq_of_ne (h : Refines m m') {s : σ} (hne : ∀ t, m s ≠ .error .outOfFuel t) :
    m s = m' s := by
  rcases h s with heq | ⟨t, hfuel⟩
  · exact heq
  · exact (hne t hfuel).elim

end Refines

end Prog
