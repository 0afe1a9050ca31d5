import DrShadowStack.Common.Interleaving
import DrShadowStack.InternalSS

/-!
# Thread local storage in internal mode (`dr_internal_ss_events.cpp`)

The stacks of all threads of a process live on its one heap, behind a registered field of each
thread's context that is null until the thread's first access. Of DynamoRIO it is assumed that the
field is per context, starts null and holds what was last set for the context, and that a handler
runs on its own thread's context. A forked child starts with a copy of its parent's memory, in which
only the forking thread lives on.

## Shape of the proof

The fields point to objects that were allocated, no two to one (`Memory.Valid`). So a handler
changes the object of its own context and no other (`deref_store_ne`), and every thread sees the
stack that its own events make of the empty stack or of its parent's (`Isolated`).
-/

namespace DrShadowStack

open Function

/-! ## `TLS` -/

/-- The memory of a process: the objects of type `T` on its heap, of which those below `brk` have
been allocated, and the registered field of every context. -/
structure Memory (Ctx T : Type*) where
  heap : ℕ → T
  brk : ℕ
  tlsField : Ctx → Option ℕ

namespace TLS

variable {Ctx T : Type*} [DecidableEq Ctx] [Inhabited T]

/-- `new T()` -/
def new (m : Memory Ctx T) : ℕ × Memory Ctx T :=
  (m.brk, { m with heap := update m.heap m.brk default, brk := m.brk + 1 })

/-- Get a reference to the stored `T`; the first access of a context allocates it. -/
def get (drcontext : Ctx) (m : Memory Ctx T) : ℕ × Memory Ctx T :=
  match m.tlsField drcontext with
  | some ptr => (ptr, m)
  | none =>
    let (newPtr, m) := new m
    (newPtr, { m with tlsField := update m.tlsField drcontext (some newPtr) })

/-- The object that `get` hands out. -/
def deref (drcontext : Ctx) (m : Memory Ctx T) : T :=
  let (ptr, m) := get drcontext m
  m.heap ptr

end TLS

namespace Memory

variable {Ctx T : Type*}

/-- At first no context has accessed its field. -/
def empty (Ctx T : Type*) [Inhabited T] : Memory Ctx T where
  heap := fun _ => default
  brk := 0
  tlsField := fun _ => none

/-- The fields point to allocated objects, no two contexts' to one. -/
structure Valid (m : Memory Ctx T) : Prop where
  allocated : ∀ c ptr, m.tlsField c = some ptr → ptr < m.brk
  injective : ∀ c c' ptr, m.tlsField c = some ptr → m.tlsField c' = some ptr → c = c'

/-- The memory of a forked child: a copy of its parent's, in which the thread that forked is the
only one. -/
def forked [DecidableEq Ctx] (m : Memory Ctx T) (c c' : Ctx) : Memory Ctx T :=
  { m with tlsField := fun d => if d = c' then m.tlsField c else none }

theorem Valid.empty [Inhabited T] : (Memory.empty Ctx T).Valid := by
  constructor
  · intro c ptr h
    cases h
  · intro c d ptr h
    cases h

theorem Valid.forked [DecidableEq Ctx] {m : Memory Ctx T} (h : m.Valid) (c c' : Ctx) :
    (m.forked c c').Valid := by
  have hfield : ∀ d ptr, (m.forked c c').tlsField d = some ptr →
      d = c' ∧ m.tlsField c = some ptr := by
    intro d ptr hd
    simp only [Memory.forked] at hd
    split at hd
    · exact ⟨by assumption, hd⟩
    · cases hd
  exact ⟨fun d ptr hd => h.allocated c ptr (hfield d ptr hd).2,
    fun d d' ptr hd hd' => (hfield d ptr hd).1.trans (hfield d' ptr hd').1.symm⟩

/-- The object behind the pointer of a context is overwritten. -/
def store [DecidableEq Ctx] [Inhabited T] (m : Memory Ctx T) (c : Ctx) (x : T) : Memory Ctx T :=
  let (ptr, m) := TLS.get c m
  { m with heap := update m.heap ptr x }

end Memory

section Tls

variable {Ctx T : Type*} [DecidableEq Ctx] [Inhabited T] {m : Memory Ctx T} {c d : Ctx} {ptr : ℕ}
  {x : T}

theorem deref_of_some (h : m.tlsField c = some ptr) : TLS.deref c m = m.heap ptr := by
  rw [TLS.deref, TLS.get, h]

theorem deref_of_none (h : m.tlsField c = none) : TLS.deref c m = default := by
  rw [TLS.deref, TLS.get, h]
  exact update_self m.brk default m.heap

/-- A field that is set stays as it is, and nothing is allocated. -/
theorem store_of_some (h : m.tlsField c = some ptr) :
    m.store c x = { m with heap := update m.heap ptr x } := by
  rw [Memory.store, TLS.get, h]

/-- A field that is null is set to a new object. -/
theorem store_of_none (h : m.tlsField c = none) :
    m.store c x =
      { heap := update m.heap m.brk x
        brk := m.brk + 1
        tlsField := update m.tlsField c (some m.brk) } := by
  rw [Memory.store, TLS.get, h]
  simp [TLS.new]

theorem deref_store_self (m : Memory Ctx T) (c : Ctx) (x : T) : TLS.deref c (m.store c x) = x := by
  cases hfield : m.tlsField c with
  | some ptr =>
    rw [store_of_some hfield]
    exact (deref_of_some (m := { m with heap := update m.heap ptr x }) hfield).trans
      (update_self ptr x m.heap)
  | none =>
    rw [store_of_none hfield]
    exact (deref_of_some (update_self c _ _)).trans (update_self m.brk x m.heap)

/-- Another context's field does not change. -/
theorem tlsField_store_ne (m : Memory Ctx T) (x : T) (hne : d ≠ c) :
    (m.store c x).tlsField d = m.tlsField d := by
  cases hfield : m.tlsField c with
  | some ptr => rw [store_of_some hfield]
  | none =>
    rw [store_of_none hfield]
    exact update_of_ne hne _ _

namespace Memory.Valid

theorem store (h : m.Valid) (c : Ctx) (x : T) : (m.store c x).Valid := by
  cases hfield : m.tlsField c with
  | some ptr =>
    rw [store_of_some hfield]
    exact ⟨h.allocated, h.injective⟩
  | none =>
    rw [store_of_none hfield]
    -- the new object is not one that another field points to
    have hnew : ∀ d ptr, d ≠ c → update m.tlsField c (some m.brk) d = some ptr → ptr < m.brk := by
      intro d ptr hne hd
      rw [update_of_ne hne] at hd
      exact h.allocated d ptr hd
    constructor
    · intro d ptr hd
      by_cases hdc : d = c
      · subst hdc
        obtain rfl : m.brk = ptr := by simpa using hd
        exact Nat.lt_succ_self _
      · exact Nat.lt_succ_of_lt (hnew d ptr hdc hd)
    · intro d d' ptr hd hd'
      by_cases hdc : d = c
      · subst hdc
        obtain rfl : m.brk = ptr := by simpa using hd
        by_contra hne
        exact (hnew d' m.brk (Ne.symm hne) hd').false
      · by_cases hdc' : d' = c
        · subst hdc'
          obtain rfl : m.brk = ptr := by simpa using hd'
          exact ((hnew d m.brk hdc hd).false).elim
        · exact h.injective d d' ptr (by simpa [update_of_ne hdc] using hd)
            (by simpa [update_of_ne hdc'] using hd')

/-- **Frame.** No other context's object changes. -/
theorem deref_store_ne (h : m.Valid) (hne : d ≠ c) (x : T) :
    TLS.deref d (m.store c x) = TLS.deref d m := by
  have hd := tlsField_store_ne m x hne
  cases hfield : m.tlsField d with
  | none => rw [deref_of_none (hd.trans hfield), deref_of_none hfield]
  | some ptr =>
    -- the object written is that of `c` or a new one, and neither is that of `d`
    rw [deref_of_some (hd.trans hfield), deref_of_some hfield]
    cases hc : m.tlsField c with
    | some ptr' =>
      have hptr : ptr ≠ ptr' := fun heq => hne (h.injective d c ptr hfield (heq ▸ hc))
      rw [store_of_some hc]
      exact update_of_ne hptr _ _
    | none =>
      have hptr : ptr ≠ m.brk := (h.allocated d ptr hfield).ne
      rw [store_of_none hc]
      exact update_of_ne hptr _ _

end Memory.Valid

/-- The child sees its parent's object; no other context of it has accessed its field. -/
theorem deref_forked (m : Memory Ctx T) (c c' d : Ctx) :
    TLS.deref d (m.forked c c') = if d = c' then TLS.deref c m else default := by
  split
  · next hdc =>
    have hfield : (m.forked c c').tlsField d = m.tlsField c := if_pos hdc
    cases hc : m.tlsField c with
    | some ptr => rw [deref_of_some (hfield.trans hc), deref_of_some hc, Memory.forked]
    | none => rw [deref_of_none (hfield.trans hc), deref_of_none hc]
  · next hdc => exact deref_of_none (if_neg hdc)

end Tls

/-! ## Processes of threads -/

namespace InternalSS

open Interleaving

variable {Pid Ctx : Type*} {ptrSize : ℕ}

/-- A forked child is a new process. -/
def NewProcesses (acts : List (Action (Pid × Ctx) (Event ptrSize))) : Prop :=
  ∀ pre parent child post, acts = pre ++ .fork parent child :: post →
    ∀ t : Pid × Ctx, t.1 = child.1 → t ≠ parent ∧ Unseen pre t

namespace NewProcesses

variable {acts : List (Action (Pid × Ctx) (Event ptrSize))}

theorem of_concat {a : Action (Pid × Ctx) (Event ptrSize)} (h : NewProcesses (acts ++ [a])) :
    NewProcesses acts :=
  fun pre parent child post hsplit => h pre parent child (post ++ [a]) (by simp [hsplit])

theorem nil : NewProcesses ([] : List (Action (Pid × Ctx) (Event ptrSize))) := by
  intro pre parent child post hsplit
  simp at hsplit

theorem event (h : NewProcesses acts) (t : Pid × Ctx) (e : Event ptrSize) :
    NewProcesses (acts ++ [.event t e]) := by
  intro pre parent child post hsplit
  rcases PartialRun.concat_eq_append_cons hsplit with ⟨-, hlast, -⟩ | ⟨post', rfl⟩
  · cases hlast
  · exact h pre parent child post' rfl

theorem fork (h : NewProcesses acts) {parent child : Pid × Ctx}
    (hnew : ∀ t : Pid × Ctx, t.1 = child.1 → t ≠ parent ∧ Unseen acts t) :
    NewProcesses (acts ++ [.fork parent child]) := by
  intro pre parent' child' post hsplit
  rcases PartialRun.concat_eq_append_cons hsplit with ⟨rfl, hlast, -⟩ | ⟨post', rfl⟩
  · obtain ⟨rfl, rfl⟩ := Action.fork.inj hlast
    exact hnew
  · exact h pre parent' child' post' rfl

end NewProcesses

variable [DecidableEq Pid] [DecidableEq Ctx]

/-- The handler of an event, on the thread's own context; `none` where it terminates the group. -/
def handle (m : Memory Ctx (Stack ptrSize)) (drcontext : Ctx) (e : Event ptrSize) :
    Option (Memory Ctx (Stack ptrSize)) :=
  (step (TLS.deref drcontext m) e).map fun ss => m.store drcontext ss

/-- The memories of all processes. A thread is a process and a context in it. -/
abbrev Processes (Pid Ctx : Type*) (ptrSize : ℕ) := Pid → Memory Ctx (Stack ptrSize)

/-- One action of a thread. -/
def act (ps : Processes Pid Ctx ptrSize) :
    Action (Pid × Ctx) (Event ptrSize) → Option (Processes Pid Ctx ptrSize)
  | .event t e => (handle (ps t.1) t.2 e).map fun m => update ps t.1 m
  | .fork parent child => some (update ps child.1 ((ps parent.1).forked parent.2 child.2))

/-- No thread has accessed its stack. -/
def initial : Processes Pid Ctx ptrSize := fun _ => .empty Ctx (Stack ptrSize)

/-- The stack that `TLS::get` hands to a thread. -/
def stackOf (ps : Processes Pid Ctx ptrSize) (t : Pid × Ctx) : Stack ptrSize :=
  TLS.deref t.2 (ps t.1)

/-- The registered field of a thread. -/
def fieldOf (ps : Processes Pid Ctx ptrSize) (t : Pid × Ctx) : Option ℕ := (ps t.1).tlsField t.2

/-- Threads do not disturb each other. -/
structure Isolated (acts : List (Action (Pid × Ctx) (Event ptrSize)))
    (ps : Processes Pid Ctx ptrSize) : Prop where
  /-- Every thread's stack is the one that its own events make. -/
  stack : ∀ t, alone (fun _ => step) [] acts t = some (stackOf ps t)
  /-- An event terminates the group exactly if it does so on the thread's events alone. -/
  terminates : ∀ t e, act ps (.event t e) = none ↔
    alone (fun _ => step) [] (acts ++ [.event t e]) t = none
  /-- A thread's first access allocates its stack, and no later access does. -/
  allocates : ∀ t e ps', act ps (.event t e) = some ps' →
    if (fieldOf ps t).isSome then fieldOf ps' t = fieldOf ps t ∧ (ps' t.1).brk = (ps t.1).brk
    else fieldOf ps' t = some (ps t.1).brk ∧ (ps' t.1).brk = (ps t.1).brk + 1
  /-- No event of a thread changes another's field or stack. -/
  others : ∀ t e ps', act ps (.event t e) = some ps' → ∀ u, u ≠ t →
    fieldOf ps' u = fieldOf ps u ∧ stackOf ps' u = stackOf ps u
  /-- The object that was allocated first stays the thread's. -/
  once : ∀ pre, pre <+: acts → ∀ ps₀, PartialRun.run act initial pre = some ps₀ →
    ∀ t ptr, fieldOf ps₀ t = some ptr → fieldOf ps t = some ptr
  /-- No two threads of a process have one stack. -/
  apart : ∀ t u ptr, t.1 = u.1 → fieldOf ps t = some ptr → fieldOf ps u = some ptr → t = u

/-! ## One action -/

section Act

variable {ps ps' : Processes Pid Ctx ptrSize} {t u : Pid × Ctx} {e : Event ptrSize}
  {acts : List (Action (Pid × Ctx) (Event ptrSize))} {a : Action (Pid × Ctx) (Event ptrSize)}

/-- What an event of a thread does: its handler acts on the thread's stack, which is then stored. -/
theorem act_event (ps : Processes Pid Ctx ptrSize) (t : Pid × Ctx) (e : Event ptrSize) :
    act ps (.event t e) =
      (step (stackOf ps t) e).map fun ss => update ps t.1 ((ps t.1).store t.2 ss) := by
  rw [act, handle, Option.map_map]
  rfl

theorem stackOf_store_self (ps : Processes Pid Ctx ptrSize) (t : Pid × Ctx) (ss : Stack ptrSize) :
    stackOf (update ps t.1 ((ps t.1).store t.2 ss)) t = ss := by
  rw [stackOf, update_self, deref_store_self]

theorem stackOf_store_ne (hvalid : ∀ pid, (ps pid).Valid) (hne : u ≠ t) (ss : Stack ptrSize) :
    stackOf (update ps t.1 ((ps t.1).store t.2 ss)) u = stackOf ps u := by
  by_cases hpid : u.1 = t.1
  · have hctx : u.2 ≠ t.2 := fun hctx => hne (Prod.ext hpid hctx)
    rw [stackOf, stackOf, hpid, update_self, (hvalid t.1).deref_store_ne hctx]
  · rw [stackOf, stackOf, update_of_ne hpid]

theorem fieldOf_store_ne (hne : u ≠ t) (ss : Stack ptrSize) :
    fieldOf (update ps t.1 ((ps t.1).store t.2 ss)) u = fieldOf ps u := by
  by_cases hpid : u.1 = t.1
  · have hctx : u.2 ≠ t.2 := fun hctx => hne (Prod.ext hpid hctx)
    rw [fieldOf, fieldOf, hpid, update_self, tlsField_store_ne _ _ hctx]
  · rw [fieldOf, fieldOf, update_of_ne hpid]

/-- The first access of a thread sets its field, every other leaves it. -/
theorem fieldOf_store_self (ps : Processes Pid Ctx ptrSize) (t : Pid × Ctx) (ss : Stack ptrSize) :
    let ps' := update ps t.1 ((ps t.1).store t.2 ss)
    if (fieldOf ps t).isSome then fieldOf ps' t = fieldOf ps t ∧ (ps' t.1).brk = (ps t.1).brk
    else fieldOf ps' t = some (ps t.1).brk ∧ (ps' t.1).brk = (ps t.1).brk + 1 := by
  simp only [fieldOf, update_self]
  cases hfield : (ps t.1).tlsField t.2 with
  | some ptr => simp [store_of_some hfield, hfield]
  | none => simp [store_of_none hfield]

/-- What an interleaving keeps. -/
structure Invariant (acts : List (Action (Pid × Ctx) (Event ptrSize)))
    (ps : Processes Pid Ctx ptrSize) : Prop where
  stack : ∀ t, alone (fun _ => step) [] acts t = some (stackOf ps t)
  valid : ∀ pid, (ps pid).Valid
  unseen : ∀ t, Unseen acts t → fieldOf ps t = none

theorem Invariant.initial :
    Invariant [] (initial : Processes Pid Ctx ptrSize) :=
  ⟨fun _ => congrArg some (deref_of_none rfl).symm, fun _ => .empty, fun _ _ => rfl⟩

/-- An event keeps the invariant. -/
theorem Invariant.event (h : Invariant acts ps) (hact : act ps (.event t e) = some ps') :
    Invariant (acts ++ [.event t e]) ps' := by
  rw [act_event, Option.map_eq_some_iff] at hact
  obtain ⟨ss, hss, rfl⟩ := hact
  refine ⟨fun u => ?_, fun pid => ?_, fun u hu => ?_⟩
  · by_cases hut : u = t
    · subst hut
      rw [alone_event_self, h.stack, Option.bind_some, hss, stackOf_store_self]
    · rw [alone_event_ne acts e hut, h.stack, stackOf_store_ne h.valid hut]
  · by_cases hpid : pid = t.1
    · subst hpid
      rw [update_self]
      exact (h.valid t.1).store t.2 ss
    · rw [update_of_ne hpid]
      exact h.valid pid
  · obtain ⟨hacts, ha⟩ := hu.of_concat
    have hut : u ≠ t := by simpa [Action.threads] using ha
    rw [fieldOf_store_ne hut, h.unseen u hacts]

/-- A fork of a new process keeps the invariant. -/
theorem Invariant.fork (h : Invariant acts ps) {parent child : Pid × Ctx}
    (hnew : ∀ t : Pid × Ctx, t.1 = child.1 → t ≠ parent ∧ Unseen acts t) :
    Invariant (acts ++ [.fork parent child])
      (update ps child.1 ((ps parent.1).forked parent.2 child.2)) := by
  have hsame : ∀ u : Pid × Ctx, u.1 = child.1 → (u.2 = child.2 ↔ u = child) := fun u hpid =>
    ⟨fun hctx => Prod.ext hpid hctx, fun heq => by rw [heq]⟩
  refine ⟨fun u => ?_, fun pid => ?_, fun u hu => ?_⟩
  · by_cases hpid : u.1 = child.1
    · rw [stackOf, hpid, update_self, deref_forked]
      -- the forking thread lives on in the child; other contexts there have accessed nothing
      by_cases huc : u = child
      · rw [if_pos ((hsame u hpid).mpr huc), huc, alone_fork, h.stack]
        rfl
      · rw [if_neg (mt (hsame u hpid).mp huc), alone_fork_ne acts parent huc,
          alone_of_unseen (hnew u hpid).2]
        rfl
    · have huc : u ≠ child := fun heq => hpid (by rw [heq])
      rw [alone_fork_ne acts parent huc, h.stack, stackOf, stackOf, update_of_ne hpid]
  · by_cases hpid : pid = child.1
    · subst hpid
      rw [update_self]
      exact (h.valid parent.1).forked parent.2 child.2
    · rw [update_of_ne hpid]
      exact h.valid pid
  · obtain ⟨hacts, ha⟩ := hu.of_concat
    by_cases hpid : u.1 = child.1
    · have huc : u ≠ child := fun heq => ha (by simp [Action.threads, heq])
      rw [fieldOf, hpid, update_self]
      exact if_neg (mt (hsame u hpid).mp huc)
    · rw [fieldOf, update_of_ne hpid]
      exact h.unseen u hacts

/-- Every action keeps the invariant, and the objects that the fields point to. -/
theorem Invariant.act (h : Invariant acts ps) (hnew : NewProcesses (acts ++ [a]))
    (hact : InternalSS.act ps a = some ps') :
    Invariant (acts ++ [a]) ps' ∧
      ∀ t ptr, fieldOf ps t = some ptr → fieldOf ps' t = some ptr := by
  cases a with
  | event u e =>
    refine ⟨h.event hact, fun t ptr hptr => ?_⟩
    rw [act_event, Option.map_eq_some_iff] at hact
    obtain ⟨ss, -, rfl⟩ := hact
    by_cases htu : t = u
    · subst htu
      have hself := fieldOf_store_self ps t ss
      rw [hptr, Option.isSome_some, if_pos rfl] at hself
      exact hself.1
    · rw [fieldOf_store_ne htu, hptr]
  | fork parent child =>
    have hchild := hnew acts parent child [] rfl
    obtain rfl := Option.some.inj hact
    refine ⟨h.fork hchild, fun t ptr hptr => ?_⟩
    by_cases hpid : t.1 = child.1
    · rw [h.unseen t (hchild t hpid).2] at hptr
      cases hptr
    · rw [fieldOf, update_of_ne hpid]
      exact hptr

end Act

/-- **Every thread has a stack of its own**, under every interleaving of threads and forks. -/
theorem isolated {acts : List (Action (Pid × Ctx) (Event ptrSize))} (hnew : NewProcesses acts)
    {ps : Processes Pid Ctx ptrSize} (hrun : PartialRun.run act initial acts = some ps) :
    Isolated acts ps := by
  have hinv : Invariant acts ps ∧ ∀ pre, pre <+: acts →
      ∀ ps₀, PartialRun.run act initial pre = some ps₀ →
        ∀ t ptr, fieldOf ps₀ t = some ptr → fieldOf ps t = some ptr := by
    induction acts using List.reverseRecOn generalizing ps with
    | nil =>
      obtain rfl := Option.some.inj hrun
      refine ⟨.initial, fun pre hpre ps₀ hps₀ t ptr hptr => ?_⟩
      rw [List.prefix_nil.mp hpre] at hps₀
      obtain rfl := Option.some.inj hps₀
      exact hptr
    | append_singleton acts a ih =>
      obtain ⟨mid, hmid, hlast⟩ := PartialRun.run_append_eq_some.mp hrun
      obtain ⟨hkeep, honce⟩ := ih hnew.of_concat hmid
      obtain ⟨hkeep', hfield⟩ := hkeep.act hnew (by simpa using hlast)
      refine ⟨hkeep', fun pre hpre ps₀ hps₀ t ptr hptr => ?_⟩
      rcases List.prefix_concat_iff.mp hpre with rfl | hpre
      · obtain rfl := Option.some.inj (hps₀.symm.trans hrun)
        exact hptr
      · exact hfield t ptr (honce pre hpre ps₀ hps₀ t ptr hptr)
  obtain ⟨hkeep, honce⟩ := hinv
  refine ⟨hkeep.stack, fun t e => ?_, fun t e ps' hact => ?_, fun t e ps' hact u hut => ?_, honce,
    fun t u ptr hpid ht hu => ?_⟩
  · rw [act_event, Option.map_eq_none_iff, alone_event_self, hkeep.stack, Option.bind_some]
  · rw [act_event, Option.map_eq_some_iff] at hact
    obtain ⟨ss, -, rfl⟩ := hact
    exact fieldOf_store_self ps t ss
  · rw [act_event, Option.map_eq_some_iff] at hact
    obtain ⟨ss, -, rfl⟩ := hact
    exact ⟨fieldOf_store_ne hut ss, stackOf_store_ne hkeep.valid hut ss⟩
  · rw [fieldOf, hpid] at ht
    exact Prod.ext hpid ((hkeep.valid u.1).injective t.2 u.2 ptr ht hu)

/-- Two threads call, one forks, and child and other thread return. -/
def forkedCalls : List (Action (ℕ × ℕ) (Event 8)) :=
  [.event (0, 0) (.call 1)] ++ [.event (0, 1) (.call 2)] ++ [.fork (0, 0) (1, 0)] ++
    [.event (1, 0) (.ret 1)] ++ [.event (0, 1) (.ret 2)]

theorem isolated_forkedCalls :
    ∃ ps, PartialRun.run act initial forkedCalls = some ps ∧ Isolated forkedCalls ps := by
  have hruns : (PartialRun.run act initial forkedCalls).isSome := rfl
  obtain ⟨ps, hps⟩ := Option.isSome_iff_exists.mp hruns
  refine ⟨ps, hps, isolated ?_ hps⟩
  refine ((((NewProcesses.nil.event _ _).event _ _).fork ?_).event _ _).event _ _
  rintro ⟨pid, ctx⟩ rfl
  simp [Unseen, Action.threads]

end InternalSS

end DrShadowStack
