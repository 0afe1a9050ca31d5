import DrShadowStack.Common.PartialRun

/-!
# The stack discipline: pushes, checked pops and clears

A stack of entries of any type `α` is pushed to, popped by requests of any type `β`, and cleared. A
pop is allowed when the stack is not empty and its top entry admits the request (`ok`), and refused
otherwise. `step` is the machine, `PartialRun.run (step ok)` its runs.

`Balanced` is the language of stretches in which every push is popped again. A balanced stretch
leaves the stack as it found it (`Balanced.run_eq`) and never reaches below it on the way
(`Balanced.suffix_of_prefix`), whatever `ok` admits.
-/

namespace StackDiscipline

open PartialRun

variable {α β : Type*}

/-- One operation on the stack. -/
inductive Op (α β : Type*)
  | push (a : α)
  | pop (b : β)
  | clear
deriving DecidableEq

/-- The operation on entries that `f` relabels. -/
def Op.map {γ : Type*} (f : α → γ) : Op α β → Op γ β
  | .push a => .push (f a)
  | .pop b => .pop b
  | .clear => .clear

/-- Does the stack `st` allow a pop by the request `b`? -/
def admits (ok : α → β → Bool) : List α → β → Bool
  | [], _ => false
  | a :: _, b => ok a b

/-- One operation, or `none` when it is a pop that the stack refuses. -/
def step (ok : α → β → Bool) (st : List α) : Op α β → Option (List α)
  | .push a => some (a :: st)
  | .pop b => if admits ok st b then some st.tail else none
  | .clear => some []

section Step

variable {ok : α → β → Bool}

@[simp] theorem admits_nil (b : β) : admits ok [] b = false := rfl

@[simp] theorem admits_cons (a : α) (st : List α) (b : β) : admits ok (a :: st) b = ok a b := rfl

@[simp] theorem step_push (st : List α) (a : α) : step ok st (.push a) = some (a :: st) := rfl

@[simp] theorem step_clear (st : List α) : step ok st .clear = some [] := rfl

@[simp] theorem step_pop_nil (b : β) : step ok [] (.pop b) = none := by
  simp [step]

@[simp] theorem step_pop_cons (a : α) (st : List α) (b : β) :
    step ok (a :: st) (.pop b) = if ok a b then some st else none := rfl

theorem step_pop_eq_none_iff {st : List α} {b : β} :
    step ok st (.pop b) = none ↔ admits ok st b = false := by
  simp [step]

theorem step_pop_eq_some_iff {st st' : List α} {b : β} :
    step ok st (.pop b) = some st' ↔ ∃ a, st = a :: st' ∧ ok a b = true := by
  cases st with
  | nil => simp
  | cons a st =>
    rw [step_pop_cons]
    constructor
    · intro h
      split at h
      · next hok =>
        obtain rfl : st = st' := by simpa using h
        exact ⟨a, rfl, hok⟩
      · simp at h
    · rintro ⟨a', hst, hok⟩
      obtain ⟨rfl, rfl⟩ := List.cons.inj hst
      rw [if_pos hok]

/-- A machine whose entries carry more than `ok` looks at is the machine on what it looks at. -/
theorem step_map {γ : Type*} (g : γ → α) (st : List γ) (o : Op γ β) :
    (step (fun e b => ok (g e) b) st o).map (List.map g) = step ok (st.map g) (o.map g) := by
  cases o with
  | push c => rfl
  | clear => rfl
  | pop b =>
    cases st with
    | nil => rfl
    | cons c st =>
      rw [List.map_cons, Op.map, step_pop_cons, step_pop_cons]
      split <;> rfl

/-- Runs of such a machine. -/
theorem run_map {γ : Type*} (g : γ → α) (st : List γ) (ops : List (Op γ β)) :
    (run (step fun e b => ok (g e) b) st ops).map (List.map g) =
      run (step ok) (st.map g) (ops.map (Op.map g)) := by
  induction ops generalizing st with
  | nil => rfl
  | cons o ops ih =>
    rw [List.map_cons, run_cons, run_cons, ← step_map]
    cases step (fun e b => ok (g e) b) st o with
    | none => rfl
    | some st' => exact ih st'

end Step

/-! ## The stack without checks -/

/-- One operation, whatever stands on top of the stack. -/
def perform (st : List α) : Op α β → List α
  | .push a => a :: st
  | .pop _ => st.tail
  | .clear => []

section Perform

variable {ok : α → β → Bool} {st st' : List α} {ops : List (Op α β)}

theorem step_eq_some_iff {o : Op α β} :
    step ok st o = some st' ↔
      st' = perform st o ∧ ∀ b, o = .pop b → admits ok st b = true := by
  cases o with
  | push a =>
    rw [step_push, Option.some.injEq]
    exact ⟨fun h => ⟨h.symm, by simp⟩, fun h => h.1.symm⟩
  | clear =>
    rw [step_clear, Option.some.injEq]
    exact ⟨fun h => ⟨h.symm, by simp⟩, fun h => h.1.symm⟩
  | pop b =>
    rw [step, perform]
    constructor
    · intro h
      split at h
      · next hadmits =>
        refine ⟨(Option.some.inj h).symm, ?_⟩
        rintro b' heq
        obtain rfl := Op.pop.inj heq
        exact hadmits
      · cases h
    · rintro ⟨rfl, hadmits⟩
      rw [if_pos (hadmits b rfl)]

/-- A run that is accepted performs its operations. -/
theorem foldl_perform_of_run (h : run (step ok) st ops = some st') :
    ops.foldl perform st = st' := by
  induction ops generalizing st with
  | nil => simpa using h
  | cons o ops ih =>
    rw [run_cons, Option.bind_eq_some_iff] at h
    obtain ⟨mid, hmid, hrest⟩ := h
    rw [List.foldl_cons, ← (step_eq_some_iff.mp hmid).1]
    exact ih hrest

/-- What stands on the stack was there or was pushed. -/
theorem mem_foldl_perform {e : α} (h : e ∈ ops.foldl perform st) : e ∈ st ∨ .push e ∈ ops := by
  induction ops generalizing st with
  | nil => exact .inl h
  | cons o ops ih =>
    rw [List.foldl_cons] at h
    rcases ih h with hmem | hpush
    · cases o with
      | push a =>
        rcases List.mem_cons.mp hmem with rfl | hst
        · exact .inr List.mem_cons_self
        · exact .inl hst
      | pop b => exact .inl (List.mem_of_mem_tail hmem)
      | clear => cases hmem
    · exact .inr (List.mem_cons_of_mem o hpush)

end Perform

/-! ## Balanced stretches -/

/-- The stretches in which every push is popped again, in nested order and without a clear. -/
inductive Balanced : List (Op α β) → Prop
  | nil : Balanced []
  | wrap (a : α) (b : β) {w : List (Op α β)} :
      Balanced w → Balanced (.push a :: w ++ [.pop b])
  | append {v w : List (Op α β)} : Balanced v → Balanced w → Balanced (v ++ w)

namespace Balanced

variable {ok : α → β → Bool} {w : List (Op α β)}

/-- A balanced stretch leaves the stack as it found it. -/
theorem run_eq (hw : Balanced w) {st st' : List α} (h : run (step ok) st w = some st') :
    st' = st := by
  induction hw generalizing st st' with
  | nil => simpa using h.symm
  | wrap a b _ ih =>
    rw [List.cons_append, run_cons, step_push, Option.bind_some, run_append_eq_some] at h
    obtain ⟨mid, hmid, hpop⟩ := h
    obtain rfl := ih hmid
    rw [run_cons, step_pop_cons] at hpop
    split at hpop
    · simpa using hpop.symm
    · simp at hpop
  | append _ _ ihv ihw =>
    obtain ⟨mid, hmid, hrest⟩ := run_append_eq_some.mp h
    obtain rfl := ihv hmid
    exact ihw hrest

/-- At every point of a balanced stretch the stack it started from is still there, in place. -/
theorem suffix_of_prefix (hw : Balanced w) {q : List (Op α β)} (hq : q <+: w)
    {st st' : List α} (h : run (step ok) st q = some st') : st <:+ st' := by
  induction hw generalizing q st st' with
  | nil =>
    obtain rfl := List.prefix_nil.mp hq
    obtain rfl : st = st' := by simpa using h
    exact List.suffix_rfl
  | @wrap a b w hw ih =>
    -- a prefix is empty, ends inside the wrapped stretch, or is the whole of it
    cases q with
    | nil =>
      obtain rfl : st = st' := by simpa using h
      exact List.suffix_rfl
    | cons o q =>
      obtain ⟨rfl, hqw⟩ := List.cons_prefix_cons.mp hq
      rcases List.prefix_concat_iff.mp hqw with rfl | hqw
      · obtain rfl := (Balanced.wrap a b hw).run_eq h
        exact List.suffix_rfl
      · rw [run_cons, step_push, Option.bind_some] at h
        exact (List.suffix_cons a st).trans (ih hqw h)
  | @append v w hv _ ihv ihw =>
    rcases List.prefix_or_prefix_of_prefix hq (List.prefix_append v w) with hqv | ⟨r, rfl⟩
    · exact ihv hqv h
    · obtain ⟨mid, hmid, hrest⟩ := run_append_eq_some.mp h
      obtain rfl := hv.run_eq hmid
      exact ihw ((List.prefix_append_right_inj v).mp hq) hrest

end Balanced

end StackDiscipline
