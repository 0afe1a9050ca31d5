import DrShadowStack.Common.PartialRun

/-!
# Machines under a monitor

A machine raises events when it steps, and a monitor is asked for them first: where it refuses one,
the machine does not step any more. `Monitor.step` is the machine under its monitor. It has no runs
but those of the machine itself whose events the monitor accepts (`run_eq_some_iff`).
-/

namespace Monitor

open PartialRun

variable {α σ κ ε : Type*}

/-- A step of the machine, behind the monitor's verdict on the events that it raises. -/
def step (native : α → κ → Option α) (monitor : σ → ε → Option σ) (events : α → κ → List ε)
    (c : α × σ) (l : κ) : Option (α × σ) :=
  (run monitor c.2 (events c.1 l)).bind fun s => (native c.1 l).map fun a => (a, s)

/-- The events that the machine raises along a run, for as long as it steps. -/
def trace (native : α → κ → Option α) (events : α → κ → List ε) : α → List κ → List ε
  | _, [] => []
  | a, l :: ls =>
    match native a l with
    | none => []
    | some b => events a l ++ trace native events b ls

section Runs

variable {native : α → κ → Option α} {monitor : σ → ε → Option σ} {events : α → κ → List ε}
  {a b : α} {s t : σ} {l : κ} {ls ms : List κ}

theorem step_eq_some_iff :
    step native monitor events (a, s) l = some (b, t) ↔
      native a l = some b ∧ run monitor s (events a l) = some t := by
  rw [step]
  cases run monitor s (events a l) with
  | none => simp
  | some u => simp [Option.map_eq_some_iff]

@[simp] theorem trace_nil (a : α) : trace native events a [] = [] := rfl

theorem trace_cons (h : native a l = some b) (ls : List κ) :
    trace native events a (l :: ls) = events a l ++ trace native events b ls := by
  rw [trace, h]

/-- The events of a run that goes on are those of its parts. -/
theorem trace_append (h : run native a ls = some b) (ms : List κ) :
    trace native events a (ls ++ ms) = trace native events a ls ++ trace native events b ms := by
  induction ls generalizing a with
  | nil =>
    obtain rfl := Option.some.inj h
    rfl
  | cons l ls ih =>
    rw [run_cons, Option.bind_eq_some_iff] at h
    obtain ⟨c, hc, hrest⟩ := h
    rw [List.cons_append, trace_cons hc, trace_cons hc, ih hrest, List.append_assoc]

/-- The events of one more step. -/
theorem trace_concat (h : run native a ls = some b) {c : α} (hstep : native b l = some c) :
    trace native events a (ls ++ [l]) = trace native events a ls ++ events b l := by
  rw [trace_append h, trace_cons hstep, trace_nil, List.append_nil]

/-- An event of a run is one of a step of it. -/
theorem exists_of_mem_trace {e : ε} (h : e ∈ trace native events a ls) :
    ∃ l ∈ ls, ∃ c, e ∈ events c l := by
  induction ls generalizing a with
  | nil => cases h
  | cons l ls ih =>
    cases hstep : native a l with
    | none => simp [trace, hstep] at h
    | some c =>
      rw [trace_cons hstep, List.mem_append] at h
      rcases h with h | h
      · exact ⟨l, List.mem_cons_self, a, h⟩
      · obtain ⟨l', hl', hrest⟩ := ih h
        exact ⟨l', List.mem_cons_of_mem l hl', hrest⟩

theorem map_trace {δ : Type*} (f : ε → δ) (native : α → κ → Option α) (events : α → κ → List ε)
    (a : α) (ls : List κ) :
    (trace native events a ls).map f = trace native (fun a l => (events a l).map f) a ls := by
  induction ls generalizing a with
  | nil => rfl
  | cons l ls ih =>
    cases hstep : native a l with
    | none => simp [trace, hstep]
    | some b => rw [trace_cons hstep, trace_cons hstep, List.map_append, ih]

/-- **A run under the monitor** is a run of the machine whose events the monitor accepts. -/
theorem run_eq_some_iff :
    run (step native monitor events) (a, s) ls = some (b, t) ↔
      run native a ls = some b ∧ run monitor s (trace native events a ls) = some t := by
  induction ls generalizing a s with
  | nil => simp
  | cons l ls ih =>
    rw [run_cons, Option.bind_eq_some_iff]
    constructor
    · rintro ⟨⟨c, u⟩, hstep, hrest⟩
      obtain ⟨hc, hu⟩ := step_eq_some_iff.mp hstep
      obtain ⟨hb, ht⟩ := ih.mp hrest
      rw [run_cons, hc, Option.bind_some, trace_cons hc, run_append, hu, Option.bind_some]
      exact ⟨hb, ht⟩
    · rintro ⟨hb, ht⟩
      rw [run_cons, Option.bind_eq_some_iff] at hb
      obtain ⟨c, hc, hrest⟩ := hb
      rw [trace_cons hc, run_append, Option.bind_eq_some_iff] at ht
      obtain ⟨u, hu, ht⟩ := ht
      exact ⟨(c, u), step_eq_some_iff.mpr ⟨hc, hu⟩, ih.mpr ⟨hrest, ht⟩⟩

end Runs

end Monitor
