import Mathlib.Data.List.Basic
import Mathlib.Logic.Function.Basic

/-!
# Runs whose output depends on their inputs alone

Each step of a run adds to the output. It has an input, and beside it what nobody fixes. Two runs
with the same inputs have the same output exactly where each step does, provided that the lengths do
not depend on the rest: then what one step adds stands at the same place in both outputs.
-/

namespace TwoRuns

variable {ω ι β : Type*} {input : ω → ι} {f : ω → List β} {inputs : List ι}

/-- All runs with these inputs have the same output. -/
def SameOutput (input : ω → ι) (f : ω → List β) (inputs : List ι) : Prop :=
  ∀ ws ws' : List ω, ws.map input = inputs → ws'.map input = inputs → ws.flatMap f = ws'.flatMap f

/-- All steps with this input add the same. -/
def SameStep (input : ω → ι) (f : ω → List β) (i : ι) : Prop :=
  ∀ w w', input w = i → input w' = i → f w = f w'

/-- Steps that are the same can be put one after the other. -/
theorem sameOutput_of_steps (h : ∀ i ∈ inputs, SameStep input f i) : SameOutput input f inputs := by
  intro ws ws' hws hws'
  induction inputs generalizing ws ws' with
  | nil => rw [List.map_eq_nil_iff.mp hws, List.map_eq_nil_iff.mp hws']
  | cons i inputs ih =>
    obtain ⟨w, ws, rfl, hw, hrest⟩ := List.map_eq_cons_iff.mp hws
    obtain ⟨w', ws', rfl, hw', hrest'⟩ := List.map_eq_cons_iff.mp hws'
    have hhead : f w = f w' := h i List.mem_cons_self w w' hw hw'
    have htail : ws.flatMap f = ws'.flatMap f :=
      ih (fun j hj => h j (List.mem_cons_of_mem _ hj)) ws ws' hrest hrest'
    rw [List.flatMap_cons, List.flatMap_cons, hhead, htail]

/-- A step is found again in the output of the runs that differ in it alone. -/
theorem SameOutput.step (hinput : Function.Surjective input)
    (hlength : ∀ w w', input w = input w' → (f w).length = (f w').length)
    (h : SameOutput input f inputs) {i : ι} (hi : i ∈ inputs) : SameStep input f i := by
  rintro w w' rfl hw'
  obtain ⟨before, behind, rfl⟩ := List.append_of_mem hi
  -- the other steps are the same in both runs
  obtain ⟨ws, rfl⟩ := List.map_surjective_iff.mpr hinput before
  obtain ⟨ws', rfl⟩ := List.map_surjective_iff.mpr hinput behind
  have hsame := h (ws ++ w :: ws') (ws ++ w' :: ws') (by simp) (by simp [hw'])
  simp only [List.flatMap_append, List.flatMap_cons, List.append_cancel_left_eq] at hsame
  exact (List.append_inj hsame (hlength w w' hw'.symm)).1

/-- **The output of a run is the same for all runs with its inputs exactly where each step is.** -/
theorem sameOutput_iff (hinput : Function.Surjective input)
    (hlength : ∀ w w', input w = input w' → (f w).length = (f w').length) :
    SameOutput input f inputs ↔ ∀ i ∈ inputs, SameStep input f i :=
  ⟨fun h _ hi => h.step hinput hlength hi, sameOutput_of_steps⟩

end TwoRuns
