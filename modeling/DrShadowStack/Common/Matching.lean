import DrShadowStack.Common.StackDiscipline
import Mathlib.Data.Finset.Card
import Mathlib.Data.List.Nodup

/-!
# The matching of pops with pushes, and the accepted language

The match of a pop is defined on positions of the operation list alone, with no stack in sight: it
is the most recent earlier push of the same segment (no clear in between) that no earlier pop has
already taken (`matchOf`, characterised by `matchOf_eq_some_iff`). The definition recurses along the
list through `takenBefore`, the positions taken by the pops so far.

`run_take_eq_some_iff` is the language theorem: the stack machine of
`DrShadowStack.Common.StackDiscipline` accepts a prefix exactly when the match of every pop in it
exists and admits the request, and then its stack holds the entries of the pushes still `pending`,
most recent first.
-/

namespace StackDiscipline

open PartialRun

variable {α β : Type*}

/-- The entry pushed at position `j`, if a push stands there. -/
def pushedAt (ops : List (Op α β)) (j : ℕ) : Option α :=
  match ops[j]? with
  | some (.push a) => some a
  | _ => none

/-- The request of the pop at position `i`, if a pop stands there. -/
def requestedAt (ops : List (Op α β)) (i : ℕ) : Option β :=
  match ops[i]? with
  | some (.pop b) => some b
  | _ => none

/-- Does a clear stand at position `k`? -/
def clearedAt (ops : List (Op α β)) (k : ℕ) : Bool :=
  match ops[k]? with
  | some .clear => true
  | _ => false

/-- Positions `j ≤ i` lie in the same segment: no clear stands at `j` or between `j` and `i`. -/
def sameSegment (ops : List (Op α β)) (j i : ℕ) : Bool :=
  (List.range i).all fun k => k < j || !clearedAt ops k

/-- The pushes before position `i`, in the segment of `i`, that `taken` does not name; most recent
first. -/
def openPushes (ops : List (Op α β)) (taken : List ℕ) (i : ℕ) : List ℕ :=
  (List.range i).reverse.filter fun j =>
    (pushedAt ops j).isSome && sameSegment ops j i && !taken.contains j

/-- The pushes that the pops before position `i` are matched with. -/
def takenBefore (ops : List (Op α β)) : ℕ → List ℕ
  | 0 => []
  | i + 1 =>
    if (requestedAt ops i).isSome then
      (openPushes ops (takenBefore ops i) i).head?.toList ++ takenBefore ops i
    else takenBefore ops i

/-- The pushes still unmatched at position `i`, in the segment of `i`, most recent first. -/
def pending (ops : List (Op α β)) (i : ℕ) : List ℕ :=
  openPushes ops (takenBefore ops i) i

/-- The push matched by a pop at position `i`: the most recent one still unmatched. -/
def matchOf (ops : List (Op α β)) (i : ℕ) : Option ℕ :=
  (pending ops i).head?

/-- The entries of the pending pushes, most recent first. -/
def stackAt (ops : List (Op α β)) (i : ℕ) : List α :=
  (pending ops i).filterMap (pushedAt ops)

/-- If a pop stands at position `i`, its match exists and admits the request. -/
def PopMatched (ok : α → β → Bool) (ops : List (Op α β)) (i : ℕ) : Prop :=
  ∀ b, requestedAt ops i = some b →
    ∃ j a, matchOf ops i = some j ∧ pushedAt ops j = some a ∧ ok a b = true

/-! ## What the matching says -/

section Characterisation

variable {ops : List (Op α β)} {i j : ℕ}

theorem sameSegment_iff :
    sameSegment ops j i = true ↔ ∀ k, j ≤ k → k < i → clearedAt ops k = false := by
  simp only [sameSegment, List.all_eq_true, List.mem_range, Bool.or_eq_true, decide_eq_true_eq,
    Bool.not_eq_true']
  constructor
  · intro h k hjk hki
    rcases h k hki with hlt | hk
    · omega
    · exact hk
  · intro h k hki
    rcases Nat.lt_or_ge k j with hlt | hge
    · exact .inl hlt
    · exact .inr (h k hge hki)

theorem mem_openPushes {taken : List ℕ} :
    j ∈ openPushes ops taken i ↔
      j < i ∧ (pushedAt ops j).isSome ∧ sameSegment ops j i = true ∧ j ∉ taken := by
  simp [openPushes, and_assoc]

theorem mem_takenBefore :
    j ∈ takenBefore ops i ↔
      ∃ k < i, (requestedAt ops k).isSome ∧ matchOf ops k = some j := by
  induction i with
  | zero => simp [takenBefore]
  | succ i ih =>
    have hsplit : (∃ k < i + 1, (requestedAt ops k).isSome ∧ matchOf ops k = some j) ↔
        ((requestedAt ops i).isSome ∧ matchOf ops i = some j) ∨
          ∃ k < i, (requestedAt ops k).isSome ∧ matchOf ops k = some j := by
      constructor
      · rintro ⟨k, hk, h⟩
        rcases Nat.lt_succ_iff_lt_or_eq.mp hk with hlt | rfl
        · exact .inr ⟨k, hlt, h⟩
        · exact .inl h
      · rintro (h | ⟨k, hk, h⟩)
        · exact ⟨i, by omega, h⟩
        · exact ⟨k, by omega, h⟩
    rw [hsplit, ← ih, takenBefore]
    split
    · next hpop =>
      simp [hpop, matchOf, pending]
    · next hpop =>
      simp [hpop]

theorem mem_pending :
    j ∈ pending ops i ↔ j < i ∧ (pushedAt ops j).isSome ∧
      (∀ k, j ≤ k → k < i → clearedAt ops k = false) ∧
        ∀ k < i, (requestedAt ops k).isSome → matchOf ops k ≠ some j := by
  rw [pending, mem_openPushes, mem_takenBefore, sameSegment_iff]
  simp only [not_exists, not_and, ne_eq]

/-- The pending pushes are listed by falling position. -/
theorem pending_sortedGT : (pending ops i).Pairwise (· > ·) := by
  apply List.Pairwise.filter
  rw [List.pairwise_reverse]
  exact List.pairwise_lt_range

/-- **The match of a pop** is the last push before it, in its segment, that no earlier pop is
matched with. -/
theorem matchOf_eq_some_iff :
    matchOf ops i = some j ↔ j ∈ pending ops i ∧ ∀ j' ∈ pending ops i, j' ≤ j := by
  have hsorted : (pending ops i).Pairwise (· > ·) := pending_sortedGT
  rw [matchOf]
  cases hp : pending ops i with
  | nil => simp
  | cons j₀ rest =>
    rw [hp, List.pairwise_cons] at hsorted
    constructor
    · intro h
      obtain rfl : j₀ = j := by simpa using h
      refine ⟨List.mem_cons_self, fun j' hj' => ?_⟩
      rcases List.mem_cons.mp hj' with rfl | hrest
      · exact le_rfl
      · exact Nat.le_of_lt (hsorted.1 j' hrest)
    · rintro ⟨hmem, hmax⟩
      rcases List.mem_cons.mp hmem with rfl | hrest
      · rfl
      · have hlt := hsorted.1 j hrest
        have hle := hmax j₀ List.mem_cons_self
        omega

/-- A matched push is an earlier one. -/
theorem matchOf_lt (h : matchOf ops i = some j) : j < i :=
  (mem_pending.mp (matchOf_eq_some_iff.mp h).1).1

/-- A matched position is a push. -/
theorem pushedAt_isSome_of_matchOf (h : matchOf ops i = some j) : (pushedAt ops j).isSome :=
  (mem_pending.mp (matchOf_eq_some_iff.mp h).1).2.1

/-- Two pops are never matched with the same push. -/
theorem matchOf_injective {i' : ℕ} (hi : (requestedAt ops i).isSome)
    (hi' : (requestedAt ops i').isSome) (h : matchOf ops i = some j)
    (h' : matchOf ops i' = some j) : i = i' := by
  have hfree := (mem_pending.mp (matchOf_eq_some_iff.mp h).1).2.2.2
  have hfree' := (mem_pending.mp (matchOf_eq_some_iff.mp h').1).2.2.2
  rcases Nat.lt_trichotomy i i' with hlt | heq | hgt
  · exact absurd h (hfree' i hlt hi)
  · exact heq
  · exact absurd h' (hfree i' hgt hi')

/-- Among the first `n` operations, the pops whose match satisfies `P` are no more than the pushes
that do. -/
theorem card_pops_le (ops : List (Op α β)) (n : ℕ) (P : ℕ → Prop) [DecidablePred P] :
    ((Finset.range n).filter fun i =>
        (requestedAt ops i).isSome ∧ ∃ j, matchOf ops i = some j ∧ P j).card ≤
      ((Finset.range n).filter fun j => (pushedAt ops j).isSome ∧ P j).card := by
  classical
  apply Finset.card_le_card_of_injOn fun i => (matchOf ops i).getD 0
  · intro i hi
    simp only [Finset.coe_filter, Finset.mem_range, Set.mem_ofPred_eq] at hi ⊢
    obtain ⟨hin, -, j, hj, hP⟩ := hi
    rw [hj, Option.getD_some]
    exact ⟨lt_trans (matchOf_lt hj) hin, pushedAt_isSome_of_matchOf hj, hP⟩
  · intro i hi i' hi' heq
    simp only [Finset.coe_filter, Finset.mem_range, Set.mem_ofPred_eq] at hi hi'
    obtain ⟨-, hpop, j, hj, -⟩ := hi
    obtain ⟨-, hpop', j', hj', -⟩ := hi'
    obtain rfl : j = j' := by simpa [hj, hj'] using heq
    exact matchOf_injective hpop hpop' hj hj'

end Characterisation

/-! ## How the pending pushes evolve -/

section Evolution

variable {ops : List (Op α β)} {i : ℕ}

theorem sameSegment_succ {j : ℕ} (hj : j ≤ i) :
    sameSegment ops j (i + 1) = (sameSegment ops j i && !clearedAt ops i) := by
  rw [sameSegment, List.range_succ, List.all_append, ← sameSegment]
  simp [Nat.not_lt.mpr hj]

/-- One more position adds itself when it is a push, and removes everything when it is a clear. -/
theorem openPushes_succ (taken : List ℕ) :
    openPushes ops taken (i + 1) =
      if clearedAt ops i then []
      else if (pushedAt ops i).isSome && !taken.contains i then i :: openPushes ops taken i
      else openPushes ops taken i := by
  have hrange : ∀ j ∈ (List.range i).reverse, j ≤ i := by
    intro j hj
    rw [List.mem_reverse, List.mem_range] at hj
    omega
  have hself : sameSegment ops i (i + 1) = !clearedAt ops i := by
    rw [sameSegment_succ le_rfl]
    have htriv : sameSegment ops i i = true := by
      rw [sameSegment_iff]
      intros
      omega
    rw [htriv, Bool.true_and]
  rw [openPushes, List.range_succ, List.reverse_append, List.reverse_singleton,
    List.singleton_append, List.filter_cons, hself]
  cases hc : clearedAt ops i with
  | true =>
    -- a clear at `i` ends the segment of every earlier push
    simp only [Bool.not_true, Bool.and_false, Bool.false_and, Bool.false_eq_true, if_false, if_true]
    apply List.filter_eq_nil_iff.mpr
    intro j hj
    rw [sameSegment_succ (hrange j hj), hc]
    simp
  | false =>
    have hrest : ((List.range i).reverse.filter fun j =>
        (pushedAt ops j).isSome && sameSegment ops j (i + 1) && !taken.contains j) =
          openPushes ops taken i := by
      rw [openPushes]
      apply List.filter_congr
      intro j hj
      rw [sameSegment_succ (hrange j hj), hc]
      simp
    rw [hrest]
    simp

theorem pending_zero : pending ops 0 = [] := rfl

theorem notMem_takenBefore {j : ℕ} (hj : i ≤ j) : j ∉ takenBefore ops i := by
  intro hmem
  obtain ⟨k, hk, -, hmatch⟩ := mem_takenBefore.mp hmem
  have := matchOf_lt hmatch
  omega

theorem pending_succ_push {a : α} (h : ops[i]? = some (.push a)) :
    pending ops (i + 1) = i :: pending ops i := by
  have htaken : takenBefore ops (i + 1) = takenBefore ops i := by
    simp [takenBefore, requestedAt, h]
  have hfree : i ∉ takenBefore ops i := notMem_takenBefore le_rfl
  rw [pending, htaken, openPushes_succ]
  simp [clearedAt, pushedAt, h, hfree, pending]

theorem pending_succ_clear (h : ops[i]? = some .clear) : pending ops (i + 1) = [] := by
  rw [pending, openPushes_succ]
  simp [clearedAt, h]

theorem pending_succ_pop {b : β} (h : ops[i]? = some (.pop b)) :
    pending ops (i + 1) = (pending ops i).tail := by
  have htaken : takenBefore ops (i + 1) =
      (pending ops i).head?.toList ++ takenBefore ops i := by
    simp [takenBefore, requestedAt, h, pending]
  have hskip : ∀ taken, openPushes ops taken (i + 1) = openPushes ops taken i := by
    intro taken
    rw [openPushes_succ]
    simp [clearedAt, pushedAt, h]
  rw [pending, htaken, hskip]
  have hsorted : (pending ops i).Pairwise (· > ·) := pending_sortedGT
  cases hp : pending ops i with
  | nil => simpa [pending] using hp
  | cons j₀ rest =>
    -- taking `j₀` filters it out of the open pushes, and it is the head only
    rw [hp, List.pairwise_cons] at hsorted
    have hfilter : openPushes ops ((j₀ :: rest).head?.toList ++ takenBefore ops i) i =
        (pending ops i).filter fun j => !(j == j₀) := by
      rw [pending, openPushes, openPushes, List.filter_filter]
      apply List.filter_congr
      intro j _
      simp only [List.head?_cons, Option.toList_some, List.singleton_append, List.contains_cons]
      cases hj : (j == j₀) <;> simp
    rw [hfilter, hp, List.tail_cons, List.filter_cons]
    simp only [BEq.rfl, Bool.not_true, Bool.false_eq_true, if_false]
    apply List.filter_eq_self.mpr
    intro j hj
    have hlt := hsorted.1 j hj
    simp
    omega

end Evolution

/-! ## The language theorem -/

section Language

variable {ok : α → β → Bool} {ops : List (Op α β)}

/-- One operation, taken from the stack of the pending entries. -/
theorem step_stackAt {i : ℕ} {o : Op α β} (h : ops[i]? = some o) {st : List α} :
    step ok (stackAt ops i) o = some st ↔ PopMatched ok ops i ∧ st = stackAt ops (i + 1) := by
  cases o with
  | push a =>
    have hvac : PopMatched ok ops i := by
      intro b hb
      simp [requestedAt, h] at hb
    have hnext : stackAt ops (i + 1) = a :: stackAt ops i := by
      rw [stackAt, pending_succ_push h, List.filterMap_cons_some]
      · rfl
      · simp [pushedAt, h]
    rw [step_push, hnext, Option.some.injEq, eq_comm]
    exact ⟨fun hst => ⟨hvac, hst⟩, fun hst => hst.2⟩
  | clear =>
    have hvac : PopMatched ok ops i := by
      intro b hb
      simp [requestedAt, h] at hb
    have hnext : stackAt ops (i + 1) = [] := by
      rw [stackAt, pending_succ_clear h, List.filterMap_nil]
    rw [step_clear, hnext, Option.some.injEq, eq_comm]
    exact ⟨fun hst => ⟨hvac, hst⟩, fun hst => hst.2⟩
  | pop b =>
    have hreq : requestedAt ops i = some b := by simp [requestedAt, h]
    rw [stackAt, stackAt, pending_succ_pop h]
    cases hp : pending ops i with
    | nil =>
      have hno : matchOf ops i = none := by rw [matchOf, hp]; rfl
      simp only [List.filterMap_nil, step_pop_nil, reduceCtorEq, false_iff, not_and]
      intro hmatched
      obtain ⟨j, a, hj, -⟩ := hmatched b hreq
      rw [hno] at hj
      cases hj
    | cons j₀ rest =>
      have hmatch : matchOf ops i = some j₀ := by rw [matchOf, hp]; rfl
      obtain ⟨a, ha⟩ := Option.isSome_iff_exists.mp (pushedAt_isSome_of_matchOf hmatch)
      have hok : PopMatched ok ops i ↔ ok a b = true := by
        constructor
        · intro hmatched
          obtain ⟨j, a', hj, ha', hok⟩ := hmatched b hreq
          obtain rfl : j₀ = j := by simpa [hmatch] using hj
          obtain rfl : a = a' := by simpa [ha] using ha'
          exact hok
        · intro hok b' hb'
          obtain rfl : b = b' := by simpa [hreq] using hb'
          exact ⟨j₀, a, hmatch, ha, hok⟩
      rw [List.filterMap_cons_some ha, step_pop_cons, hok, List.tail_cons]
      cases ok a b <;> simp [eq_comm]

/-- **The language theorem.** A prefix is accepted exactly when every pop in it is matched with a
push that admits its request; the stack is then made of the pending pushes. -/
theorem run_take_eq_some_iff {n : ℕ} (hn : n ≤ ops.length) {st : List α} :
    run (step ok) [] (ops.take n) = some st ↔
      (∀ i < n, PopMatched ok ops i) ∧ st = stackAt ops n := by
  induction n generalizing st with
  | zero => simp [stackAt, pending_zero, eq_comm]
  | succ n ih =>
    have hget : ops[n]? = some ops[n] := List.getElem?_eq_getElem hn
    rw [List.take_succ_eq_append_getElem hn, run_concat, Option.bind_eq_some_iff]
    constructor
    · rintro ⟨mid, hmid, hlast⟩
      obtain ⟨hpops, rfl⟩ := (ih (by omega)).mp hmid
      obtain ⟨hmatched, rfl⟩ := (step_stackAt hget).mp hlast
      refine ⟨fun i hi => ?_, rfl⟩
      rcases Nat.lt_succ_iff_lt_or_eq.mp hi with hlt | rfl
      · exact hpops i hlt
      · exact hmatched
    · rintro ⟨hpops, rfl⟩
      exact ⟨stackAt ops n, (ih (by omega)).mpr ⟨fun i hi => hpops i (by omega), rfl⟩,
        (step_stackAt hget).mpr ⟨hpops n (by omega), rfl⟩⟩

/-- The language theorem for a whole run. -/
theorem run_eq_some_iff {st : List α} :
    run (step ok) [] ops = some st ↔
      (∀ i, PopMatched ok ops i) ∧ st = stackAt ops ops.length := by
  have htake : run (step ok) [] (ops.take ops.length) = some st ↔ _ := run_take_eq_some_iff le_rfl
  rw [List.take_length] at htake
  rw [htake]
  refine and_congr_left fun _ => ⟨fun h i => ?_, fun h i _ => h i⟩
  rcases Nat.lt_or_ge i ops.length with hlt | hge
  · exact h i hlt
  · intro b hb
    simp [requestedAt, List.getElem?_eq_none hge] at hb

end Language

end StackDiscipline
