import DrShadowStack.ExternalSS

/-!
# The entry that `on_execve` rewrites

`on_execve` looks for the entry of `DR_SS_ENV_FD` by comparing as many characters as the name has.
So an entry whose name goes on behind `DR_SS_ENV_FD` stops the scan as well, and is rewritten in
place of the variable if it stands before it.
-/

namespace DrShadowStack.ExternalSS

/-- The entry is one of the variable `DR_SS_ENV_FD`. -/
def IsFd (e : CString) : Prop := Environ.nameOf e = some DR_SS_ENV_FD.chars

instance (e : CString) : Decidable (IsFd e) :=
  inferInstanceAs (Decidable (Environ.nameOf e = some DR_SS_ENV_FD.chars))

/-- `on_execve` replaces the first entry of the variable by one with the value `v`, and nothing
else: in the array that it hands on the variable has the value `v` and every other name the value
that it had. -/
structure ReplacesFd (c : Client) (v : CString) (env : Environ) (pre : Bool) : Prop where
  replaced : ∃ before e after, env = before ++ e :: after ∧ IsFd e ∧ (∀ d ∈ before, ¬IsFd d) ∧
    onExecve c env pre = .handedOn (before ++ Environ.entry DR_SS_ENV_FD v :: after)
  lookups : ∀ env', onExecve c env pre = .handedOn env' →
    env'.getenv DR_SS_ENV_FD = some v ∧
      ∀ name : CString, 61 ∉ name.chars → name ≠ DR_SS_ENV_FD →
        env'.getenv name = env.getenv name

/-- The first entry that begins with `DR_SS_ENV_FD` is one of the variable. -/
def FirstHitIsFd (env : Environ) : Prop := ∀ e, env.find? BeginsWithFd = some e → IsFd e

/-! ## Entries by name -/

section Entries

variable {before after : Environ} {d e v : CString}

theorem fd_no_equals : 61 ∉ DR_SS_ENV_FD.chars := by decide

theorem isFd_iff : IsFd e ↔ (Environ.valueOf DR_SS_ENV_FD e).isSome :=
  (Environ.valueOf_isSome_iff fd_no_equals).symm

/-- An entry of the variable stops the scan. -/
theorem IsFd.beginsWithFd (h : IsFd e) : BeginsWithFd e := by
  obtain ⟨v, hv⟩ := Option.isSome_iff_exists.mp (isFd_iff.mp h)
  exact Environ.prefix_of_valueOf hv

theorem isFd_entry (v : CString) : IsFd (Environ.entry DR_SS_ENV_FD v) :=
  Environ.nameOf_entry fd_no_equals v

/-- An entry of the variable is none of another. -/
theorem IsFd.valueOf_eq_none (h : IsFd e) {name : CString} (hname : 61 ∉ name.chars)
    (hne : name ≠ DR_SS_ENV_FD) : Environ.valueOf name e = none := by
  rw [← Option.not_isSome_iff_eq_none, Environ.valueOf_isSome_iff hname, h, Option.some.injEq]
  exact fun heq => hne (CString.ext heq.symm)

/-- Replacing an entry of the variable by another leaves the lookups of all other names. -/
theorem getenv_replace (he : IsFd e) {name : CString} (hname : 61 ∉ name.chars)
    (hne : name ≠ DR_SS_ENV_FD) :
    Environ.getenv (before ++ Environ.entry DR_SS_ENV_FD v :: after) name =
      Environ.getenv (before ++ e :: after) name := by
  induction before with
  | nil =>
    rw [List.nil_append, List.nil_append, Environ.getenv_cons, Environ.getenv_cons,
      he.valueOf_eq_none hname hne, (isFd_entry v).valueOf_eq_none hname hne]
  | cons d before ih =>
    rw [List.cons_append, List.cons_append, Environ.getenv_cons, Environ.getenv_cons, ih]

/-- What the handler makes of the array as its scan splits it. -/
theorem onExecve_of_hit {c : Client} (hv : c.environ.getenv DR_SS_ENV_FD = some v)
    (hbefore : ∀ d ∈ before, ¬BeginsWithFd d) (he : BeginsWithFd e) (pre : Bool) :
    onExecve c (before ++ e :: after) pre =
      .handedOn (before ++ Environ.entry DR_SS_ENV_FD v :: after) := by
  have hfind : findFd (before ++ e :: after) = some before.length :=
    findFd_eq_some_iff.mpr ⟨before, e, after, rfl, rfl, hbefore, he⟩
  simp [onExecve, hfind, hv]

theorem find?_of_hit (hbefore : ∀ d ∈ before, ¬BeginsWithFd d) (he : BeginsWithFd e) :
    (before ++ e :: after).find? BeginsWithFd = some e := by
  rw [List.find?_append, List.find?_eq_none.mpr (by simpa using hbefore)]
  simp [he]

/-- Where the scan stops at an entry of the variable, it is the first of them and all is well. -/
theorem IsFd.replacesFd {c : Client} (hv : c.environ.getenv DR_SS_ENV_FD = some v)
    (hbefore : ∀ d ∈ before, ¬BeginsWithFd d) (he : IsFd e) (pre : Bool) :
    ReplacesFd c v (before ++ e :: after) pre := by
  have honto : onExecve c (before ++ e :: after) pre =
      .handedOn (before ++ Environ.entry DR_SS_ENV_FD v :: after) :=
    onExecve_of_hit hv hbefore he.beginsWithFd pre
  refine ⟨⟨before, e, after, rfl, he, fun d hd h => hbefore d hd h.beginsWithFd, honto⟩, ?_⟩
  intro env' henv'
  obtain rfl := ExecveEnd.handedOn.inj (honto.symm.trans henv')
  refine ⟨?_, fun name hname hne => getenv_replace he hname hne⟩
  have hset := @getenv_set before after e v hbefore
  simpa using hset

/-- Where the first entry of the variable was rewritten, the scan has stopped at it. -/
theorem ReplacesFd.isFd_hit {c : Client} {pre : Bool}
    (h : ReplacesFd c v (before ++ e :: after) pre)
    (hv : c.environ.getenv DR_SS_ENV_FD = some v) (hbefore : ∀ d ∈ before, ¬BeginsWithFd d)
    (he : BeginsWithFd e) : IsFd e := by
  obtain ⟨before', e', after', hsplit, he', hbefore', honto'⟩ := h.replaced
  have heq := ExecveEnd.handedOn.inj ((onExecve_of_hit hv hbefore he pre).symm.trans honto')
  rcases Nat.lt_trichotomy before.length before'.length with hlt | hlen | hgt
  · -- the new entry would be one of the variable before the first
    have hget := congrArg (fun l => l[before.length]?) heq
    simp only [List.getElem?_append_right le_rfl, Nat.sub_self, List.getElem?_cons_zero,
      List.getElem?_append_left hlt] at hget
    exact (hbefore' _ (List.mem_of_getElem? hget.symm) (isFd_entry v)).elim
  · obtain ⟨-, hrest⟩ := List.append_inj hsplit hlen
    exact (List.cons.inj hrest).1 ▸ he'
  · -- the scan would have stopped at the first entry of the variable
    have hget := congrArg (fun l => l[before'.length]?) hsplit
    simp only [List.getElem?_append_right le_rfl, Nat.sub_self, List.getElem?_cons_zero,
      List.getElem?_append_left hgt] at hget
    exact (hbefore _ (List.mem_of_getElem? hget) he'.beginsWithFd).elim

end Entries

/-- **The rewrite hits the variable exactly where no other entry that begins with its name comes
first.** -/
theorem replacesFd_iff {c : Client} {v : CString} (hv : c.environ.getenv DR_SS_ENV_FD = some v)
    {env : Environ} (henv : ∃ e ∈ env, IsFd e) (pre : Bool) :
    ReplacesFd c v env pre ↔ FirstHitIsFd env := by
  have hhit : HoldsFd env := by
    obtain ⟨e, he, hfd⟩ := henv
    exact ⟨e, he, hfd.beginsWithFd⟩
  obtain ⟨i, hi⟩ := Option.isSome_iff_exists.mp
    (Option.isSome_iff_ne_none.mpr fun hnone => findFd_eq_none_iff.mp hnone hhit)
  obtain ⟨before, hit, after, rfl, rfl, hbefore, hbegins⟩ := findFd_eq_some_iff.mp hi
  have hfind : (before ++ hit :: after).find? BeginsWithFd = some hit :=
    find?_of_hit hbefore hbegins
  constructor
  · intro h e he
    obtain rfl := Option.some.inj (hfind.symm.trans he)
    exact h.isFd_hit hv hbefore hbegins
  · intro hfirst
    exact (hfirst hit hfind).replacesFd hv hbefore pre

/-- An array in which the variable stands between two others, of which one begins as it does. -/
def inheritedEnviron : Environ :=
  [CString.lit "PATH=/bin", CString.lit "DR_SS_ENV_FD_VAR=none", CString.lit "DR_SS_ENV_FD_VARS=1"]

theorem replacesFd_iff_inherited :
    ReplacesFd ⟨5, [Environ.entry DR_SS_ENV_FD (sockStr 5)]⟩ (sockStr 5) inheritedEnviron true ↔
      FirstHitIsFd inheritedEnviron :=
  replacesFd_iff rfl (by decide) true

/-- An array in which an entry whose name goes on stands before the variable, which is empty. -/
def longerNameFirst : Environ :=
  [CString.lit "DR_SS_ENV_FD_VAR_OLD=4", Environ.entry DR_SS_ENV_FD ⟨[], List.not_mem_nil⟩]

/-- The other variable is lost, and the empty entry stays behind the one that takes its place. -/
theorem not_replacesFd_longerName :
    (∃ env', onExecve ⟨5, [Environ.entry DR_SS_ENV_FD (sockStr 5)]⟩ longerNameFirst true =
        .handedOn env' ∧ env'.getenv (CString.lit "DR_SS_ENV_FD_VAR_OLD") = none) ∧
      ¬ReplacesFd ⟨5, [Environ.entry DR_SS_ENV_FD (sockStr 5)]⟩ (sockStr 5) longerNameFirst
        true := by
  refine ⟨⟨_, rfl, rfl⟩, fun h => ?_⟩
  have hfd : IsFd (CString.lit "DR_SS_ENV_FD_VAR_OLD=4") :=
    @ReplacesFd.isFd_hit [] _ _ _ _ _ h rfl (by simp) (by decide)
  exact absurd hfd (by decide)

end DrShadowStack.ExternalSS
