import Mathlib.Data.Int.Basic
import Mathlib.Data.List.Basic

/-!
# C strings and environment arrays

A C string is its characters up to the terminating NUL. The subtype keeps the NUL out of them, so
that comparing characters and comparing memory up to the terminator are the same thing.

An environment array is the list of its entries; the NULL pointer that ends the array is the end of
the list. `getenv` returns what follows the first entry `name=`, `setenv` overwrites that entry or
appends one, `unsetenv` removes every entry of the variable.
-/

/-- A C string: the characters before its terminating NUL. -/
structure CString where
  chars : List UInt8
  noNul : 0 ∉ chars
deriving DecidableEq

namespace CString

/-- The characters of a string literal. -/
def bytesOf (s : String) : List UInt8 := s.toList.map fun c => c.toNat.toUInt8

/-- A string literal. -/
def lit (s : String) (h : 0 ∉ bytesOf s := by decide) : CString := ⟨bytesOf s, h⟩

theorem nul_notMem_nil : (0 : UInt8) ∉ ([] : List UInt8) := List.not_mem_nil

/-- `""` -/
def empty : CString := ⟨[], nul_notMem_nil⟩

@[simp] theorem chars_empty : empty.chars = [] := rfl

@[ext] theorem ext {a b : CString} (h : a.chars = b.chars) : a = b := by
  cases a
  cases b
  congr

/-- `a` followed by `b`. -/
def append (a b : CString) : CString where
  chars := a.chars ++ b.chars
  noNul := by simp [a.noNul, b.noNul]

instance : Append CString := ⟨append⟩

@[simp] theorem chars_append (a b : CString) : (a ++ b).chars = a.chars ++ b.chars := rfl

/-- `strlen`. -/
def strlen (a : CString) : ℕ := a.chars.length

/-- What is left of a string after its first `n` characters. -/
def drop (a : CString) (n : ℕ) : CString where
  chars := a.chars.drop n
  noNul := fun h => a.noNul (List.mem_of_mem_drop h)

@[simp] theorem chars_drop (a : CString) (n : ℕ) : (a.drop n).chars = a.chars.drop n := rfl

/-- `strncmp` on the characters: the difference of the first two that differ among the first `n`,
the end of either string counting as a NUL. -/
def strncmpChars : List UInt8 → List UInt8 → ℕ → ℤ
  | _, _, 0 => 0
  | [], [], _ + 1 => 0
  | [], b :: _, _ + 1 => 0 - b.toNat
  | a :: _, [], _ + 1 => a.toNat
  | a :: as, b :: bs, n + 1 => if a = b then strncmpChars as bs n else a.toNat - b.toNat

/-- `strncmp`. -/
def strncmp (a b : CString) (n : ℕ) : ℤ := strncmpChars a.chars b.chars n

theorem strncmpChars_eq_zero_iff {a b : List UInt8} (hb : 0 ∉ b) :
    strncmpChars a b b.length = 0 ↔ b <+: a := by
  induction b generalizing a with
  | nil => cases a <;> simp [strncmpChars]
  | cons c b ih =>
    -- `b` has no NUL, so that its end cannot be taken for a character of `a`
    have hc : c ≠ 0 := fun h => hb (by simp [h])
    have hrest : 0 ∉ b := fun h => hb (List.mem_cons_of_mem c h)
    have hcnat : c.toNat ≠ 0 := fun h => hc (UInt8.toNat_inj.mp h)
    cases a with
    | nil =>
      simp only [strncmpChars, List.length_cons, List.prefix_nil, reduceCtorEq, iff_false]
      omega
    | cons d a =>
      rw [List.length_cons, strncmpChars, List.cons_prefix_cons]
      split
      · next heq => simp [ih hrest, heq]
      · next hne =>
        have hne' : d.toNat ≠ c.toNat := fun h => hne (UInt8.toNat_inj.mp h)
        have hsub : (d.toNat : ℤ) - c.toNat ≠ 0 := by omega
        simp [hsub, Ne.symm hne]

/-- A comparison of the first `strlen b` characters tells whether `b` is a prefix. -/
theorem strncmp_eq_zero_iff (a b : CString) :
    strncmp a b b.strlen = 0 ↔ b.chars <+: a.chars :=
  strncmpChars_eq_zero_iff b.noNul

end CString

/-- An environment array, without the NULL pointer that ends it. -/
abbrev Environ := List CString

namespace Environ

/-- The environment entry `name=value`. -/
def entry (name value : CString) : CString := name ++ CString.lit "=" ++ value

/-- The value of an entry, when the entry is one of the variable `name`. -/
def valueOf (name e : CString) : Option CString :=
  if (name ++ CString.lit "=").chars <+: e.chars then some (e.drop (name.strlen + 1)) else none

/-- The name of an entry: the text before its first `=`, if it holds one. -/
def nameOf (e : CString) : Option (List UInt8) :=
  if 61 ∈ e.chars then some (e.chars.takeWhile fun c => c ≠ 61) else none

/-- `getenv`: the value of the first entry of the variable. -/
def getenv (env : Environ) (name : CString) : Option CString := env.findSome? (valueOf name)

/-- `setenv` with `overwrite` set: the first entry of the variable gets the value, or a new entry
does. -/
def setenv : Environ → CString → CString → Environ
  | [], name, value => [entry name value]
  | e :: env, name, value =>
    if (valueOf name e).isSome then entry name value :: env else e :: setenv env name value

/-- `unsetenv`: removes every entry of the variable. -/
def unsetenv (env : Environ) (name : CString) : Environ :=
  env.filter fun e => (valueOf name e).isNone

theorem valueOf_entry (name value : CString) : valueOf name (entry name value) = some value := by
  have hpre : (name ++ CString.lit "=").chars <+: (entry name value).chars :=
    ⟨value.chars, rfl⟩
  rw [valueOf, if_pos hpre, Option.some.injEq]
  ext1
  have hlen : (name ++ CString.lit "=").chars.length = name.strlen + 1 := by
    simp [CString.strlen, CString.lit, CString.bytesOf]
  show (((name ++ CString.lit "=").chars ++ value.chars).drop (name.strlen + 1)) = value.chars
  rw [← hlen, List.drop_left]

/-- An entry of the variable begins with its name. -/
theorem prefix_of_valueOf {name e v : CString} (h : valueOf name e = some v) :
    name.chars <+: e.chars := by
  unfold valueOf at h
  split at h
  · next hpre =>
    exact (List.prefix_append name.chars (CString.lit "=").chars).trans hpre
  · simp at h

/-- An entry is one of a variable if its name is the variable's. -/
theorem valueOf_isSome_iff {name e : CString} (hname : 61 ∉ name.chars) :
    (valueOf name e).isSome ↔ nameOf e = some name.chars := by
  have hkeep : ∀ c ∈ name.chars, (decide (c ≠ 61)) = true := by
    rintro c hc
    simpa using fun heq : c = 61 => hname (heq ▸ hc)
  have hentry : (valueOf name e).isSome ↔ name.chars ++ [61] <+: e.chars := by
    rw [valueOf]
    split <;> simp_all [CString.lit, CString.bytesOf]
  rw [hentry, nameOf]
  constructor
  · rintro ⟨value, hvalue⟩
    rw [← hvalue, List.append_assoc, List.takeWhile_append_of_pos hkeep]
    simp
  · intro h
    split at h
    · next heq =>
      have hsplit := List.takeWhile_append_dropWhile (p := fun c => decide (c ≠ 61)) (l := e.chars)
      rw [Option.some.inj h] at hsplit
      cases hdrop : e.chars.dropWhile fun c => decide (c ≠ 61) with
      | nil =>
        rw [hdrop, List.append_nil] at hsplit
        exact absurd (hsplit ▸ heq) hname
      | cons c rest =>
        have hc := List.head?_dropWhile_not (fun c : UInt8 => decide (c ≠ 61)) e.chars
        rw [hdrop] at hc hsplit
        obtain rfl : c = 61 := by simpa using hc
        exact ⟨rest, by simpa using hsplit⟩
    · cases h

theorem nameOf_entry {name : CString} (hname : 61 ∉ name.chars) (value : CString) :
    nameOf (entry name value) = some name.chars := by
  rw [← valueOf_isSome_iff hname, valueOf_entry, Option.isSome_some]

@[simp] theorem getenv_nil (name : CString) : getenv [] name = none := rfl

theorem getenv_cons (e : CString) (env : Environ) (name : CString) :
    getenv (e :: env) name = (valueOf name e).or (getenv env name) := by
  rw [getenv, List.findSome?_cons]
  cases valueOf name e <;> rfl

/-- What was set is read back. -/
theorem getenv_setenv (env : Environ) (name value : CString) :
    getenv (setenv env name value) name = some value := by
  induction env with
  | nil => rw [setenv, getenv_cons, valueOf_entry, Option.some_or]
  | cons e env ih =>
    rw [setenv]
    split
    · rw [getenv_cons, valueOf_entry, Option.some_or]
    · next hno =>
      rw [Option.not_isSome_iff_eq_none] at hno
      rw [getenv_cons, hno, Option.none_or, ih]

theorem getenv_eq_none_iff {env : Environ} {name : CString} :
    env.getenv name = none ↔ ∀ e ∈ env, valueOf name e = none := List.findSome?_eq_none_iff

/-- What was removed is gone. -/
theorem getenv_unsetenv (env : Environ) (name : CString) : (env.unsetenv name).getenv name = none :=
  getenv_eq_none_iff.mpr fun e he => by simpa using (List.mem_filter.mp he).2

theorem unsetenv_of_getenv_eq_none {env : Environ} {name : CString} (h : env.getenv name = none) :
    env.unsetenv name = env :=
  List.filter_eq_self.mpr fun e he => by simp [getenv_eq_none_iff.mp h e he]

/-- A variable that is not there yet gets a new entry. -/
theorem setenv_of_getenv_eq_none {env : Environ} {name : CString} (h : env.getenv name = none)
    (value : CString) : env.setenv name value = env ++ [entry name value] := by
  induction env with
  | nil => rfl
  | cons e env ih =>
    rw [getenv_eq_none_iff, List.forall_mem_cons] at h
    rw [setenv, h.1, if_neg (by simp), ih (getenv_eq_none_iff.mpr h.2), List.cons_append]

end Environ
