import Mathlib.Data.Int.Basic
import Mathlib.Data.List.TakeWhile
import Mathlib.Data.Nat.Digits.Defs

/-!
# Decimal numerals

`toString` prints an integer as `std::to_string` does, `stoi` reads a string as `std::stoi` does:
leading white space is skipped, a sign may follow, the longest run of digits is read and the rest
ignored; a string without digits and a value that does not fit an `int` are refused (the function
throws). Reading what was printed gives the integer back (`stoi_toString`).
-/

namespace Decimal

/-- The character of a decimal digit. -/
def digitChar (d : ℕ) : UInt8 := UInt8.ofNat (48 + d)

/-- Is the character a decimal digit? -/
def isDigit (c : UInt8) : Bool := 48 ≤ c.toNat && c.toNat ≤ 57

/-- Is the character white space for `isspace` in the C locale? -/
def isSpace (c : UInt8) : Bool := c.toNat == 32 || (9 ≤ c.toNat && c.toNat ≤ 13)

/-- The numeral of a natural number. -/
def natChars (n : ℕ) : List UInt8 :=
  if n = 0 then [digitChar 0] else (Nat.digits 10 n).reverse.map digitChar

/-- The numeral that `std::to_string` prints. -/
def toString (n : ℤ) : List UInt8 :=
  if n < 0 then 45 :: natChars n.natAbs else natChars n.natAbs

/-- The number that a run of digits stands for. -/
def digitsValue (cs : List UInt8) : ℕ := cs.foldl (fun acc c => acc * 10 + (c.toNat - 48)) 0

/-- The sign in front of a numeral, and what follows it. -/
def signOf : List UInt8 → ℤ × List UInt8
  | 45 :: cs => (-1, cs)
  | 43 :: cs => (1, cs)
  | cs => (1, cs)

/-- The smallest and the largest `int`. -/
def INT_MIN : ℤ := -2 ^ 31

@[inherit_doc INT_MIN]
def INT_MAX : ℤ := 2 ^ 31 - 1

/-- `std::stoi` in base ten; `none` where it throws. -/
def stoi (s : List UInt8) : Option ℤ :=
  let signed := signOf (s.dropWhile isSpace)
  let ds := signed.2.takeWhile isDigit
  if ds = [] then none
  else
    let n := signed.1 * digitsValue ds
    if INT_MIN ≤ n ∧ n ≤ INT_MAX then some n else none

theorem digitChar_toNat {d : ℕ} (h : d < 10) : (digitChar d).toNat = 48 + d := by
  rw [digitChar, UInt8.toNat_ofNat']
  omega

theorem isDigit_digitChar {d : ℕ} (h : d < 10) : isDigit (digitChar d) = true := by
  simp [isDigit, digitChar_toNat h]
  omega

/-- A numeral is made of digits. -/
theorem isDigit_of_mem_natChars {n : ℕ} {c : UInt8} (h : c ∈ natChars n) : isDigit c = true := by
  unfold natChars at h
  split at h
  · rw [List.mem_singleton.mp h]
    exact isDigit_digitChar (by omega)
  · obtain ⟨d, hd, rfl⟩ := List.mem_map.mp h
    exact isDigit_digitChar (Nat.digits_lt_base (by omega) (List.mem_reverse.mp hd))

theorem natChars_ne_nil (n : ℕ) : natChars n ≠ [] := by
  unfold natChars
  split
  · simp
  · next hn => simpa [Nat.digits_ne_nil_iff_ne_zero] using hn

/-- The digits read back give the number they print. -/
theorem digitsValue_natChars (n : ℕ) : digitsValue (natChars n) = n := by
  have hfold : ∀ ds : List ℕ, (∀ d ∈ ds, d < 10) →
      digitsValue (ds.reverse.map digitChar) = Nat.ofDigits 10 ds := by
    intro ds hds
    induction ds with
    | nil => rfl
    | cons d ds ih =>
      have hd : d < 10 := hds d List.mem_cons_self
      have hrest := ih fun d' hd' => hds d' (List.mem_cons_of_mem d hd')
      rw [digitsValue] at hrest ⊢
      rw [List.reverse_cons, List.map_append, List.foldl_append, hrest, Nat.ofDigits_cons]
      simp [digitChar_toNat hd]
      omega
  unfold natChars
  split
  · next hn =>
    subst hn
    simp [digitsValue, digitChar_toNat]
  · rw [hfold _ fun d hd => Nat.digits_lt_base (by omega) hd, Nat.ofDigits_digits]

theorem takeWhile_natChars (n : ℕ) : (natChars n).takeWhile isDigit = natChars n :=
  List.takeWhile_eq_self_iff.mpr fun _ hc => isDigit_of_mem_natChars hc

/-- A numeral without a sign starts with a digit, so nothing is skipped in front of it. -/
theorem signOf_natChars (n : ℕ) : signOf ((natChars n).dropWhile isSpace) = (1, natChars n) := by
  cases hs : natChars n with
  | nil => exact absurd hs (natChars_ne_nil n)
  | cons c cs =>
    have hdigit : isDigit c = true := isDigit_of_mem_natChars (hs ▸ List.mem_cons_self)
    simp only [isDigit, Bool.and_eq_true, decide_eq_true_eq] at hdigit
    have hspace : isSpace c = false := by
      simp [isSpace]
      omega
    rw [List.dropWhile_cons, hspace]
    simp only [Bool.false_eq_true, if_false]
    have hsign : ∀ b : UInt8, b.toNat < 48 → ∀ rest, c :: cs ≠ b :: rest := by
      rintro b hb rest heq
      obtain ⟨rfl, -⟩ := List.cons.inj heq
      omega
    rw [signOf]
    · exact hsign 45 (by decide)
    · exact hsign 43 (by decide)

/-- **`stoi` undoes `to_string`** on every value of an `int`. -/
theorem stoi_toString {n : ℤ} (hmin : INT_MIN ≤ n) (hmax : n ≤ INT_MAX) :
    stoi (toString n) = some n := by
  unfold toString
  split
  · next hneg =>
    have hskip : signOf ((45 :: natChars n.natAbs).dropWhile isSpace) =
        (-1, natChars n.natAbs) := by
      rw [List.dropWhile_cons]
      rfl
    have hval : (-1 : ℤ) * (n.natAbs : ℤ) = n := by omega
    simp only [stoi, hskip, takeWhile_natChars, natChars_ne_nil, if_false, digitsValue_natChars,
      hval]
    rw [if_pos ⟨hmin, hmax⟩]
  · next hpos =>
    have hval : (1 : ℤ) * (n.natAbs : ℤ) = n := by omega
    simp only [stoi, signOf_natChars, takeWhile_natChars, natChars_ne_nil, if_false,
      digitsValue_natChars, hval]
    rw [if_pos ⟨hmin, hmax⟩]

/-- A numeral is not the empty string. -/
theorem toString_ne_nil (n : ℤ) : toString n ≠ [] := by
  unfold toString
  split
  · simp
  · exact natChars_ne_nil _

/-- A numeral holds no NUL. -/
theorem zero_notMem_toString (n : ℤ) : 0 ∉ toString n := by
  have hnat : ∀ m, 0 ∉ natChars m := by
    intro m hmem
    have hdigit := isDigit_of_mem_natChars hmem
    simp [isDigit] at hdigit
  unfold toString
  split
  · rintro (_ | ⟨_, hmem⟩)
    exact hnat _ hmem
  · exact hnat _

end Decimal
