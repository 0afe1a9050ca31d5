import Mathlib.Data.Nat.Basic
import Mathlib.Tactic.Ring

/-!
# Machine words in memory, little-endian

`bytes n x` is the memory of an `n`-byte word holding `x`, `value bs` the number that the bytes
`bs` hold. The two are inverse on words of the right width (`value_bytes`, `bytes_value`), and so
are the casts between a `BitVec (8 * n)` and its `n` bytes (`load_store`, `store_load`).
-/

namespace LittleEndian

/-- The `n` bytes of `x`, least significant first. -/
def bytes : ℕ → ℕ → List UInt8
  | 0, _ => []
  | n + 1, x => UInt8.ofNat (x % 256) :: bytes n (x / 256)

/-- The number held by bytes in memory, least significant first. -/
def value : List UInt8 → ℕ
  | [] => 0
  | b :: bs => b.toNat + 256 * value bs

@[simp] theorem length_bytes (n x : ℕ) : (bytes n x).length = n := by
  induction n generalizing x with
  | zero => rfl
  | succ n ih => simp [bytes, ih]

theorem value_lt (bs : List UInt8) : value bs < 256 ^ bs.length := by
  induction bs with
  | nil => simp [value]
  | cons b bs ih =>
    have hb : b.toNat < 256 := b.toNat_lt
    rw [value, List.length_cons, pow_succ]
    omega

theorem value_bytes (n x : ℕ) : value (bytes n x) = x % 256 ^ n := by
  induction n generalizing x with
  | zero => simp [bytes, value, Nat.mod_one]
  | succ n ih =>
    have hlow : (UInt8.ofNat (x % 256)).toNat = x % 256 := by simp
    rw [bytes, value, ih, hlow, pow_succ, Nat.mul_comm (256 ^ n) 256, Nat.mod_mul]

theorem bytes_value (bs : List UInt8) : bytes bs.length (value bs) = bs := by
  induction bs with
  | nil => rfl
  | cons b bs ih =>
    have hb : b.toNat < 256 := b.toNat_lt
    have hlow : (b.toNat + 256 * value bs) % 256 = b.toNat := by omega
    have hhigh : (b.toNat + 256 * value bs) / 256 = value bs := by omega
    rw [List.length_cons, value, bytes, hlow, hhigh, ih]
    simp

/-! ## Words -/

variable {n : ℕ}

/-- The memory of a word, as `memcpy` from its address reads it. -/
def store (w : BitVec (8 * n)) : List UInt8 := bytes n w.toNat

/-- The word that memory holds, as a dereferenced pointer reads it. -/
def load (n : ℕ) (bs : List UInt8) : BitVec (8 * n) := BitVec.ofNat (8 * n) (value bs)

theorem two_pow_eq (n : ℕ) : 2 ^ (8 * n) = 256 ^ n := by
  rw [pow_mul]
  norm_num

@[simp] theorem length_store (w : BitVec (8 * n)) : (store w).length = n := length_bytes n _

@[simp] theorem load_store (w : BitVec (8 * n)) : load n (store w) = w := by
  have hw : w.toNat < 256 ^ n := two_pow_eq n ▸ w.isLt
  rw [load, store, value_bytes, Nat.mod_eq_of_lt hw]
  simp

theorem store_load {bs : List UInt8} (h : bs.length = n) : store (load n bs) = bs := by
  have hlt : value bs < 2 ^ (8 * n) := by
    rw [two_pow_eq, ← h]
    exact value_lt bs
  rw [store, load, BitVec.toNat_ofNat, Nat.mod_eq_of_lt hlt, ← h]
  exact bytes_value bs

end LittleEndian
