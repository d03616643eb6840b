import Mathlib.Data.List.Basic
import Mathlib.Data.UInt

/-!
# Big-endian words

A number below `256 ^ length` is written as `length` bytes, the highest first.
-/

namespace BigEndian

/-- The number that the bytes stand for. -/
def value (bytes : List UInt8) : Nat :=
  bytes.foldl (fun value byte => value * 256 + byte.toNat) 0

/-- The last `length` bytes of a number. -/
def digits : Nat → Nat → List UInt8
  | 0, _ => []
  | length + 1, n => digits length (n / 256) ++ [UInt8.ofNat n]

theorem value_append_singleton (bytes : List UInt8) (byte : UInt8) :
    value (bytes ++ [byte]) = value bytes * 256 + byte.toNat := by
  rw [value, List.foldl_append]
  rfl

@[simp] theorem length_digits (length n : Nat) : (digits length n).length = length := by
  induction length generalizing n with
  | zero => rfl
  | succ length ih => rw [digits, List.length_append, ih, List.length_singleton]

theorem value_digits {length n : Nat} (hn : n < 256 ^ length) : value (digits length n) = n := by
  induction length generalizing n with
  | zero =>
    have hzero : n = 0 := by simpa using hn
    rw [hzero]
    rfl
  | succ length ih =>
    have hhigh : n / 256 < 256 ^ length := by
      rw [Nat.div_lt_iff_lt_mul (by decide), ← Nat.pow_succ]
      exact hn
    rw [digits, value_append_singleton, ih hhigh, UInt8.toNat_ofNat']
    omega

end BigEndian
