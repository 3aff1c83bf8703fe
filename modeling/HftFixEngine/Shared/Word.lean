import Mathlib.Algebra.Ring.Int.Defs
import Mathlib.Algebra.Ring.Nat
import Mathlib.Tactic.Common

set_option autoImplicit false

namespace Word

abbrev u32 (n : Nat) : Nat := n % 2 ^ 32

abbrev u64 (n : Nat) : Nat := n % 2 ^ 64

def toUint32 (x : Int) : Nat := (x % 2 ^ 32).toNat

def toUint64 (x : Int) : Nat := (x % 2 ^ 64).toNat

def wrapInt32 (x : Int) : Int := x.bmod (2 ^ 32)

def wrapInt64 (x : Int) : Int := x.bmod (2 ^ 64)

def InInt32 (x : Int) : Prop := -(2 ^ 31) ≤ x ∧ x < 2 ^ 31

instance (x : Int) : Decidable (InInt32 x) := inferInstanceAs (Decidable (_ ∧ _))

def InInt64 (x : Int) : Prop := -(2 ^ 63) ≤ x ∧ x < 2 ^ 63

instance (x : Int) : Decidable (InInt64 x) := inferInstanceAs (Decidable (_ ∧ _))

theorem wrapInt32_eq_iff {number : Nat} (small : number < 2 ^ 32) :
    wrapInt32 number = number ↔ number < 2 ^ 31 := by
  simp only [wrapInt32, Int.bmod]
  split_ifs <;> omega

theorem wrapInt64_eq_iff {number : Nat} (small : number < 2 ^ 64) :
    wrapInt64 number = number ↔ number < 2 ^ 63 := by
  simp only [wrapInt64, Int.bmod]
  split_ifs <;> omega

theorem toUint32_lt (x : Int) : toUint32 x < 2 ^ 32 := by
  unfold toUint32
  omega

theorem u64_mul_toUint64 (x y : Int) : u64 (toUint64 x * toUint64 y) = toUint64 (x * y) := by
  have left := Int.emod_nonneg x (show (2 : Int) ^ 64 ≠ 0 by decide)
  have right := Int.emod_nonneg y (show (2 : Int) ^ 64 ≠ 0 by decide)
  have product := Int.mul_nonneg left right
  have same : ((x % 2 ^ 64).toNat * (y % 2 ^ 64).toNat : Nat) =
      (x % 2 ^ 64 * (y % 2 ^ 64)).toNat := by
    rw [Int.toNat_mul left right]
  rw [u64, toUint64, toUint64, toUint64, same, Int.mul_emod x y]
  omega

theorem u32_sub {sum n : Nat} (most : n ≤ sum) (small : n ≤ 2 ^ 32) :
    u32 (u32 sum + (2 ^ 32 - n)) = u32 (sum - n) := by
  simp only [u32]
  omega

theorem u32_add (sum n : Nat) : u32 (u32 sum + n) = u32 (sum + n) := by
  simp only [u32]
  omega

theorem wrapInt64_of_inInt64 {x : Int} (inside : InInt64 x) : wrapInt64 x = x := by
  unfold InInt64 at inside
  simp only [wrapInt64, Int.bmod]
  split_ifs <;> omega

theorem wrapInt32_inInt32 (x : Int) : InInt32 (wrapInt32 x) := by
  simp only [InInt32, wrapInt32, Int.bmod]
  split_ifs <;> omega

theorem wrapInt64_inInt64 (x : Int) : InInt64 (wrapInt64 x) := by
  simp only [InInt64, wrapInt64, Int.bmod]
  split_ifs <;> omega

end Word
