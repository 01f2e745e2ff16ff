import Mathlib.Data.Int.ModEq
import Mathlib.Data.UInt

/-!
# C integers

`int` and `atomic_t` are 32-bit two's complement. The kernel is built with
`-fno-strict-overflow`, so signed arithmetic wraps: an `int` result is the exact result
reduced by `toInt32`, and so is an `(int)` cast of an unsigned value. `int` division
truncates toward zero (`Int.tdiv`). `unsigned long`, `u64` and `unsigned int` are
`UInt64` and `UInt32`.
-/

namespace SmartScheduler

def intMin : Int := -2147483648

def intMax : Int := 2147483647

def InInt (x : Int) : Prop := intMin ≤ x ∧ x ≤ intMax

instance (x : Int) : Decidable (InInt x) := inferInstanceAs (Decidable (_ ∧ _))

def toInt32 (x : Int) : Int := (x + 2147483648) % 4294967296 - 2147483648

def atomicInc (v : Int) : Int := toInt32 (v + 1)

theorem toInt32_inInt (x : Int) : InInt (toInt32 x) := by
  unfold InInt toInt32 intMin intMax
  omega

theorem toInt32_of_inInt {x : Int} (h : InInt x) : toInt32 x = x := by
  unfold InInt intMin intMax at h
  unfold toInt32
  omega

theorem toInt32_modEq (x : Int) : toInt32 x ≡ x [ZMOD 4294967296] := by
  unfold Int.ModEq toInt32
  omega

theorem atomicInc_modEq (v : Int) : atomicInc v ≡ v + 1 [ZMOD 4294967296] :=
  toInt32_modEq _

theorem tdiv_hundred_bound {x : Int} (h : InInt x) :
    -21474836 ≤ x.tdiv 100 ∧ x.tdiv 100 ≤ 21474836 := by
  unfold InInt intMin intMax at h
  rcases le_total 0 x with nonneg | nonpos
  · rw [Int.tdiv_eq_ediv nonneg (by decide)]
    omega
  · have flip : x.tdiv 100 = -((-x) / 100) := by
      rw [← Int.tdiv_eq_ediv (by omega) (by decide), Int.neg_tdiv, neg_neg]
    rw [flip]
    omega

theorem uint64_toNat_add_one (x : UInt64) :
    (x + 1).toNat = (x.toNat + 1) % 18446744073709551616 :=
  rfl

/-! `u64` arithmetic read on `Nat`: sums reduce mod `2^64`. -/

theorem uint64_toNat_add (x y : UInt64) :
    (x + y).toNat = (x.toNat + y.toNat) % 18446744073709551616 :=
  rfl

theorem uint64_toNat_ofNat (n : Nat) : (UInt64.ofNat n).toNat = n % 18446744073709551616 :=
  rfl

theorem uint64_lt_iff (x y : UInt64) : x < y ↔ x.toNat < y.toNat :=
  Iff.rfl

theorem uint64_toNat_sub_one {x : UInt64} (pos : 0 < x) : (x - 1).toNat = x.toNat - 1 :=
  UInt64.toNat_sub_of_le x 1 (show 1 ≤ x.toNat from pos)

end SmartScheduler
