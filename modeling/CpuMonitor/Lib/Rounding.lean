import Mathlib

/-!
# Rounded arithmetic

The standard model of floating-point arithmetic: an operation returns the exact result up to a
relative error `u`, the unit roundoff. Nothing here names a program.

* `Rounding` — a rounding function with its error bound; `2⁻⁵³` for a `double`, as long as nothing
  overflows or underflows;
* `Rounding.Close k x y` — `x` and `y` are equal up to `k` roundings. It composes: a rounding is one
  step (`Close.rnd`), steps add up along a computation (`Close.trans`) and in a quotient
  (`Close.div`);
* `Close.error_le` — `k` roundings as one relative error.
-/

namespace CpuMonitor.Lib

/-- A rounding function with unit roundoff `u`.
Source: none: infrastructure
Kind: D -/
structure Rounding where
  rnd : ℚ → ℚ
  u : ℚ
  u_nonneg : 0 ≤ u
  u_lt_one : u < 1
  error : ∀ x, |rnd x - x| ≤ u * |x|

namespace Rounding

variable (R : Rounding)

/-- Two non-negative numbers that are equal up to `k` roundings.
Source: none: infrastructure
Kind: D -/
structure Close (k : ℕ) (x y : ℚ) : Prop where
  lower : x * (1 - R.u) ^ k ≤ y
  upper : y * (1 - R.u) ^ k ≤ x

/-- The unit roundoff of a `double`.
Source: none: infrastructure
Kind: D -/
def IsDouble : Prop := R.u ≤ 1 / 2 ^ 53

variable {R} {k m : ℕ} {x y z a b c : ℚ}

/-- The factor of one rounding is positive.
Source: none: infrastructure
Kind: L -/
theorem factor_pos : 0 < 1 - R.u := sub_pos.mpr R.u_lt_one

/-- A rounding is one step.
Source: none: infrastructure
Kind: P -/
theorem Close.rnd (hx : 0 ≤ x) : R.Close 1 x (R.rnd x) := by
  have herror := abs_le.mp (R.error x)
  rw [abs_of_nonneg hx] at herror
  constructor
  · rw [pow_one]
    linarith [herror.1]
  · have hupper : R.rnd x ≤ x * (1 + R.u) := by linarith [herror.2]
    calc R.rnd x * (1 - R.u) ^ 1
        ≤ x * (1 + R.u) * (1 - R.u) := by
          rw [pow_one]
          exact mul_le_mul_of_nonneg_right hupper factor_pos.le
      _ = x - x * R.u ^ 2 := by ring
      _ ≤ x := sub_le_self x (mul_nonneg hx (sq_nonneg R.u))

/-- **Steps add up.**
Source: none: infrastructure
Kind: P -/
theorem Close.trans (h : R.Close k x y) (h' : R.Close m y z) : R.Close (k + m) x z := by
  have hk : 0 ≤ (1 - R.u) ^ k := pow_nonneg factor_pos.le k
  have hm : 0 ≤ (1 - R.u) ^ m := pow_nonneg factor_pos.le m
  constructor
  · calc x * (1 - R.u) ^ (k + m) = x * (1 - R.u) ^ k * (1 - R.u) ^ m := by rw [pow_add, mul_assoc]
      _ ≤ y * (1 - R.u) ^ m := mul_le_mul_of_nonneg_right h.lower hm
      _ ≤ z := h'.lower
  · calc z * (1 - R.u) ^ (k + m) = z * (1 - R.u) ^ m * (1 - R.u) ^ k := by
          rw [pow_add, mul_comm ((1 - R.u) ^ k), mul_assoc]
      _ ≤ y * (1 - R.u) ^ k := mul_le_mul_of_nonneg_right h'.upper hk
      _ ≤ x := h.upper

/-- A nonnegative factor keeps two numbers close.
Source: none: infrastructure
Kind: L -/
theorem Close.mul_left (h : R.Close k x y) (hc : 0 ≤ c) : R.Close k (c * x) (c * y) := by
  constructor
  · rw [mul_assoc]
    exact mul_le_mul_of_nonneg_left h.lower hc
  · rw [mul_assoc]
    exact mul_le_mul_of_nonneg_left h.upper hc

/-- **Steps add up in a quotient.**
Source: none: infrastructure
Kind: P -/
theorem Close.div (h : R.Close k x y) (h' : R.Close m a b) (ha : 0 < a) (hb : 0 < b) (hx : 0 ≤ x)
    (hy : 0 ≤ y) : R.Close (k + m) (x / a) (y / b) := by
  have hk : 0 ≤ (1 - R.u) ^ k := pow_nonneg factor_pos.le k
  constructor
  · rw [div_mul_eq_mul_div, div_le_div_iff₀ ha hb]
    calc x * (1 - R.u) ^ (k + m) * b = x * (1 - R.u) ^ k * (b * (1 - R.u) ^ m) := by
          rw [pow_add]
          ring
      _ ≤ y * a := mul_le_mul h.lower h'.upper (mul_nonneg hb.le (pow_nonneg factor_pos.le m)) hy
  · rw [div_mul_eq_mul_div, div_le_div_iff₀ hb ha]
    calc y * (1 - R.u) ^ (k + m) * a = y * (1 - R.u) ^ k * (a * (1 - R.u) ^ m) := by
          rw [pow_add]
          ring
      _ ≤ x * b := mul_le_mul h.upper h'.lower (mul_nonneg ha.le (pow_nonneg factor_pos.le m)) hx

/-- What is close to a positive number is positive.
Source: none: infrastructure
Kind: L -/
theorem Close.pos (h : R.Close k x y) (hx : 0 < x) : 0 < y :=
  lt_of_lt_of_le (mul_pos hx (pow_pos factor_pos k)) h.lower

/-- What is close to a nonnegative number is nonnegative.
Source: none: infrastructure
Kind: L -/
theorem Close.nonneg (h : R.Close k x y) (hx : 0 ≤ x) : 0 ≤ y :=
  (mul_nonneg hx (pow_nonneg factor_pos.le k)).trans h.lower

/-- **`k` roundings as one relative error**, which is at most twice their sum.
Source: none: infrastructure
Kind: P -/
theorem Close.error_le (h : R.Close k x y) (hx : 0 ≤ x) (hk : 2 * (k * R.u) ≤ 1) :
    |y - x| ≤ x * (2 * (k * R.u)) := by
  have hbernoulli : 1 - k * R.u ≤ (1 - R.u) ^ k := by
    have h := one_add_mul_le_pow (show (-2 : ℚ) ≤ -R.u by linarith [R.u_lt_one]) k
    rwa [mul_neg, ← sub_eq_add_neg, ← sub_eq_add_neg] at h
  have hy := h.nonneg hx
  have hku : 0 ≤ k * R.u := mul_nonneg k.cast_nonneg R.u_nonneg
  have hlower : x * (1 - k * R.u) ≤ y := (mul_le_mul_of_nonneg_left hbernoulli hx).trans h.lower
  have hupper : y * (1 - k * R.u) ≤ x := (mul_le_mul_of_nonneg_left hbernoulli hy).trans h.upper
  rw [abs_le]
  constructor
  · nlinarith
  · -- `y ≤ 2 x` first, then the error of `y` is an error of `x`
    have hdouble : y ≤ 2 * x := by nlinarith
    nlinarith

end Rounding

end CpuMonitor.Lib
