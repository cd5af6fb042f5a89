import Mathlib.Algebra.Order.Field.Basic
import Mathlib.Algebra.Order.Group.Unbundled.Abs
import Mathlib.Algebra.Order.Ring.Abs
import Mathlib.Analysis.Complex.Exponential
import Mathlib.Tactic.FieldSimp
import Mathlib.Tactic.Linarith
import Mathlib.Tactic.Ring

/-!
# Sampled motion

A point that is moved in steps: towards a target at a fixed speed, or coasting, its speed
decaying exponentially. Where it ends depends on the time that passed, and a coasting point
travels no further than its speed and its time constant allow, however the time is divided
into steps.
-/

namespace IotRobot.Lib

set_option autoImplicit false

section Approach
variable {K : Type*} [Field K] [LinearOrder K]

/-- The first number with the sign of the second. -/
def copysign (x y : K) : K := if y < 0 then -|x| else |x|

/-- A step of the given length towards a target, which it does not pass. -/
def approach (target step x : K) : K :=
  if |target - x| ≤ step then target else x + copysign step (target - x)

variable {target a b x : K}

theorem approach_arrived (h : |target - x| ≤ a) : approach target a x = target := if_pos h

variable [IsStrictOrderedRing K]

theorem abs_copysign (x y : K) : |copysign x y| = |x| := by
  unfold copysign
  split_ifs <;> simp

theorem copysign_mul (x y : K) {t : K} (ht : 0 ≤ t) : copysign x y * t = copysign (x * t) y := by
  have habs : |x| * t = |x * t| := by rw [abs_mul, abs_of_nonneg ht]
  by_cases hy : y < 0
  · simp [copysign, hy, habs]
  · simp [copysign, hy, habs]

/-- A step of length 0 leads nowhere. -/
@[simp] theorem approach_zero : approach target 0 x = x := by
  unfold approach
  split_ifs with h
  · exact sub_eq_zero.mp (abs_nonpos_iff.mp h)
  · simp [copysign]

/-- A step is no longer than its length. -/
theorem abs_approach_sub (target a x : K) : |approach target a x - x| ≤ |a| := by
  unfold approach
  split_ifs with h
  · exact h.trans (le_abs_self a)
  · rw [add_sub_cancel_left, abs_copysign]

end Approach

section Coasting
variable {K : Type*} [Field K] [LinearOrder K] [IsStrictOrderedRing K]

/-- What a proof needs to know of an exponential function. -/
structure Exponential (exp : K → K) : Prop where
  add_one_le : ∀ x, x + 1 ≤ exp x
  neg_mul : ∀ x, exp (-x) * exp x = 1

namespace Exponential
variable {exp : K → K} (h : Exponential exp)
include h

theorem pos (x : K) : 0 < exp x := by
  have hprod := h.neg_mul x
  rcases le_total 0 x with hx | hx
  · have hle := h.add_one_le x
    linarith
  · have hneg : 0 < exp (-x) := by
      have hle := h.add_one_le (-x)
      linarith
    exact (pos_iff_pos_of_mul_pos (by rw [hprod]; exact one_pos)).mp hneg

theorem neg_le_one {x : K} (hx : 0 ≤ x) : exp (-x) ≤ 1 := by
  have hgrow := h.add_one_le x
  have hprod := h.neg_mul x
  have hdecay := h.pos (-x)
  nlinarith

/-- A decaying speed covers no more than what it loses allows. -/
theorem decay_travel {tau t : K} (htau : 0 < tau) :
    exp (-t / tau) * t ≤ tau * (1 - exp (-t / tau)) := by
  have hgrow := h.add_one_le (t / tau)
  have hprod := h.neg_mul (t / tau)
  have hdecay := h.pos (-(t / tau))
  rw [neg_div]
  have hpart : exp (-(t / tau)) * (t / tau) ≤ 1 - exp (-(t / tau)) := by nlinarith
  calc exp (-(t / tau)) * t = tau * (exp (-(t / tau)) * (t / tau)) := by field_simp
    _ ≤ tau * (1 - exp (-(t / tau))) := mul_le_mul_of_nonneg_left hpart htau.le

/-- The way and what the speed that is left can still cover: together they do not exceed
what the speed at the start could cover. -/
theorem coast {tau t v : K} (htau : 0 < tau) (ht : 0 ≤ t) :
    |v * exp (-t / tau) * t| + tau * |v * exp (-t / tau)| ≤ tau * |v| := by
  have hdecay := h.pos (-t / tau)
  have htravel := h.decay_travel htau (t := t)
  rw [abs_mul (v * _), abs_mul v, abs_of_pos hdecay, abs_of_nonneg ht]
  have hscaled := mul_le_mul_of_nonneg_left htravel (abs_nonneg v)
  linarith

end Exponential

end Coasting

/-- The real exponential function is one. -/
theorem real_exponential : Exponential Real.exp where
  add_one_le := Real.add_one_le_exp
  neg_mul x := by rw [← Real.exp_add, neg_add_cancel, Real.exp_zero]

end IotRobot.Lib
