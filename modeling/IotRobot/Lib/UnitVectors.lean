import Mathlib.Analysis.Real.Sqrt
import Mathlib.LinearAlgebra.Matrix.DotProduct
import Mathlib.Algebra.BigOperators.Fin
import Mathlib.Tactic.LinearCombination
import Mathlib.Tactic.Linarith

/-!
# Unit vectors

Vectors of unit length whose dot product, the cosine of their angle, is large. At a cosine of
one, or in one dimension, they are equal; otherwise two steps of a large cosine lead farther
than one of them.
-/

namespace IotRobot.Lib

open Matrix

set_option autoImplicit false

section Equal
variable {K : Type*} [Field K] [LinearOrder K] [IsStrictOrderedRing K] {n : Nat}

def UnitLength (v : Fin n → K) : Prop := v ⬝ᵥ v = 1

variable {a b : Fin n → K}

/-- Unit vectors with a cosine of one are equal. -/
theorem eq_of_one_le_dotProduct (ha : UnitLength a) (hb : UnitLength b) (h : 1 ≤ a ⬝ᵥ b) : a = b := by
  have hexpand : (a - b) ⬝ᵥ (a - b) = 2 - 2 * (a ⬝ᵥ b) := by
    rw [sub_dotProduct, dotProduct_sub, dotProduct_sub, ha, hb, dotProduct_comm b a]
    ring
  have hnonneg : 0 ≤ (a - b) ⬝ᵥ (a - b) := Finset.sum_nonneg fun i _ => mul_self_nonneg _
  have hzero : (a - b) ⬝ᵥ (a - b) = 0 := by linarith
  exact sub_eq_zero.mp (dotProduct_self_eq_zero.mp hzero)

/-- In at most one dimension an acute angle is none. -/
theorem eq_of_pos_dotProduct (hn : n ≤ 1) (ha : UnitLength a) (hb : UnitLength b) (h : 0 < a ⬝ᵥ b) :
    a = b := by
  apply eq_of_one_le_dotProduct ha hb
  obtain rfl | rfl := Nat.le_one_iff_eq_zero_or_eq_one.mp hn
  · rw [dotProduct, Finset.univ_eq_empty, Finset.sum_empty] at h
    exact absurd h (lt_irrefl _)
  · unfold UnitLength at ha hb
    rw [dotProduct, Fin.sum_univ_one] at ha hb h ⊢
    have hsquare : (a 0 * b 0) * (a 0 * b 0) = 1 := by
      linear_combination (b 0 * b 0) * ha + hb
    exact ((mul_self_inj h.le zero_le_one).mp (hsquare.trans (one_mul 1).symm)).ge

end Equal

section Plane
variable {n : Nat}

/-- A vector in the plane of the first two coordinates. -/
def plane (x y : ℝ) : Fin (n + 2) → ℝ := Fin.cons x (Fin.cons y 0)

theorem plane_dotProduct (x y x' y' : ℝ) :
    (plane x y : Fin (n + 2) → ℝ) ⬝ᵥ plane x' y' = x * x' + y * y' := by
  unfold plane dotProduct
  rw [Fin.sum_univ_succ, Fin.sum_univ_succ]
  simp only [Fin.cons_zero, Fin.cons_succ, Pi.zero_apply, mul_zero, Finset.sum_const_zero, add_zero]

/-- From any unit vector one of cosine `u` to it, and from that one of cosine `m`, can be so
chosen that the last has a smaller cosine than `m` to the first. -/
theorem two_steps_farther {m u : ℝ} (hm : 0 < m) (hmu : m ≤ u) (hu : u < 1) :
    ∃ a b c : Fin (n + 2) → ℝ, UnitLength a ∧ UnitLength b ∧ UnitLength c ∧
      a ⬝ᵥ b = u ∧ b ⬝ᵥ c = m ∧ a ⬝ᵥ c < m := by
  have hpos : 0 < u := hm.trans_le hmu
  have hsin {x : ℝ} (h0 : 0 < x) (h1 : x < 1) : √(1 - x * x) * √(1 - x * x) = 1 - x * x := by
    apply Real.mul_self_sqrt
    nlinarith
  have hsu := hsin hpos hu
  have hsm := hsin hm (hmu.trans_lt hu)
  have hnonneg : 0 ≤ √(1 - u * u) * √(1 - m * m) :=
    mul_nonneg (Real.sqrt_nonneg _) (Real.sqrt_nonneg _)
  generalize √(1 - u * u) = v at hsu hnonneg
  generalize √(1 - m * m) = w at hsm hnonneg
  refine ⟨plane 1 0, plane u v, plane (u * m - v * w) (v * m + u * w), ?_, ?_, ?_, ?_, ?_, ?_⟩
  · unfold UnitLength
    rw [plane_dotProduct]
    ring
  · unfold UnitLength
    rw [plane_dotProduct]
    linear_combination hsu
  · unfold UnitLength
    rw [plane_dotProduct]
    linear_combination (m * m + w * w) * hsu + hsm
  · rw [plane_dotProduct]
    ring
  · rw [plane_dotProduct]
    linear_combination m * hsu
  · rw [plane_dotProduct]
    have hless : u * m < m := by nlinarith
    linarith

end Plane

end IotRobot.Lib
