import Mathlib.Algebra.Order.Floor.Ring
import Mathlib.Algebra.Order.Field.Basic
import Mathlib.Data.Int.Log
import Mathlib.Tactic.Linarith
import IotRobot.Lib.Dbl

/-!
# Rounding to integers, to decimals and to doubles

`round(x)`, `round(x, digits)` and `int(x)` of Python in exact arithmetic, and the double that
is nearest to a number, with an even last digit where two are.
-/

namespace IotRobot.Lib

set_option autoImplicit false

section Rounding
variable {K : Type*} [Field K] [LinearOrder K] [FloorRing K]

/-- The nearest integer, the even one of two that are equally near. -/
def round_even (x : K) : Int :=
  let below := ⌊x⌋
  let part := x - below
  if part < 1 / 2 then below
  else if 1 / 2 < part then below + 1
  else if below % 2 = 0 then below
  else below + 1

/-- The nearest multiple of `10 ^ -digits`. -/
def round_digits (digits : Nat) (x : K) : K := round_even (x * 10 ^ digits) / 10 ^ digits

/-- The integer part, towards zero. -/
def truncate (x : K) : Int := if x < 0 then ⌈x⌉ else ⌊x⌋

/-- A number of 53 binary digits whose exponent binary64 has. -/
def IsDouble (x : K) : Prop :=
  ∃ n e : Int, |n| < 2 ^ 53 ∧ -1074 ≤ e ∧ e ≤ 971 ∧ x = n * 2 ^ e

/-- The exponent of the last binary digit of the doubles near a number. -/
def last_place (x : K) : Int := max (Int.log 2 |x|) (-1022) - 52

def ulp (x : K) : K := 2 ^ last_place x

def nearest_double (x : K) : K := round_even (x / ulp x) * ulp x

/-- The result of an operation whose exact one is a number; from 2 ^ 1024 on it is an infinity. -/
def to_double (x : K) : Dbl K :=
  if (2 : K) ^ (1024 : Int) ≤ nearest_double x then .pinf
  else if nearest_double x ≤ -2 ^ (1024 : Int) then .ninf
  else .fin (nearest_double x)

@[simp] theorem truncate_zero [IsStrictOrderedRing K] : truncate (0 : K) = 0 := by
  simp [truncate]

theorem round_even_bounds (x : K) : ⌊x⌋ ≤ round_even x ∧ round_even x ≤ ⌊x⌋ + 1 := by
  unfold round_even
  dsimp only
  split
  · omega
  split
  · omega
  split <;> omega

variable [IsStrictOrderedRing K]

/-- Truncation does not take a number away from zero. -/
theorem abs_truncate_le (x : K) : |(truncate x : K)| ≤ |x| := by
  unfold truncate
  by_cases hneg : x < 0
  · have hceil : ((⌈x⌉ : Int) : K) ≤ 0 := by
      rw [← Int.cast_zero, Int.cast_le]
      exact Int.ceil_le.mpr (by rw [Int.cast_zero]; exact hneg.le)
    rw [if_pos hneg, abs_of_nonpos hceil, abs_of_neg hneg, neg_le_neg_iff]
    exact Int.le_ceil x
  · have hfloor : (0 : K) ≤ ⌊x⌋ := by
      rw [← Int.cast_zero, Int.cast_le]
      exact Int.floor_nonneg.mpr (not_lt.mp hneg)
    rw [if_neg hneg, abs_of_nonneg hfloor, abs_of_nonneg (not_lt.mp hneg)]
    exact Int.floor_le x

/-- Rounding moves a number by at most a half. -/
theorem round_even_near (x : K) : |(round_even x : K) - x| ≤ 1 / 2 := by
  have hlow := Int.floor_le x
  have hhigh := Int.lt_floor_add_one x
  unfold round_even
  dsimp only
  by_cases hbelow : x - ⌊x⌋ < 1 / 2
  · rw [if_pos hbelow, abs_le]
    constructor <;> linarith
  rw [if_neg hbelow]
  have hhalf := not_lt.mp hbelow
  have habove : |((⌊x⌋ + 1 : Int) : K) - x| ≤ 1 / 2 := by
    rw [Int.cast_add, Int.cast_one, abs_le]
    constructor <;> linarith
  by_cases hpast : 1 / 2 < x - ⌊x⌋
  · rw [if_pos hpast]
    exact habove
  rw [if_neg hpast]
  split
  · rw [abs_le]
    constructor <;> linarith
  · exact habove

@[simp] theorem round_even_intCast (n : Int) : round_even (n : K) = n := by
  unfold round_even
  dsimp only
  rw [Int.floor_intCast, sub_self, if_pos (by norm_num)]

theorem round_even_mono {x y : K} (h : x ≤ y) : round_even x ≤ round_even y := by
  obtain ⟨-, hx⟩ := round_even_bounds x
  obtain ⟨hy, -⟩ := round_even_bounds y
  rcases (Int.floor_le_floor h).lt_or_eq with hlt | heq
  · omega
  -- the same floor: the larger part is rounded up if the smaller one is
  have hparts : x - ⌊x⌋ ≤ y - ⌊y⌋ := by
    rw [heq]
    exact sub_le_sub_right h _
  unfold round_even
  dsimp only
  by_cases hybelow : y - ⌊y⌋ < 1 / 2
  · rw [if_pos (hparts.trans_lt hybelow), if_pos hybelow, heq]
  rw [if_neg hybelow]
  by_cases hypast : 1 / 2 < y - ⌊y⌋
  · rw [if_pos hypast]
    have hround : round_even x ≤ ⌊y⌋ + 1 := heq ▸ hx
    exact hround
  rw [if_neg hypast]
  by_cases hxbelow : x - ⌊x⌋ < 1 / 2
  · rw [if_pos hxbelow, heq]
    split <;> omega
  have hxpast : ¬ 1 / 2 < x - ⌊x⌋ := fun hlt => hypast (hlt.trans_le hparts)
  rw [if_neg hxbelow, if_neg hxpast, heq]

/-- It makes no difference whether a number is rounded or kept within integers first. -/
theorem round_even_clamp (low high : Int) (x : K) :
    round_even (max (low : K) (min (high : K) x)) = max low (min high (round_even x)) := by
  have hmono : Monotone (round_even : K → Int) := fun _ _ => round_even_mono
  rw [hmono.map_max, hmono.map_min, round_even_intCast, round_even_intCast]

end Rounding

end IotRobot.Lib
