import Mathlib.Algebra.Order.Field.Basic
import Mathlib.Algebra.Order.Group.Unbundled.Abs
import Mathlib.Algebra.Order.Ring.Rat
import Mathlib.Tactic.Linarith
import Mathlib.Tactic.Ring

/-!
# Floating-point numbers in exact arithmetic

A `Dbl K` is a value of the ordered field `K`, one of the two infinities or NaN.
Arithmetic on finite values is exact; the special values follow IEEE 754. Every
comparison with NaN is false, so `¬ a < b` and `b ≤ a` are different statements.
`minimum`, `maximum` and `clamp` make their comparisons in the order C++ and
Python make them, because the order decides what becomes of a NaN.
-/

namespace IotRobot.Lib

set_option autoImplicit false

/-- The double nearest to π: `M_PI` of C and `math.pi` of Python. -/
def pi_double {K : Type*} [Field K] : K := 884279719003555 / 281474976710656

inductive Dbl (K : Type*) where
  | nan
  | ninf
  | fin (x : K)
  | pinf
  deriving DecidableEq

namespace Dbl

section Predicates
variable {K : Type*}

def isNaN : Dbl K → Bool
  | .nan => true
  | _ => false

def isFinite : Dbl K → Bool
  | .fin _ => true
  | _ => false

/-- The value of a finite number, `d` for every other one. -/
def toK (d : K) : Dbl K → K
  | .fin x => x
  | _ => d

@[simp] theorem isNaN_nan : (nan : Dbl K).isNaN = true := rfl
@[simp] theorem isNaN_ninf : (ninf : Dbl K).isNaN = false := rfl
@[simp] theorem isNaN_pinf : (pinf : Dbl K).isNaN = false := rfl
@[simp] theorem isNaN_fin (x : K) : (fin x).isNaN = false := rfl
@[simp] theorem isFinite_fin (x : K) : (fin x).isFinite = true := rfl

end Predicates

section Order
variable {K : Type*} [LinearOrder K]

protected def Lt : Dbl K → Dbl K → Prop
  | .nan, _ | _, .nan => False
  | .ninf, .ninf => False
  | .ninf, _ => True
  | .fin a, .fin b => a < b
  | .fin _, .pinf => True
  | .fin _, .ninf => False
  | .pinf, _ => False

protected def Le : Dbl K → Dbl K → Prop
  | .nan, _ | _, .nan => False
  | .ninf, _ => True
  | .fin a, .fin b => a ≤ b
  | .fin _, .pinf => True
  | .fin _, .ninf => False
  | .pinf, .pinf => True
  | .pinf, _ => False

instance : LT (Dbl K) := ⟨Dbl.Lt⟩
instance : LE (Dbl K) := ⟨Dbl.Le⟩

instance (a b : Dbl K) : Decidable (a < b) := by
  change Decidable (Dbl.Lt a b)
  cases a <;> cases b <;> unfold Dbl.Lt <;> infer_instance

instance (a b : Dbl K) : Decidable (a ≤ b) := by
  change Decidable (Dbl.Le a b)
  cases a <;> cases b <;> unfold Dbl.Le <;> infer_instance

@[simp] theorem fin_lt_fin (a b : K) : (fin a < fin b) ↔ a < b := Iff.rfl
@[simp] theorem fin_le_fin (a b : K) : (fin a ≤ fin b) ↔ a ≤ b := Iff.rfl
@[simp] theorem not_nan_lt (a : Dbl K) : ¬ (nan < a) := fun h => h
@[simp] theorem not_lt_nan (a : Dbl K) : ¬ (a < nan) := by cases a <;> exact fun h => h
@[simp] theorem not_nan_le (a : Dbl K) : ¬ (nan ≤ a) := fun h => h
@[simp] theorem not_le_nan (a : Dbl K) : ¬ (a ≤ nan) := by cases a <;> exact fun h => h
@[simp] theorem not_pinf_lt (a : Dbl K) : ¬ (pinf < a) := by cases a <;> exact fun h => h
@[simp] theorem not_lt_ninf (a : Dbl K) : ¬ (a < ninf) := by cases a <;> exact fun h => h
@[simp] theorem fin_lt_pinf (a : K) : fin a < pinf := trivial
@[simp] theorem ninf_lt_fin (a : K) : ninf < fin a := trivial
@[simp] theorem ninf_lt_pinf : (ninf : Dbl K) < pinf := trivial
@[simp] theorem not_pinf_le_fin (a : K) : ¬ (pinf ≤ fin a) := fun h => h
@[simp] theorem not_pinf_le_ninf : ¬ ((pinf : Dbl K) ≤ ninf) := fun h => h
@[simp] theorem not_fin_le_ninf (a : K) : ¬ (fin a ≤ ninf) := fun h => h
@[simp] theorem fin_le_pinf (a : K) : fin a ≤ pinf := trivial
@[simp] theorem ninf_le_fin (a : K) : ninf ≤ fin a := trivial

protected theorem lt_trans {a b c : Dbl K} (hab : a < b) (hbc : b < c) : a < c := by
  cases a <;> cases b <;> cases c <;> simp_all
  exact hab.trans hbc

/-- Among numbers other than NaN, one that is not above `a` is below what `a` is below. -/
theorem lt_of_not_lt {a b c : Dbl K} (ha : a.isNaN = false) (hba : ¬ b < a) (hbc : b < c) :
    a < c := by
  cases a <;> cases b <;> cases c <;> simp_all
  exact hba.trans_lt hbc

theorem le_refl_of_not_nan {a : Dbl K} (ha : a.isNaN = false) : a ≤ a := by
  cases a with
  | nan => cases ha
  | ninf => trivial
  | fin x => exact le_refl x
  | pinf => trivial

protected theorem lt_of_le_of_lt {a b c : Dbl K} (hab : a ≤ b) (hbc : b < c) : a < c := by
  cases a <;> cases b <;> cases c <;> simp_all
  exact hab.trans_lt hbc

theorem lt_fin_min (d : Dbl K) (a b : K) : d < fin (min a b) ↔ d < fin a ∧ d < fin b := by
  cases d <;> simp

/-- C++ `std::clamp`: both comparisons are strict, so NaN passes through. -/
def clamp (v lo hi : Dbl K) : Dbl K :=
  if v < lo then lo else if hi < v then hi else v

/-- `min(a, b)` of C++ and Python: the first argument unless the second is smaller. -/
def minimum (a b : Dbl K) : Dbl K := if b < a then b else a

/-- `max(a, b)` of C++ and Python: the first argument unless the second is larger. -/
def maximum (a b : Dbl K) : Dbl K := if a < b then b else a

/-- Between finite bounds every number but NaN clamps to a finite number. -/
theorem clamp_fin (v : Dbl K) (lo hi : K) (hv : v.isNaN = false) :
    ∃ x : K, clamp v (fin lo) (fin hi) = fin x := by
  cases v with
  | nan => exact absurd hv (by simp)
  | ninf => exact ⟨lo, by simp [clamp]⟩
  | pinf => exact ⟨hi, by simp [clamp]⟩
  | fin x =>
    by_cases hl : x < lo
    · exact ⟨lo, by simp [clamp, hl]⟩
    · by_cases hh : hi < x
      · exact ⟨hi, by simp [clamp, hl, hh]⟩
      · exact ⟨x, by simp [clamp, hl, hh]⟩

theorem clamp_fin_fin (x lo hi : K) (hle : lo ≤ hi) :
    clamp (fin x) (fin lo) (fin hi) = fin (max lo (min x hi)) := by
  unfold clamp
  simp only [fin_lt_fin]
  by_cases hl : x < lo
  · rw [if_pos hl, min_eq_left (hl.le.trans hle), max_eq_left hl.le]
  · rw [if_neg hl]
    by_cases hh : hi < x
    · rw [if_pos hh, min_eq_right hh.le, max_eq_right hle]
    · rw [if_neg hh, min_eq_left (not_lt.mp hh), max_eq_right (not_lt.mp hl)]

theorem clamp_mem {v : Dbl K} {lo hi x : K} (hle : lo ≤ hi)
    (h : clamp v (fin lo) (fin hi) = fin x) : lo ≤ x ∧ x ≤ hi := by
  cases v with
  | nan => simp [clamp] at h
  | ninf => simp [clamp] at h; subst h; exact ⟨le_refl _, hle⟩
  | pinf => simp [clamp] at h; subst h; exact ⟨hle, le_refl _⟩
  | fin y =>
    rw [clamp_fin_fin y lo hi hle] at h
    obtain rfl := Dbl.fin.inj h
    exact ⟨le_max_left _ _, max_le hle (min_le_right _ _)⟩

/-- A clamped number other than NaN lies between the bounds. -/
theorem clamp_between {v : Dbl K} {lo hi : K} (hle : lo ≤ hi) (hv : v.isNaN = false) :
    ∃ w : K, clamp v (fin lo) (fin hi) = fin w ∧ lo ≤ w ∧ w ≤ hi := by
  obtain ⟨w, hw⟩ := clamp_fin v lo hi hv
  exact ⟨w, hw, clamp_mem hle hw⟩

end Order

section Arith
variable {K : Type*} [Field K]

protected def neg : Dbl K → Dbl K
  | .nan => .nan
  | .ninf => .pinf
  | .fin a => .fin (-a)
  | .pinf => .ninf

protected def add : Dbl K → Dbl K → Dbl K
  | .nan, _ | _, .nan => .nan
  | .fin a, .fin b => .fin (a + b)
  | .fin _, b => b
  | a, .fin _ => a
  | .ninf, .ninf => .ninf
  | .pinf, .pinf => .pinf
  | .ninf, .pinf | .pinf, .ninf => .nan

instance : Neg (Dbl K) := ⟨Dbl.neg⟩
instance : Add (Dbl K) := ⟨Dbl.add⟩
instance : Sub (Dbl K) := ⟨fun a b => a + -b⟩

@[simp] theorem neg_fin (a : K) : -(fin a) = fin (-a) := rfl
@[simp] theorem neg_nan : -(nan : Dbl K) = nan := rfl
@[simp] theorem neg_ninf : -(ninf : Dbl K) = pinf := rfl
@[simp] theorem neg_pinf : -(pinf : Dbl K) = ninf := rfl
@[simp] theorem fin_add_fin (a b : K) : fin a + fin b = fin (a + b) := rfl
@[simp] theorem nan_add (a : Dbl K) : nan + a = nan := rfl
@[simp] theorem add_nan (a : Dbl K) : a + nan = nan := by cases a <;> rfl
@[simp] theorem pinf_add_fin (a : K) : pinf + fin a = pinf := rfl
@[simp] theorem ninf_add_fin (a : K) : ninf + fin a = ninf := rfl
@[simp] theorem fin_add_pinf (a : K) : fin a + pinf = pinf := rfl
@[simp] theorem fin_add_ninf (a : K) : fin a + ninf = ninf := rfl
@[simp] theorem fin_sub_fin (a b : K) : fin a - fin b = fin (a - b) := by
  change fin (a + -b) = fin (a - b)
  rw [sub_eq_add_neg]
@[simp] theorem pinf_sub_fin (a : K) : pinf - fin a = pinf := rfl
@[simp] theorem ninf_sub_fin (a : K) : ninf - fin a = ninf := rfl
@[simp] theorem fin_sub_ninf (a : K) : fin a - ninf = pinf := rfl
@[simp] theorem nan_sub (a : Dbl K) : nan - a = nan := rfl

theorem sub_fin_isNaN (v : Dbl K) (a : K) : (v - fin a).isNaN = v.isNaN := by
  cases v <;> simp

end Arith

section Scale
variable {K : Type*} [Field K] [LinearOrder K]

/-- Multiplication by a finite number; an infinity times zero is NaN. -/
def scale (c : K) : Dbl K → Dbl K
  | .nan => .nan
  | .fin a => .fin (c * a)
  | .pinf => if c = 0 then .nan else if 0 < c then .pinf else .ninf
  | .ninf => if c = 0 then .nan else if 0 < c then .ninf else .pinf

@[simp] theorem scale_nan (c : K) : scale c nan = nan := rfl
@[simp] theorem scale_fin (c a : K) : scale c (fin a) = fin (c * a) := rfl

/-- Float multiplication. -/
protected def mul : Dbl K → Dbl K → Dbl K
  | .nan, _ | _, .nan => .nan
  | .fin a, b => scale a b
  | a, .fin b => scale b a
  | .pinf, .pinf | .ninf, .ninf => .pinf
  | .pinf, .ninf | .ninf, .pinf => .ninf

/-- Float division of Python; `none` is the `ZeroDivisionError`. -/
def div (a b : Dbl K) : Option (Dbl K) :=
  match a, b with
  | a, .fin b => if b = 0 then none else some (scale b⁻¹ a)
  | .nan, _ | _, .nan => some .nan
  | .fin _, _ => some (.fin 0)
  | _, _ => some .nan

/-- `abs(x)`. -/
def abs : Dbl K → Dbl K
  | .nan => .nan
  | .fin a => .fin |a|
  | .ninf | .pinf => .pinf

instance : Mul (Dbl K) := ⟨Dbl.mul⟩

@[simp] theorem fin_mul_fin (a b : K) : fin a * fin b = fin (a * b) := rfl
@[simp] theorem abs_fin (a : K) : (fin a).abs = fin |a| := rfl

end Scale

section Sign
variable {K : Type*} [Field K] [LinearOrder K] [IsStrictOrderedRing K]

/-- `-x` where `flip` is set. -/
def flip : Bool → Dbl K → Dbl K
  | true, x => -x
  | false, x => x

theorem scale_neg {c : K} (hc : c ≠ 0) (v : Dbl K) : scale (-c) v = -scale c v := by
  rcases lt_or_gt_of_ne hc with h | h
  · have hneg : 0 < -c := by linarith
    cases v <;> simp [scale, hc, h.not_gt, hneg]
  · have hneg : ¬ 0 < -c := by linarith
    cases v <;> simp [scale, hc, h, hneg]

/-- The signs of a factor and a number cancel. -/
theorem scale_neg_neg {c : K} (hc : c ≠ 0) (v : Dbl K) : scale (-c) (-v) = scale c v := by
  rw [scale_neg hc]
  rcases lt_or_gt_of_ne hc with h | h
  · cases v <;> simp [scale, hc, h.not_gt]
  · cases v <;> simp [scale, hc, h]

end Sign

section Slew
variable {K : Type*} [Field K] [LinearOrder K] [IsStrictOrderedRing K]

/-- One slew step from a finite value towards `w` moves by at most `step`. -/
theorem slew_spec (t step : K) (w : Dbl K) (hs : 0 ≤ step) (hw : w.isNaN = false) :
    ∃ d : K, fin t + clamp (w - fin t) (fin (-step)) (fin step) = fin (t + d) ∧ |d| ≤ step := by
  obtain ⟨d, hd⟩ := clamp_fin (w - fin t) (-step) step (by rw [sub_fin_isNaN]; exact hw)
  refine ⟨d, by rw [hd, fin_add_fin], ?_⟩
  have hm := clamp_mem (by linarith) hd
  exact abs_le.mpr hm

/-- Towards a finite value the step is the clamped difference. -/
theorem slew_fin (t step w : K) (hs : 0 ≤ step) :
    fin t + clamp (fin w - fin t) (fin (-step)) (fin step) =
      fin (t + max (-step) (min (w - t) step)) := by
  rw [fin_sub_fin, clamp_fin_fin _ _ _ (by linarith), fin_add_fin]

/-- The distance of `x` to the interval from `lo` to `hi`. -/
def excess (lo hi x : K) : K := max 0 (max (lo - x) (x - hi))

theorem excess_eq_zero {lo hi x : K} : excess lo hi x = 0 ↔ lo ≤ x ∧ x ≤ hi := by
  rw [excess, max_eq_left_iff, max_le_iff, sub_nonpos, sub_nonpos]

theorem excess_below {lo hi x : K} (hle : lo ≤ hi) (h : x ≤ lo) : excess lo hi x = lo - x := by
  have hlo : x - hi ≤ lo - x := by linarith
  rw [excess, max_eq_left hlo, max_eq_right (by linarith)]

theorem excess_above {lo hi x : K} (hle : lo ≤ hi) (h : hi ≤ x) : excess lo hi x = x - hi := by
  have hhi : lo - x ≤ x - hi := by linarith
  rw [excess, max_eq_right hhi, max_eq_right (by linarith)]

/-- One slew step towards a point of the interval brings a value outside it closer by
the step, or into the interval. -/
theorem excess_slew {lo hi w step : K} (x : K) (hl : lo ≤ w) (hh : w ≤ hi) (hs : 0 ≤ step) :
    excess lo hi (x + max (-step) (min (w - x) step)) =
      excess lo hi x - min step (excess lo hi x) := by
  have hle := hl.trans hh
  rcases le_total x w with hxw | hwx
  · rw [max_eq_right (le_min (by linarith) (by linarith))]
    rcases le_total (w - x) step with hnear | hfar
    · rw [min_eq_left hnear, add_sub_cancel, excess_eq_zero.mpr ⟨hl, hh⟩]
      rcases le_total x lo with hx | hx
      · rw [excess_below hle hx, min_eq_right (by linarith), sub_self]
      · rw [excess_eq_zero.mpr ⟨hx, hxw.trans hh⟩, min_eq_right hs, sub_self]
    · rw [min_eq_right hfar]
      rcases le_total x lo with hx | hx
      · rw [excess_below hle hx]
        rcases le_total step (lo - x) with hstep | hstep
        · rw [min_eq_left hstep, excess_below hle (by linarith)]
          ring
        · rw [min_eq_right hstep, sub_self, excess_eq_zero]
          constructor <;> linarith
      · rw [excess_eq_zero.mpr ⟨hx, hxw.trans hh⟩, min_eq_right hs, sub_self, excess_eq_zero]
        constructor <;> linarith
  · rw [min_eq_left (by linarith)]
    rcases le_total (-step) (w - x) with hnear | hfar
    · rw [max_eq_right hnear, add_sub_cancel, excess_eq_zero.mpr ⟨hl, hh⟩]
      rcases le_total hi x with hx | hx
      · rw [excess_above hle hx, min_eq_right (by linarith), sub_self]
      · rw [excess_eq_zero.mpr ⟨hl.trans hwx, hx⟩, min_eq_right hs, sub_self]
    · rw [max_eq_left hfar]
      rcases le_total hi x with hx | hx
      · rw [excess_above hle hx]
        rcases le_total step (x - hi) with hstep | hstep
        · rw [min_eq_left hstep, excess_above hle (by linarith)]
          ring
        · rw [min_eq_right hstep, sub_self, excess_eq_zero]
          constructor <;> linarith
      · rw [excess_eq_zero.mpr ⟨hl.trans hwx, hx⟩, min_eq_right hs, sub_self, excess_eq_zero]
        constructor <;> linarith

end Slew

end Dbl

end IotRobot.Lib
