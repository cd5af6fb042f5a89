import IotRobot.Lib.Rounding
import Mathlib.Algebra.Ring.CharZero

/-!
# Doubles

Binary64 in exact arithmetic: every number within the range rounds to a double near it, and
doubles round to themselves.
-/

namespace IotRobot.Lib

set_option autoImplicit false

variable {K : Type*} [Field K] [LinearOrder K] [IsStrictOrderedRing K] [FloorRing K]

omit [LinearOrder K] [IsStrictOrderedRing K] [FloorRing K] in
theorem isDouble_intCast {n : Int} (h : |n| < 2 ^ 53) : IsDouble (n : K) :=
  ⟨n, 0, h, by omega, by omega, by rw [zpow_zero, mul_one]⟩

theorem two_zpow_pos (e : Int) : (0 : K) < 2 ^ e := zpow_pos two_pos e

theorem two_zpow_le {e f : Int} (h : e ≤ f) : (2 : K) ^ e ≤ 2 ^ f :=
  zpow_le_zpow_right₀ one_le_two h

omit [LinearOrder K] [IsStrictOrderedRing K] [FloorRing K] in
theorem intCast_two_pow (k : Nat) : ((2 ^ k : Int) : K) = 2 ^ (k : Int) := by
  rw [Int.cast_pow, Int.cast_ofNat, zpow_natCast]

theorem ulp_pos (x : K) : 0 < ulp x := two_zpow_pos _

omit [IsStrictOrderedRing K] in
theorem last_place_ge (x : K) : -1074 ≤ last_place x := by
  unfold last_place
  omega

/-- There are less than 2 ^ 53 last places in a number. -/
theorem abs_div_ulp_lt (x : K) : |x / ulp x| < (2 ^ 53 : Int) := by
  have hlog : |x| < (2 : K) ^ (Int.log 2 |x| + 1) := by
    have h := Int.lt_zpow_succ_log_self (one_lt_two (α := Nat)) |x|
    rwa [Nat.cast_ofNat] at h
  rw [abs_div, abs_of_pos (ulp_pos x), div_lt_iff₀ (ulp_pos x)]
  calc |x| < 2 ^ (Int.log 2 |x| + 1) := hlog
    _ ≤ 2 ^ (53 + last_place x) := two_zpow_le (by unfold last_place; omega)
    _ = (2 ^ 53 : Int) * ulp x := by rw [zpow_add₀ two_ne_zero, intCast_two_pow]; rfl

/-- A number that is not too small has 52 binary digits before the last place. -/
theorem two_zpow_le_abs {x : K} (hx : x ≠ 0) (hplace : last_place x ≠ -1074) :
    (2 : K) ^ (52 + last_place x) ≤ |x| := by
  have hself : (2 : K) ^ Int.log 2 |x| ≤ |x| := by
    have h := Int.zpow_log_le_self (one_lt_two (α := Nat)) (abs_pos.mpr hx)
    rwa [Nat.cast_ofNat] at h
  calc (2 : K) ^ (52 + last_place x) ≤ 2 ^ Int.log 2 |x| :=
        two_zpow_le (by unfold last_place at hplace ⊢; omega)
    _ ≤ |x| := hself

/-- There are at least 2 ^ 52 last places in it. -/
theorem le_abs_div_ulp {x : K} (hx : x ≠ 0) (hplace : last_place x ≠ -1074) :
    ((2 ^ 52 : Int) : K) ≤ |x / ulp x| := by
  rw [abs_div, abs_of_pos (ulp_pos x), le_div_iff₀ (ulp_pos x)]
  calc ((2 ^ 52 : Int) : K) * ulp x = 2 ^ (52 + last_place x) := by
        rw [zpow_add₀ two_ne_zero, intCast_two_pow]; rfl
    _ ≤ |x| := two_zpow_le_abs hx hplace

theorem ne_zero_of_last_place {x : K} (h : -52 < last_place x) : x ≠ 0 := by
  rintro rfl
  unfold last_place at h
  rw [abs_zero, Int.log_zero_right] at h
  omega

theorem abs_round_even_le {z : K} {n : Int} (h : |z| ≤ n) : |round_even z| ≤ n := by
  obtain ⟨hlow, hhigh⟩ := abs_le.mp h
  refine abs_le.mpr ⟨?_, ?_⟩
  · have hmono := round_even_mono hlow
    rwa [← Int.cast_neg, round_even_intCast] at hmono
  · have hmono := round_even_mono hhigh
    rwa [round_even_intCast] at hmono

theorem le_abs_round_even {z : K} {n : Int} (hn : 0 ≤ n) (h : (n : K) ≤ |z|) : n ≤ |round_even z| := by
  rcases le_abs.mp h with hpos | hneg
  · have hmono := round_even_mono hpos
    rw [round_even_intCast] at hmono
    exact hmono.trans (le_abs_self _)
  · have hmono := round_even_mono (le_neg_of_le_neg hneg)
    rw [← Int.cast_neg, round_even_intCast] at hmono
    rw [abs_of_nonpos (by omega)]
    omega

theorem nearest_double_near (x : K) : |nearest_double x - x| ≤ ulp x / 2 := by
  have hhalf := round_even_near (x / ulp x)
  have hsplit : nearest_double x - x = (round_even (x / ulp x) - x / ulp x) * ulp x := by
    unfold nearest_double
    rw [sub_mul, div_mul_cancel₀ _ (ulp_pos x).ne']
  rw [hsplit, abs_mul, abs_of_pos (ulp_pos x)]
  calc |(round_even (x / ulp x) : K) - x / ulp x| * ulp x ≤ 1 / 2 * ulp x :=
        mul_le_mul_of_nonneg_right hhalf (ulp_pos x).le
    _ = ulp x / 2 := by ring

/-- The largest double. -/
def largest_double : Int := (2 ^ 53 - 1) * 2 ^ 971

theorem IsDouble.abs_le {x : K} (h : IsDouble x) : |x| ≤ (largest_double : Int) := by
  obtain ⟨n, e, hn, -, he, rfl⟩ := h
  have hcast : |(n : K)| ≤ ((2 ^ 53 - 1 : Int) : K) := by
    rw [← Int.cast_abs, Int.cast_le]
    omega
  unfold largest_double
  rw [abs_mul, abs_of_pos (two_zpow_pos (K := K) e), Int.cast_mul, intCast_two_pow]
  exact mul_le_mul hcast (two_zpow_le he) (two_zpow_pos e).le ((abs_nonneg _).trans hcast)

/-- A double is its own nearest double. -/
theorem IsDouble.nearest {x : K} (h : IsDouble x) : nearest_double x = x := by
  obtain ⟨n, e, hn, hlow, -, rfl⟩ := h
  by_cases hzero : (n : K) * 2 ^ e = 0
  · unfold nearest_double
    rw [hzero, zero_div]
    have hround : round_even (0 : K) = 0 := by
      have h := round_even_intCast (K := K) 0
      rwa [Int.cast_zero] at h
    rw [hround, Int.cast_zero, zero_mul]
  -- its last digit is not behind the last place
  have hplace : last_place ((n : K) * 2 ^ e) ≤ e := by
    by_contra hgt
    have hnum : ((|n| : Int) : K) < 2 ^ (53 : Int) := by
      have hcast : ((|n| : Int) : K) < ((2 ^ 53 : Int) : K) := Int.cast_lt.mpr hn
      rwa [intCast_two_pow] at hcast
    have hpow : (2 : K) ^ (52 + last_place ((n : K) * 2 ^ e)) < 2 ^ (53 + e) :=
      calc (2 : K) ^ (52 + last_place ((n : K) * 2 ^ e)) ≤ |(n : K) * 2 ^ e| :=
            two_zpow_le_abs hzero (by omega)
        _ = ((|n| : Int) : K) * 2 ^ e := by
            rw [abs_mul, abs_of_pos (two_zpow_pos (K := K) e), Int.cast_abs]
        _ < 2 ^ (53 : Int) * 2 ^ e := mul_lt_mul_of_pos_right hnum (two_zpow_pos e)
        _ = 2 ^ (53 + e) := (zpow_add₀ two_ne_zero _ _).symm
    have hexp := (zpow_lt_zpow_iff_right₀ (one_lt_two (α := K))).mp hpow
    omega
  obtain ⟨k, hk⟩ := Int.eq_ofNat_of_zero_le (sub_nonneg.mpr hplace)
  have hwhole : (n : K) * 2 ^ e / ulp ((n : K) * 2 ^ e) = ((n * 2 ^ k : Int) : K) := by
    rw [div_eq_iff (ulp_pos _).ne', Int.cast_mul, intCast_two_pow, mul_assoc]
    unfold ulp
    rw [← zpow_add₀ two_ne_zero]
    congr 2
    omega
  unfold nearest_double
  rw [hwhole, round_even_intCast, ← hwhole, div_mul_cancel₀ _ (ulp_pos _).ne']

theorem largest_double_lt : ((largest_double : Int) : K) < 2 ^ (1024 : Int) := by
  have hlt : ((2 ^ 53 - 1 : Int) : K) < ((2 ^ 53 : Int) : K) := Int.cast_lt.mpr (by norm_num)
  unfold largest_double
  rw [Int.cast_mul, intCast_two_pow]
  calc ((2 ^ 53 - 1 : Int) : K) * 2 ^ ((971 : Nat) : Int) < (2 ^ 53 : Int) * 2 ^ ((971 : Nat) : Int) :=
        mul_lt_mul_of_pos_right hlt (two_zpow_pos _)
    _ = 2 ^ (1024 : Int) := by
        rw [intCast_two_pow, ← zpow_add₀ two_ne_zero]
        rfl

theorem abs_nearest_double (x : K) :
    |nearest_double x| = ((|round_even (x / ulp x)| : Int) : K) * ulp x := by
  unfold nearest_double
  rw [abs_mul, abs_of_pos (ulp_pos x), Int.cast_abs]

/-- The last place of a number within the range is that of a double. -/
theorem last_place_le {x : K} (h : |x| ≤ (largest_double : Int)) : last_place x ≤ 971 := by
  by_contra hgt
  have hfull := two_zpow_le_abs (ne_zero_of_last_place (x := x) (by omega)) (by omega)
  have hpow : (2 : K) ^ (1024 : Int) ≤ 2 ^ (52 + last_place x) := two_zpow_le (by omega)
  exact absurd (hpow.trans (hfull.trans h)) (not_le.mpr largest_double_lt)

/-- A number within the range rounds to a double. -/
theorem to_double_fin {x : K} (h : |x| ≤ (largest_double : Int)) : to_double x = .fin (nearest_double x) := by
  have hlt : |nearest_double x| < 2 ^ (1024 : Int) := by
    rw [abs_nearest_double]
    rcases (last_place_le h).lt_or_eq with hsmall | hlast
    · have hround : |round_even (x / ulp x)| ≤ 2 ^ 53 := abs_round_even_le (abs_div_ulp_lt x).le
      calc ((|round_even (x / ulp x)| : Int) : K) * ulp x ≤ (2 ^ 53 : Int) * 2 ^ (970 : Int) :=
            mul_le_mul (Int.cast_le.mpr hround) (two_zpow_le (by omega)) (ulp_pos x).le (by positivity)
        _ = 2 ^ (1023 : Int) := by
            rw [intCast_two_pow, ← zpow_add₀ two_ne_zero]
            rfl
        _ < 2 ^ (1024 : Int) := zpow_lt_zpow_right₀ one_lt_two (by omega)
    · have hulp : ulp x = 2 ^ ((971 : Nat) : Int) := congrArg ((2 : K) ^ ·) hlast
      have hround : |round_even (x / ulp x)| ≤ 2 ^ 53 - 1 := by
        apply abs_round_even_le
        rw [abs_div, abs_of_pos (ulp_pos x), div_le_iff₀ (ulp_pos x), hulp, ← intCast_two_pow,
          ← Int.cast_mul]
        exact h
      have hlargest : ((|round_even (x / ulp x)| : Int) : K) * ulp x ≤ (largest_double : Int) := by
        unfold largest_double
        rw [Int.cast_mul, intCast_two_pow, ← hulp]
        exact mul_le_mul_of_nonneg_right (Int.cast_le.mpr hround) (ulp_pos x).le
      exact hlargest.trans_lt largest_double_lt
  obtain ⟨hlow, hhigh⟩ := abs_lt.mp hlt
  unfold to_double
  rw [if_neg (not_le.mpr hhigh), if_neg (not_le.mpr hlow)]

theorem IsDouble.to_double {x : K} (h : IsDouble x) : to_double x = .fin x := by
  rw [to_double_fin h.abs_le, h.nearest]

/-- What is not beyond the range is a double. -/
theorem isDouble_of_to_double {x y : K} (h : to_double x = .fin y) : IsDouble y := by
  have hbounds : |y| < 2 ^ (1024 : Int) ∧ y = nearest_double x := by
    unfold Lib.to_double at h
    split at h
    · cases h
    next hhigh =>
      split at h
      · cases h
      next hlow =>
        obtain rfl := Dbl.fin.inj h
        exact ⟨abs_lt.mpr ⟨not_le.mp hlow, not_le.mp hhigh⟩, rfl⟩
  obtain ⟨hlt, rfl⟩ := hbounds
  rw [abs_nearest_double] at hlt
  have hlow := last_place_ge x
  have hround : |round_even (x / ulp x)| ≤ 2 ^ 53 := abs_round_even_le (abs_div_ulp_lt x).le
  -- so many last places keep the exponent below that of the range
  have hexponent {k : Nat} (hk : (2 : Int) ^ k ≤ |round_even (x / ulp x)|) : k + last_place x < 1024 := by
    have hpow : (2 : K) ^ ((k : Int) + last_place x) < 2 ^ (1024 : Int) := by
      rw [zpow_add₀ two_ne_zero, ← intCast_two_pow]
      exact (mul_le_mul_of_nonneg_right (Int.cast_le.mpr hk) (ulp_pos x).le).trans_lt hlt
    exact (zpow_lt_zpow_iff_right₀ one_lt_two).mp hpow
  rcases hround.lt_or_eq with hless | hfull
  · refine ⟨_, last_place x, hless, hlow, ?_, rfl⟩
    by_contra hgt
    have hne : x ≠ 0 := ne_zero_of_last_place (by omega)
    have hk := le_abs_round_even (by positivity) (le_abs_div_ulp hne (by omega))
    have hlast := hexponent hk
    omega
  · -- a carry: one digit less, with the next exponent
    have hlast := hexponent hfull.ge
    obtain ⟨m, hm, hsmall⟩ : ∃ m : Int, round_even (x / ulp x) = m * 2 ∧ |m| < 2 ^ 53 := by
      rcases abs_eq (by positivity) |>.mp hfull with hpos | hneg
      · exact ⟨2 ^ 52, hpos, by norm_num⟩
      · exact ⟨-2 ^ 52, hneg, by norm_num⟩
    refine ⟨m, last_place x + 1, hsmall, by omega, by omega, ?_⟩
    unfold nearest_double
    rw [hm, Int.cast_mul, Int.cast_ofNat]
    unfold ulp
    rw [zpow_add_one₀ two_ne_zero]
    ring

omit [IsStrictOrderedRing K] in
/-- Doubles are multiples of the smallest one. -/
theorem IsDouble.multiple {x : K} (h : IsDouble x) : ∃ k : Int, x = k * 2 ^ (-1074 : Int) := by
  obtain ⟨n, e, -, hlow, -, rfl⟩ := h
  obtain ⟨k, hk⟩ := Int.eq_ofNat_of_zero_le (sub_nonneg.mpr hlow)
  refine ⟨n * 2 ^ k, ?_⟩
  rw [Int.cast_mul, intCast_two_pow, mul_assoc, ← zpow_add₀ two_ne_zero, ← hk, sub_add_cancel]

/-- Different doubles have a difference that does not round to zero. -/
theorem nearest_double_sub_ne {x y : K} (hx : IsDouble x) (hy : IsDouble y) (hne : x ≠ y) :
    nearest_double (x - y) ≠ 0 := by
  obtain ⟨k, hk⟩ := hx.multiple
  obtain ⟨l, hl⟩ := hy.multiple
  have hzero : x - y ≠ 0 := sub_ne_zero.mpr hne
  have hdiff : x - y = ((k - l : Int) : K) * 2 ^ (-1074 : Int) := by
    rw [hk, hl, Int.cast_sub, sub_mul]
  have hround : round_even ((x - y) / ulp (x - y)) ≠ 0 := by
    by_cases hplace : last_place (x - y) = -1074
    · have hulp : ulp (x - y) = 2 ^ (-1074 : Int) := congrArg ((2 : K) ^ ·) hplace
      rw [hulp, hdiff, mul_div_cancel_right₀ _ (two_zpow_pos _).ne', round_even_intCast]
      rintro hkl
      apply hzero
      rw [hdiff, hkl, Int.cast_zero, zero_mul]
    · have hk := le_abs_round_even (by positivity) (le_abs_div_ulp hzero hplace)
      intro hnone
      rw [hnone, abs_zero] at hk
      norm_num at hk
  unfold nearest_double
  exact mul_ne_zero (Int.cast_ne_zero.mpr hround) (ulp_pos _).ne'

theorem le_largest_double {n : Int} (h : n ≤ 2 ^ 53 - 1) : (n : K) ≤ (largest_double : Int) := by
  have hpow : (1 : Int) ≤ 2 ^ 971 := one_le_pow₀ (by norm_num)
  refine Int.cast_le.mpr (h.trans ?_)
  calc (2 ^ 53 - 1 : Int) = (2 ^ 53 - 1) * 1 := by norm_num
    _ ≤ (2 ^ 53 - 1) * 2 ^ 971 := mul_le_mul_of_nonneg_left hpow (by norm_num)

theorem two_le_largest_double : (2 : K) ≤ (largest_double : Int) := by
  have htwo := le_largest_double (K := K) (n := 2) (by norm_num)
  rwa [Int.cast_ofNat] at htwo

/-- A number up to 2 rounds to a double that is very near. -/
theorem to_double_near {x : K} (h : |x| ≤ 2) :
    ∃ y, to_double x = .fin y ∧ |y - x| ≤ 2 ^ (-52 : Int) := by
  have hlargest : |x| ≤ (largest_double : Int) := h.trans two_le_largest_double
  have hplace : last_place x ≤ -51 := by
    by_contra hgt
    have hpow : (2 : K) ^ (52 + last_place x) ≤ 2 ^ (1 : Int) := by
      rw [zpow_one]
      exact (two_zpow_le_abs (ne_zero_of_last_place (by omega)) (by omega)).trans h
    have hexp := (zpow_le_zpow_iff_right₀ (one_lt_two (α := K))).mp hpow
    omega
  refine ⟨_, to_double_fin hlargest, (nearest_double_near x).trans ?_⟩
  calc ulp x / 2 ≤ 2 ^ (-51 : Int) / 2 := div_le_div_of_nonneg_right (two_zpow_le hplace) two_pos.le
    _ = 2 ^ (-52 : Int) := by
      rw [div_eq_iff two_ne_zero, ← zpow_add_one₀ two_ne_zero]
      rfl

/-- Rounding keeps the order of positive numbers. -/
theorem nearest_double_mono {x y : K} (hx : 0 < x) (h : x ≤ y) : nearest_double x ≤ nearest_double y := by
  have hy := hx.trans_le h
  have hlog : last_place x ≤ last_place y := by
    have hmono : Int.log 2 |x| ≤ Int.log 2 |y| := by
      rw [abs_of_pos hx, abs_of_pos hy]
      exact Int.log_mono_right hx h
    unfold last_place
    omega
  rcases hlog.lt_or_eq with hlt | heq
  · -- a power of two lies between them
    have hlow := last_place_ge x
    have hbelow : nearest_double x ≤ (2 ^ 53 : Int) * ulp x := by
      refine (le_abs_self _).trans ?_
      rw [abs_nearest_double]
      exact mul_le_mul_of_nonneg_right (Int.cast_le.mpr (abs_round_even_le (abs_div_ulp_lt x).le))
        (ulp_pos x).le
    have habove : (2 ^ 52 : Int) * ulp y ≤ nearest_double y := by
      have hfull := le_abs_div_ulp hy.ne' (by omega)
      rw [abs_of_pos (div_pos hy (ulp_pos y))] at hfull
      have hround := round_even_mono hfull
      rw [round_even_intCast] at hround
      exact mul_le_mul_of_nonneg_right (Int.cast_le.mpr hround) (ulp_pos y).le
    refine hbelow.trans (le_trans ?_ habove)
    rw [intCast_two_pow, intCast_two_pow]
    unfold ulp
    rw [← zpow_add₀ two_ne_zero, ← zpow_add₀ two_ne_zero]
    exact two_zpow_le (by omega)
  · unfold nearest_double
    have hulp : ulp x = ulp y := congrArg ((2 : K) ^ ·) heq
    rw [hulp]
    refine mul_le_mul_of_nonneg_right (Int.cast_le.mpr (round_even_mono ?_)) (ulp_pos y).le
    exact div_le_div_of_nonneg_right h (ulp_pos y).le

omit [LinearOrder K] [IsStrictOrderedRing K] [FloorRing K] in
/-- NaN, an infinity or a finite double. -/
def Dbl.Representable (d : Dbl K) : Prop := ∀ x, d = .fin x → IsDouble x

omit [LinearOrder K] [IsStrictOrderedRing K] [FloorRing K] in
/-- The result of an operation from its exact result, given how numbers are rounded. -/
def rounded (fl : K → Dbl K) (d : Dbl K) : Dbl K :=
  match d with
  | .fin x => fl x
  | d => d

omit [Field K] [LinearOrder K] [IsStrictOrderedRing K] [FloorRing K] in
theorem rounded_fin (fl : K → Dbl K) (x : K) : rounded fl (.fin x) = fl x := rfl

theorem rounded_representable (d : Dbl K) : (rounded to_double d).Representable := by
  intro x hx
  cases d with
  | nan | ninf | pinf => cases hx
  | fin y => exact isDouble_of_to_double hx

/-- Rounding to decimals stays within integer bounds. -/
theorem abs_round_digits_le {x : K} {n : Int} (digits : Nat) (h : |x| ≤ n) : |round_digits digits x| ≤ n := by
  have hpow : (0 : K) < 10 ^ digits := by positivity
  have hcast : ((n * 10 ^ digits : Int) : K) = n * 10 ^ digits := by
    rw [Int.cast_mul, Int.cast_pow, Int.cast_ofNat]
  have hround : |round_even (x * 10 ^ digits)| ≤ n * 10 ^ digits := by
    apply abs_round_even_le
    rw [hcast, abs_mul, abs_of_pos hpow]
    exact mul_le_mul_of_nonneg_right h hpow.le
  have hrounded := Int.cast_le (R := K) |>.mpr hround
  rw [Int.cast_abs, hcast] at hrounded
  unfold round_digits
  rwa [abs_div, abs_of_pos hpow, div_le_iff₀ hpow]

end IotRobot.Lib
