import IotRobot.Lib.Dbl
import IotRobot.Lib.Rounding
import IotRobot.Lib.Text

/-!
# Numbers as decimal text

`f"{x:.1f}"` of Python in exact arithmetic: a number is rounded to a fixed number of
decimals and written out. Whatever reads decimal literals as what they say reads the
rounded number back.
-/

namespace IotRobot.Lib

set_option autoImplicit false

/-- The decimal digits of a number, with zeros in front up to a width. -/
def padded (width n : Nat) : List Char :=
  List.replicate (width - (Nat.toDigits 10 n).length) '0' ++ Nat.toDigits 10 n

theorem padded_length {width n : Nat} (hwidth : 0 < width) (h : n < 10 ^ width) :
    (padded width n).length = width := by
  have hlen := (Nat.length_toDigits_le_iff (by omega) hwidth).mpr h
  unfold padded
  rw [List.length_append, List.length_replicate]
  omega

theorem isDigit_of_mem_padded {width n : Nat} {ch : Char} (h : ch ∈ padded width n) :
    ch.isDigit = true := by
  rcases List.mem_append.mp h with hzero | hdigit
  · rw [List.eq_of_mem_replicate hzero]
    rfl
  · exact Nat.isDigit_of_mem_toDigits (by omega) (by omega) hdigit

/-- Digits followed by the padded digits of a remainder. -/
theorem ofDigitChars_padded {width n m : Nat} (hwidth : 0 < width) (h : m < 10 ^ width) :
    Nat.ofDigitChars 10 (Nat.toDigits 10 n ++ padded width m) 0 = n * 10 ^ width + m := by
  rw [Nat.ofDigitChars_append, Nat.ofDigitChars_eq_ofDigitChars_zero, padded_length hwidth h,
    Nat.ofDigitChars_ten_toDigits]
  unfold padded
  rw [Nat.ofDigitChars_append, Nat.ofDigitChars_replicate_zero, Nat.mul_zero,
    Nat.ofDigitChars_ten_toDigits, Nat.mul_comm]

section Decimal
variable {K : Type*} [Field K]

/-- What the digits before and behind a decimal point say. -/
def decimal_value (whole frac : List Char) : K :=
  (Nat.ofDigitChars 10 (whole ++ frac) 0 : Nat) / ((10 ^ frac.length : Nat) : K)

/-- A sign, digits, a point and digits. -/
def literal (negative : Bool) (whole frac : List Char) : List Char :=
  (if negative then ['-'] else []) ++ (whole ++ '.' :: frac)

/-- A reader of numbers reads decimal literals as what they say. -/
def ReadsDecimals (float : List Char → Option (Dbl K)) : Prop :=
  ∀ (negative : Bool) (whole frac : List Char), whole ≠ [] → frac ≠ [] →
    (∀ ch ∈ whole ++ frac, ch.isDigit = true) →
    float (literal negative whole frac) =
      some (.fin ((if negative then -1 else 1) * decimal_value whole frac))

/-- A reader of decimal literals and nothing else. -/
def read_decimal (text : List Char) : Option (Dbl K) :=
  let negative : Bool := text.head? = some '-'
  let (whole, point, frac) := partition_at '.' (if negative then text.tail else text)
  if point = true ∧ whole ≠ [] ∧ frac ≠ [] ∧ (whole ++ frac).all Char.isDigit = true then
    some (.fin ((if negative then -1 else 1) * decimal_value whole frac))
  else none

theorem reads_decimals_read_decimal : ReadsDecimals (K := K) read_decimal := by
  intro negative whole frac hwhole hfrac hdigits
  have hpoint : '.' ∉ whole := by
    intro h
    exact absurd (hdigits _ (List.mem_append_left _ h)) (by decide)
  have hall : (whole ++ frac).all Char.isDigit = true := List.all_eq_true.mpr hdigits
  have hhead : decide ((literal negative whole frac).head? = some '-') = negative := by
    cases negative with
    | true => rfl
    | false =>
      obtain ⟨ch, rest, rfl⟩ := List.exists_cons_of_ne_nil hwhole
      apply decide_eq_false
      rintro ⟨⟩
      exact absurd (hdigits '-' List.mem_cons_self) (by decide)
  have htail : (if negative = true then (literal negative whole frac).tail
      else literal negative whole frac) = whole ++ '.' :: frac := by
    cases negative <;> rfl
  unfold read_decimal
  rw [hhead]
  dsimp only
  rw [htail, partition_at_cons hpoint]
  exact if_pos ⟨rfl, hwhole, hfrac, hall⟩

variable [LinearOrder K] [FloorRing K]

/-- A number with a fixed number of decimals. -/
def fixed (digits : Nat) (x : K) : List Char :=
  let n := (round_even (x * ((10 ^ digits : Nat) : K))).natAbs
  literal (x < 0) (Nat.toDigits 10 (n / 10 ^ digits)) (padded digits (n % 10 ^ digits))

/-- A written number has no other characters than these. -/
theorem mem_fixed {digits : Nat} {x : K} {ch : Char} (h : ch ∈ fixed digits x) :
    ch = '-' ∨ ch = '.' ∨ ch.isDigit = true := by
  unfold fixed literal at h
  rcases List.mem_append.mp h with hsign | h
  · split at hsign
    · exact .inl (List.mem_singleton.mp hsign)
    · cases hsign
  rcases List.mem_append.mp h with hwhole | h
  · exact .inr (.inr (Nat.isDigit_of_mem_toDigits (by omega) (by omega) hwhole))
  rcases List.mem_cons.mp h with hpoint | hfrac
  · exact .inr (.inl hpoint)
  · exact .inr (.inr (isDigit_of_mem_padded hfrac))

variable [IsStrictOrderedRing K]

/-- The sign that is written belongs to the rounded number. -/
theorem signed_natAbs (digits : Nat) (x : K) :
    (if x < 0 then -1 else 1) * ((round_even (x * 10 ^ digits)).natAbs : K) =
      round_even (x * 10 ^ digits) := by
  have hpow : (0 : K) < 10 ^ digits := pow_pos (by norm_num) digits
  by_cases hx : x < 0
  · have hle : round_even (x * 10 ^ digits) ≤ 0 := by
      have h := round_even_mono (mul_neg_of_neg_of_pos hx hpow).le
      rwa [← Int.cast_zero (R := K), round_even_intCast] at h
    rw [if_pos hx, neg_one_mul, Nat.cast_natAbs, abs_of_nonpos hle, Int.cast_neg, neg_neg]
  · have hle : 0 ≤ round_even (x * 10 ^ digits) := by
      have h := round_even_mono (mul_nonneg (not_lt.mp hx) hpow.le)
      rwa [← Int.cast_zero (R := K), round_even_intCast] at h
    rw [if_neg hx, one_mul, Nat.cast_natAbs, abs_of_nonneg hle]

/-- A number that was written with a fixed number of decimals is read as it was rounded. -/
theorem float_fixed {float : List Char → Option (Dbl K)} (h : ReadsDecimals float) {digits : Nat}
    (hdigits : 0 < digits) (x : K) : float (fixed digits x) = some (.fin (round_digits digits x)) := by
  have hpow : 0 < 10 ^ digits := Nat.pow_pos (by omega)
  have hscale : ((10 ^ digits : Nat) : K) = 10 ^ digits := by
    rw [Nat.cast_pow, Nat.cast_ofNat]
  have hpad := padded_length hdigits (Nat.mod_lt (round_even (x * 10 ^ digits)).natAbs hpow)
  have hne : padded digits ((round_even (x * 10 ^ digits)).natAbs % 10 ^ digits) ≠ [] := by
    intro hnil
    rw [hnil, List.length_nil] at hpad
    omega
  unfold fixed
  dsimp only
  rw [hscale, h _ _ _ Nat.toDigits_ne_nil hne]
  · unfold decimal_value
    rw [ofDigitChars_padded hdigits (Nat.mod_lt _ hpow), hpad, hscale,
      Nat.div_add_mod', ← mul_div_assoc]
    unfold round_digits
    rw [← signed_natAbs digits x]
    simp only [decide_eq_true_eq]
  · intro ch hch
    rcases List.mem_append.mp hch with hwhole | hfrac
    · exact Nat.isDigit_of_mem_toDigits (by omega) (by omega) hwhole
    · exact isDigit_of_mem_padded hfrac

end Decimal

end IotRobot.Lib
