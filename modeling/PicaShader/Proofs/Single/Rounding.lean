/-
**Rounding to singles.**

A decimal is rounded as a quotient, and only the quotient counts: a common factor of numerator and
denominator makes no difference (`Single.magnitude?_mul_right`), so that decimals of one value are
rounded alike (`Decimal.rounded?_mul_pow`). Every finite magnitude is the one nearest to itself
(`Single.magnitude?_units`), which makes its decimal in full read back, and hence the shortest one
(`Single.rounded?_shortest`). A decimal that is rounded to a magnitude other than zero is neither
huge nor tiny (`Decimal.leading_bounds`).
-/

import PicaShader.Single.Reading
import PicaShader.Single.Shortest

namespace PicaShader

/-! ### Quotients -/

namespace Single

variable {numerator denominator factor magnitude : Nat}

theorem nearest_mul_right (positive : 0 < factor) :
    nearest (numerator * factor) (denominator * factor) = nearest numerator denominator := by
  have rest : 2 * (numerator % denominator * factor) = 2 * (numerator % denominator) * factor := by
    rw [Nat.mul_assoc]
  simp only [nearest, Nat.mul_div_mul_right _ _ positive, Nat.mul_mod_mul_right, rest, gt_iff_lt,
    Nat.mul_lt_mul_right positive, Nat.mul_left_inj (Nat.ne_of_gt positive)]

/-- A quotient that is whole is not rounded. -/
theorem nearest_mul_self (whole : Nat) (positive : 0 < denominator) :
    nearest (whole * denominator) denominator = whole := by
  have exact : ¬ 2 * (whole * denominator % denominator) > denominator := by
    rw [Nat.mul_mod_left]
    omega
  have uneven : 2 * (whole * denominator % denominator) ≠ denominator := by
    rw [Nat.mul_mod_left]
    omega
  simp only [nearest, exact, uneven, false_and, or_self, if_false,
    Nat.mul_div_cancel _ positive]

/-- **Only the quotient is rounded.** -/
theorem magnitude?_mul_right (positive : 0 < factor) :
    magnitude? (numerator * factor) (denominator * factor) = magnitude? numerator denominator := by
  have scaled : numerator * factor * 2 ^ 149 = numerator * 2 ^ 149 * factor := by
    rw [Nat.mul_right_comm]
  simp only [magnitude?, scaled, Nat.mul_div_mul_right _ _ positive,
    Nat.mul_right_comm denominator factor, nearest_mul_right positive]

/-- The units of a magnitude are a significand in a binade; the pattern is both, one after the
other. -/
theorem exists_units_eq (magnitude : Nat) :
    ∃ binade significand, units magnitude = significand * 2 ^ binade
      ∧ (units magnitude).log2 - 23 = binade ∧ binade * 2 ^ 23 + significand = magnitude := by
  have small := Nat.mod_lt magnitude (Nat.two_pow_pos 23)
  have split := Nat.div_add_mod' magnitude (2 ^ 23)
  cases exponent : magnitude / 2 ^ 23 with
  | zero =>
    have units : units magnitude = magnitude := if_pos exponent
    have low : magnitude < 2 ^ 23 := (Nat.div_eq_zero_iff_lt (Nat.two_pow_pos 23)).mp exponent
    have width : magnitude.log2 - 23 = 0 := by
      by_cases zero : magnitude = 0
      · rw [zero, Nat.log2_zero]
      · have width := (Nat.log2_lt zero).mpr low
        omega
    refine ⟨0, magnitude, ?_, ?_, ?_⟩
    · rw [units, Nat.pow_zero, Nat.mul_one]
    · rw [units, width]
    · rw [Nat.zero_mul, Nat.zero_add]
  | succ binade =>
    have normal : units magnitude = (magnitude % 2 ^ 23 + 2 ^ 23) * 2 ^ binade := by
      simp only [units, exponent, if_neg (Nat.succ_ne_zero binade), Nat.add_sub_cancel]
    have positive := Nat.two_pow_pos binade
    have width : (units magnitude).log2 = binade + 23 := by
      have some : units magnitude ≠ 0 := by
        rw [normal]
        exact Nat.ne_of_gt (Nat.mul_pos (by omega) positive)
      rw [Nat.log2_eq_iff some, normal, Nat.add_right_comm, Nat.add_assoc binade,
        Nat.pow_add, Nat.pow_add, Nat.mul_comm (2 ^ binade), Nat.mul_comm (2 ^ binade)]
      exact ⟨Nat.mul_le_mul_right _ (by omega), Nat.mul_lt_mul_of_pos_right (by omega) positive⟩
    refine ⟨binade, _, normal, by omega, ?_⟩
    rw [exponent, Nat.succ_mul, Nat.add_assoc, Nat.add_comm (2 ^ 23)] at split
    exact split

/-- **A finite magnitude is the one nearest to itself.** -/
theorem magnitude?_units (finite : magnitude < infinity) :
    magnitude? (units magnitude) (2 ^ 149) = some magnitude := by
  obtain ⟨binade, significand, shape, width, whole⟩ := exists_units_eq magnitude
  have scaled : units magnitude * 2 ^ 149 = significand * (2 ^ 149 * 2 ^ binade) := by
    rw [shape, Nat.mul_assoc, Nat.mul_comm (2 ^ binade)]
  have positive : 0 < 2 ^ 149 * 2 ^ binade :=
    Nat.mul_pos (Nat.two_pow_pos 149) (Nat.two_pow_pos binade)
  simp only [magnitude?, Nat.mul_div_cancel _ (Nat.two_pow_pos 149), width]
  rw [scaled, nearest_mul_self significand positive, whole, if_pos finite]

theorem lt_two_pow_mul_two_pow {value first second : Nat}
    (width : value.log2 + 1 ≤ first + second) : value < 2 ^ first * 2 ^ second := by
  rw [← Nat.pow_add]
  exact Nat.lt_of_lt_of_le Nat.lt_log2_self (Nat.pow_le_pow_right Nat.two_pos width)

/-- What is rounded to a finite magnitude is below `2 ^ 129`. -/
theorem lt_of_magnitude? (positive : 0 < denominator)
    (rounded : magnitude? numerator denominator = some magnitude) :
    numerator < 2 ^ 129 * denominator := by
  simp only [magnitude?, Option.ite_none_right_eq_some] at rounded
  have finite := rounded.1
  generalize whole : numerator * 2 ^ 149 / denominator = quotient at finite
  have binade : (quotient.log2 - 23) * 2 ^ 23 < 255 * 2 ^ 23 :=
    Nat.lt_of_le_of_lt (Nat.le_add_right _ _) finite
  have width : quotient.log2 + 1 ≤ 129 + 149 := by
    have := Nat.lt_of_mul_lt_mul_right binade
    omega
  have small : numerator * 2 ^ 149 / denominator < 2 ^ 129 * 2 ^ 149 := by
    rw [whole]
    exact lt_two_pow_mul_two_pow width
  rw [Nat.div_lt_iff_lt_mul positive, Nat.mul_right_comm] at small
  exact Nat.lt_of_mul_lt_mul_right small

/-- What is rounded to a magnitude other than zero is at least `2 ^ -150`. -/
theorem le_of_magnitude? (some : magnitude ≠ 0)
    (rounded : magnitude? numerator denominator = .some magnitude) :
    denominator ≤ numerator * 2 ^ 150 := by
  apply Nat.le_of_not_lt
  intro less
  have tiny : 2 * (numerator * 2 ^ 149) < denominator := by
    rwa [Nat.mul_left_comm, ← Nat.pow_succ']
  have zero : nearest (numerator * 2 ^ 149) denominator = 0
      ∧ numerator * 2 ^ 149 / denominator = 0 := by
    generalize numerator * 2 ^ 149 = scaled at tiny
    have none : scaled / denominator = 0 := Nat.div_eq_of_lt (by omega)
    have rest : scaled % denominator = scaled := Nat.mod_eq_of_lt (by omega)
    refine ⟨?_, none⟩
    rw [nearest, none, rest, if_neg (by omega)]
  simp only [magnitude?, zero, Nat.log2_zero, Nat.zero_sub, Nat.zero_mul, Nat.zero_add,
    Nat.pow_zero, Nat.mul_one, Option.ite_none_right_eq_some] at rounded
  exact some (Option.some.inj rounded.2).symm

end Single

/-! ### Decimals -/

namespace Decimal

/-- The magnitude nearest to a decimal. -/
def rounded? (decimal : Decimal) : Option Nat :=
  Single.magnitude? decimal.ratio.1 decimal.ratio.2

/-- A decimal over a power of ten that makes it whole. -/
theorem rounded?_eq {digits shift : Nat} {exponent : Int} {size : Nat}
    (whole : exponent + shift = size) :
    rounded? ⟨digits, exponent⟩ = Single.magnitude? (digits * 10 ^ size) (10 ^ shift) := by
  have positive (count : Nat) : 0 < 10 ^ count := Nat.pow_pos (by decide)
  cases exponent with
  | ofNat power =>
    have sum : size = power + shift := Int.ofNat.inj whole.symm
    have scaled : Single.magnitude? (digits * 10 ^ power * 10 ^ shift) (1 * 10 ^ shift)
        = Single.magnitude? (digits * 10 ^ power) 1 :=
      Single.magnitude?_mul_right (positive shift)
    rw [Nat.one_mul] at scaled
    rw [sum, Nat.pow_add, ← Nat.mul_assoc, scaled]
    rfl
  | negSucc power =>
    have sum : shift = power + 1 + size := by omega
    rw [sum, Nat.pow_add, Single.magnitude?_mul_right (positive size)]
    rfl

/-- **Decimals of one value are rounded alike.** -/
theorem rounded?_mul_pow (digits count : Nat) (exponent : Int) :
    rounded? ⟨digits * 10 ^ count, exponent⟩ = rounded? ⟨digits, exponent + count⟩ := by
  obtain ⟨shift, size, whole⟩ : ∃ shift size : Nat, exponent + shift = size :=
    ⟨exponent.natAbs, (exponent + exponent.natAbs).toNat, by omega⟩
  have further : exponent + count + shift = (size + count : Nat) := by omega
  rw [rounded?_eq whole, rounded?_eq further, Nat.mul_assoc, ← Nat.pow_add, Nat.add_comm count]

/-- A decimal that is rounded to a magnitude other than zero is neither huge nor tiny: here by the
exponent of its leading digit. -/
theorem leading_bounds {digits length magnitude : Nat} {exponent : Int}
    (atLeast : 10 ^ length ≤ digits) (below : digits < 10 ^ (length + 1)) (some : magnitude ≠ 0)
    (rounded : rounded? ⟨digits, exponent⟩ = .some magnitude) :
    -47 ≤ exponent + length ∧ exponent + length < 39 := by
  obtain ⟨shift, size, whole⟩ : ∃ shift size : Nat, exponent + shift = size :=
    ⟨exponent.natAbs, (exponent + exponent.natAbs).toNat, by omega⟩
  have positive : 0 < 10 ^ shift := Nat.pow_pos (by decide)
  rw [rounded?_eq whole] at rounded
  have huge : 10 ^ (length + size) < 10 ^ (39 + shift) := by
    calc 10 ^ (length + size) ≤ digits * 10 ^ size := by
          rw [Nat.pow_add]
          exact Nat.mul_le_mul_right _ atLeast
      _ < 2 ^ 129 * 10 ^ shift := Single.lt_of_magnitude? positive rounded
      _ ≤ 10 ^ (39 + shift) := by
          rw [Nat.pow_add]
          exact Nat.mul_le_mul_right _ (by decide)
  have tiny : 10 ^ shift < 10 ^ (length + 1 + size + 46) := by
    calc 10 ^ shift ≤ digits * 10 ^ size * 2 ^ 150 := Single.le_of_magnitude? some rounded
      _ < 10 ^ (length + 1) * 10 ^ size * 10 ^ 46 := by
          have scaled : digits * 10 ^ size < 10 ^ (length + 1) * 10 ^ size :=
            Nat.mul_lt_mul_of_pos_right below (Nat.pow_pos (by decide))
          exact Nat.mul_lt_mul_of_lt_of_le scaled (by decide) (by decide)
      _ = 10 ^ (length + 1 + size + 46) := by rw [← Nat.pow_add, ← Nat.pow_add]
  have upper := (Nat.pow_lt_pow_iff_right (by decide : 1 < 10)).mp huge
  have lower := (Nat.pow_lt_pow_iff_right (by decide : 1 < 10)).mp tiny
  omega

end Decimal

/-! ### Shortest decimals -/

namespace Single

variable {magnitude : Nat} {decimal : Decimal}

theorem readsBack_iff : readsBack magnitude decimal ↔ decimal.rounded? = some magnitude :=
  beq_iff_eq

theorem rounded?_inFull (finite : magnitude < infinity) :
    (inFull magnitude).rounded? = some magnitude := by
  have whole : (-149 : Int) + 149 = (0 : Nat) := rfl
  have powers : 10 ^ 149 = 2 ^ 149 * 5 ^ 149 := Nat.mul_pow 2 5 149
  rw [inFull, Decimal.rounded?_eq whole, Nat.pow_zero, Nat.mul_one, powers,
    magnitude?_mul_right (Nat.pow_pos (by decide)), magnitude?_units finite]

theorem rounded?_of_firstReading? {first second : Decimal}
    (found : firstReading? magnitude first second = some decimal) :
    decimal.rounded? = some magnitude := by
  unfold firstReading? at found
  split at found
  · next reads =>
    obtain rfl := Option.some.inj found
    exact readsBack_iff.mp reads
  · split at found
    · next reads =>
      obtain rfl := Option.some.inj found
      exact readsBack_iff.mp reads
    · cases found

theorem rounded?_of_nearer? {exponent : Int} {below : Nat} {side : Ordering}
    (found : nearer? magnitude exponent below side = some decimal) :
    decimal.rounded? = some magnitude := by
  unfold nearer? at found
  split at found
  · exact rounded?_of_firstReading? found
  · exact rounded?_of_firstReading? found

/-- **The shortest decimal of a magnitude reads back.** -/
theorem rounded?_shortest (finite : magnitude < infinity) :
    (shortest magnitude).rounded? = some magnitude := by
  unfold shortest
  cases found : [1, 2, 3, 4, 5, 6, 7, 8, 9].findSome? (withDigits? magnitude) with
  | none => exact rounded?_inFull finite
  | some decimal =>
    obtain ⟨count, -, short⟩ := List.exists_of_findSome?_eq_some found
    exact rounded?_of_nearer? short

end Single

end PicaShader
