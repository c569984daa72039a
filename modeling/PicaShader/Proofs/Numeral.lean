/-
**Numerals are read back.**

A number is written digit by digit, the last one being its remainder, and reading appends one digit
at a time, so that both follow the same recursion (`Numeral.inBase_of_le`). Every number below the
bound is read back from its digits (`Numeral.read?_inBase`).
-/

import PicaShader.Instruction.Operands

namespace PicaShader

namespace Numeral

variable {base value bound : Nat}

/-! ### Digits -/

theorem digitValue?_digitChar : ∀ digit < 16,
    digitValue? (Nat.digitChar digit).toUInt8 = some digit := by
  decide

theorem isDigit_digitChar : ∀ digit < 10, isDigit (Nat.digitChar digit).toUInt8 = true := by
  decide

theorem isHexDigit_digitChar : ∀ digit < 16,
    Operands.isHexDigit (Nat.digitChar digit).toUInt8 = true := by
  decide

theorem inBase_of_lt (small : value < base) :
    inBase base value = [(Nat.digitChar value).toUInt8] := by
  rw [inBase, Nat.toDigits_of_lt_base small]
  rfl

/-- The last digit of a number is its remainder. -/
theorem inBase_of_le (two : 1 < base) (large : base ≤ value) :
    inBase base value
      = inBase base (value / base) ++ [(Nat.digitChar (value % base)).toUInt8] := by
  rw [inBase, Nat.toDigits_of_base_le two large, List.map_append]
  rfl

theorem inBase_ne_nil (base value : Nat) : inBase base value ≠ [] := by
  rw [inBase, ne_eq, List.map_eq_nil_iff]
  exact Nat.toDigits_ne_nil

/-- Every digit of a number is in a class that has all digits of the base. -/
theorem forall_mem_inBase (two : 1 < base) (inClass : UInt8 → Bool)
    (digits : ∀ digit < base, inClass (Nat.digitChar digit).toUInt8) (value : Nat) :
    ∀ byte ∈ inBase base value, inClass byte := by
  induction value using Nat.strongRecOn with
  | ind value ih =>
    by_cases small : value < base
    · rw [inBase_of_lt small]
      exact List.forall_mem_singleton.mpr (digits value small)
    · have large : base ≤ value := Nat.not_lt.mp small
      rw [inBase_of_le two large, List.forall_mem_append]
      refine ⟨ih _ (Nat.div_lt_self (by omega) two), List.forall_mem_singleton.mpr ?_⟩
      exact digits _ (Nat.mod_lt value (by omega))

/-! ### Reading back -/

theorem extend?_digitChar (upTo : base ≤ 16) {digit : Nat} (isDigit : digit < base)
    (small : value * base + digit < bound) :
    extend? base bound value (Nat.digitChar digit).toUInt8 = some (value * base + digit) := by
  rw [extend?, digitValue?_digitChar digit (by omega)]
  exact if_pos ⟨isDigit, small⟩

/-- The digits of a number spell it. -/
theorem foldlM_inBase (two : 1 < base) (upTo : base ≤ 16) (small : value < bound) :
    (inBase base value).foldlM (extend? base bound) 0 = some value := by
  induction value using Nat.strongRecOn with
  | ind value ih =>
    by_cases one : value < base
    · rw [inBase_of_lt one, List.foldlM_cons, extend?_digitChar upTo one (by omega), Nat.zero_mul,
        Nat.zero_add]
      rfl
    · have large : base ≤ value := Nat.not_lt.mp one
      have less : value / base < value := Nat.div_lt_self (by omega) two
      have whole : value / base * base + value % base = value := Nat.div_add_mod' value base
      rw [inBase_of_le two large, List.foldlM_append, ih _ less (by omega)]
      show (List.foldlM _ _ _ : Option Nat) = _
      rw [List.foldlM_cons, extend?_digitChar upTo (Nat.mod_lt value (by omega)) (by omega), whole]
      rfl

/-- **A number is read back from its digits.** -/
theorem read?_inBase (two : 1 < base) (upTo : base ≤ 16) (small : value < bound) :
    read? base bound (inBase base value) = some value := by
  have nonempty : (inBase base value).isEmpty = false := by
    rw [List.isEmpty_eq_false_iff]
    exact inBase_ne_nil base value
  rw [read?, nonempty]
  exact foldlM_inBase two upTo small

theorem isDigit_of_mem_decimal {byte : UInt8} (mem : byte ∈ decimal value) : isDigit byte :=
  forall_mem_inBase (by decide) isDigit isDigit_digitChar value byte mem

theorem isHexDigit_of_mem_hex {byte : UInt8} (mem : byte ∈ hex value) : Operands.isHexDigit byte :=
  forall_mem_inBase (by decide) Operands.isHexDigit isHexDigit_digitChar value byte mem

/-- Decimal digits are not led by `0x`. -/
theorem not_led_of_isDigit {text : Text} (digits : ∀ byte ∈ text, isDigit byte) (rest : Text) :
    text ≠ "0x" ++ rest := by
  rintro rfl
  have letter : 'x'.toUInt8 ∈ (Text.ofString "0x" ++ rest : Text) :=
    List.mem_append_left rest (by decide)
  exact absurd (digits _ letter) (by decide)

theorem split_decimal (value : Nat) : split (decimal value) = (10, decimal value) := by
  rw [split]
  cases found : Text.after? "0x" (decimal value) with
  | none => rfl
  | some rest =>
    exact absurd (Text.eq_append_of_after? found)
      (not_led_of_isDigit (fun _ mem => isDigit_of_mem_decimal mem) rest)

theorem readPlain?_decimal (small : value < 2 ^ 32) : readPlain? (decimal value) = some value := by
  rw [readPlain?, split_decimal]
  show read? 10 (2 ^ 32) (inBase 10 value) = some value
  exact read?_inBase (by decide) (by decide) small

theorem readPlain?_hex (small : value < 2 ^ 32) : readPlain? ("0x" ++ hex value) = some value := by
  rw [readPlain?, split, Text.after?_append]
  show read? 16 (2 ^ 32) (inBase 16 value) = some value
  exact read?_inBase (by decide) (by decide) small

end Numeral

end PicaShader
