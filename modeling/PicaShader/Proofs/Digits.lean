/-
**Numerals and their values.**

The digits of a base have a value (`Single.digitsValue`), and a numeral spells a number in decimal
digits or, after `0x`, in hexadecimal ones (`Numeral.Spells`). The readers accept exactly the
numerals whose value is below the bound (`Numeral.read?_eq_some_iff`,
`Numeral.readPlain?_eq_some_iff`): an intermediate value is never above the last one, so that none
of them is refused on the way.
-/

import PicaShader.Proofs.Numeral
import PicaShader.Proofs.Text.Plain
import PicaShader.Single.Reading
import Mathlib.Data.List.Induction

namespace PicaShader

namespace Single

open Numeral (isDigit decimal)

theorem digitsValue_concat (base : Nat) (text : Text) (byte : UInt8) :
    digitsValue base (text ++ [byte])
      = digitsValue base text * base + (Numeral.digitValue? byte).getD 0 := by
  rw [digitsValue, List.foldl_append]
  rfl

theorem digitsValue_append (base : Nat) (first second : Text) :
    digitsValue base (first ++ second)
      = digitsValue base first * base ^ second.length + digitsValue base second := by
  induction second generalizing first with
  | nil => rw [List.append_nil, List.length_nil, Nat.pow_zero, Nat.mul_one]; rfl
  | cons byte rest ih =>
    have alone : digitsValue base (byte :: rest)
        = (Numeral.digitValue? byte).getD 0 * base ^ rest.length + digitsValue base rest := by
      rw [← List.singleton_append, ih, ← List.nil_append [byte], digitsValue_concat]
      simp [digitsValue]
    rw [← List.singleton_append, ← List.append_assoc, ih, digitsValue_concat, Nat.add_mul,
      List.singleton_append, alone, List.length_cons, Nat.pow_succ', Nat.mul_assoc, Nat.add_assoc]

/-- The digits of a number have its value. -/
theorem digitsValue_decimal (value : Nat) : digitsValue 10 (decimal value) = value := by
  induction value using Nat.strongRecOn with
  | ind value ih =>
    by_cases small : value < 10
    · rw [decimal, Numeral.inBase_of_lt small]
      simp [digitsValue, Numeral.digitValue?_digitChar value (by omega)]
    · have digit := Numeral.digitValue?_digitChar (value % 10) (by omega)
      have rest := ih (value / 10) (by omega)
      rw [decimal] at rest
      rw [decimal, Numeral.inBase_of_le (by decide) (Nat.le_of_not_lt small), digitsValue_concat,
        rest, digit]
      exact Nat.div_add_mod' value 10

theorem digitsValue_zeros (base count : Nat) :
    digitsValue base (Text.padding count '0'.toUInt8) = 0 := by
  induction count with
  | zero => rfl
  | succ count ih =>
    have zero : (Numeral.digitValue? '0'.toUInt8).getD 0 = 0 := by decide
    rw [Text.padding, List.replicate_succ', digitsValue_concat, ← Text.padding, ih, zero,
      Nat.zero_mul]

theorem isDigit_of_mem_zeros {count : Nat} {byte : UInt8}
    (mem : byte ∈ Text.padding count '0'.toUInt8) : isDigit byte := by
  rw [List.eq_of_mem_replicate mem]
  decide

end Single

namespace Numeral

open Single (digitsValue digitsValue_concat)

theorem isDigitOf_ten : isDigitOf 10 = isDigit := by
  funext byte
  revert byte
  apply Text.forall_byte
  decide +kernel

variable {base value bound : Nat} {text : Text}

theorem isDigitOf_iff {byte : UInt8} :
    isDigitOf base byte ↔ ∃ digit, digitValue? byte = some digit ∧ digit < base := by
  unfold isDigitOf
  cases digitValue? byte <;> simp

theorem extend?_eq_some_iff {byte : UInt8} {next : Nat} :
    extend? base bound value byte = some next ↔ isDigitOf base byte
      ∧ value * base + (digitValue? byte).getD 0 = next ∧ next < bound := by
  unfold extend? isDigitOf
  cases digitValue? byte with
  | none => simp
  | some digit =>
    simp only [Option.ite_none_right_eq_some, Option.some.injEq, Option.getD_some,
      decide_eq_true_eq]
    constructor
    · rintro ⟨⟨isDigit, small⟩, rfl⟩
      exact ⟨isDigit, rfl, small⟩
    · rintro ⟨isDigit, rfl, small⟩
      exact ⟨⟨isDigit, small⟩, rfl⟩

/-- A run of digits is read to its value. -/
theorem foldlM_extend?_eq_some_iff : text.foldlM (extend? base bound) 0 = some value
    ↔ (∀ byte ∈ text, isDigitOf base byte) ∧ digitsValue base text = value
      ∧ (text ≠ [] → value < bound) := by
  induction text using List.reverseRecOn generalizing value with
  | nil => simp [digitsValue]
  | append_singleton text byte ih =>
    have last (before : Nat) : [byte].foldlM (extend? base bound) before
        = extend? base bound before byte := by
      simp
    rw [List.foldlM_append, Option.bind_eq_bind, Option.bind_eq_some_iff]
    simp only [last, ih, extend?_eq_some_iff, List.forall_mem_append, List.forall_mem_singleton,
      digitsValue_concat]
    constructor
    · rintro ⟨before, ⟨digits, rfl, -⟩, digit, same, small⟩
      exact ⟨⟨digits, digit⟩, same, fun _ => small⟩
    · rintro ⟨⟨digits, digit⟩, same, small⟩
      refine ⟨_, ⟨digits, rfl, fun _ => ?_⟩, digit, same, small (by simp)⟩
      -- The value before the last digit is not above the value with it.
      obtain ⟨_, -, positive⟩ := isDigitOf_iff.mp digit
      have below : digitsValue base text ≤ digitsValue base text * base :=
        Nat.le_mul_of_pos_right _ (by omega)
      have bounded := small (by simp)
      omega

/-- A text is digits of a base with a value. -/
structure Digits (base value : Nat) (text : Text) : Prop where
  nonempty : text ≠ []
  bytes : ∀ byte ∈ text, isDigitOf base byte
  spelled : digitsValue base text = value

/-- **The numbers that are read in a base.** -/
theorem read?_eq_some_iff :
    read? base bound text = some value ↔ Digits base value text ∧ value < bound := by
  unfold read?
  simp only [Option.ite_none_left_eq_some, List.isEmpty_iff, foldlM_extend?_eq_some_iff]
  constructor
  · rintro ⟨nonempty, bytes, spelled, small⟩
    exact ⟨⟨nonempty, bytes, spelled⟩, small nonempty⟩
  · rintro ⟨⟨nonempty, bytes, spelled⟩, small⟩
    exact ⟨nonempty, bytes, spelled, fun _ => small⟩

/-- **A numeral spells a number:** in decimal digits, or in hexadecimal ones after `0x`. -/
inductive Spells (value : Nat) : Text → Prop where
  | decimal {digits : Text} (spelled : Digits 10 value digits) : Spells value digits
  | hex {digits : Text} (spelled : Digits 16 value digits) : Spells value ("0x" ++ digits)

theorem Digits.not_led (digits : Digits 10 value text) (rest : Text) : text ≠ "0x" ++ rest :=
  not_led_of_isDigit (by rw [← isDigitOf_ten]; exact digits.bytes) rest

/-- A numeral spells one number. -/
theorem Spells.unique {other : Nat} (spells : Spells value text) (spellsOther : Spells other text) :
    value = other := by
  generalize same : text = copy at spellsOther
  cases spells with
  | decimal digits =>
    cases spellsOther with
    | decimal others =>
      subst same
      exact digits.spelled.symm.trans others.spelled
    | hex others => exact absurd same (digits.not_led _)
  | hex digits =>
    cases spellsOther with
    | decimal others => exact absurd same.symm (others.not_led _)
    | hex others =>
      obtain rfl := List.append_cancel_left same
      exact digits.spelled.symm.trans others.spelled

/-- **The numerals that are read.** -/
theorem readPlain?_eq_some_iff :
    readPlain? text = some value ↔ Spells value text ∧ value < 2 ^ 32 := by
  unfold readPlain? readWord? split
  cases lead : Text.after? "0x" text with
  | some digits =>
    obtain rfl := Text.eq_append_of_after? lead
    rw [read?_eq_some_iff]
    refine and_congr_left fun _ => ⟨.hex, fun spells => ?_⟩
    generalize same : (Text.ofString "0x" ++ digits : Text) = text at spells
    cases spells with
    | decimal others => exact absurd same.symm (others.not_led _)
    | hex others =>
      obtain rfl := List.append_cancel_left same
      exact others
  | none =>
    rw [read?_eq_some_iff]
    refine and_congr_left fun _ => ⟨.decimal, fun spells => ?_⟩
    cases spells with
    | decimal digits => exact digits
    | hex =>
      rw [Text.after?_append] at lead
      cases lead

end Numeral

end PicaShader
