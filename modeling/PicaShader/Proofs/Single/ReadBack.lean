/-
**Singles are read back from their text.**

The text of a single has its decimal digits in one of three layouts. In each of them the mantissa is
digits with a point somewhere, and the decimal that is read has the value of the one that was laid
out, whatever zeros were dropped (`Single.decimalMagnitude?_layOut`). The shortest decimal of a
magnitude is rounded to it, so that every finite single is read back from its text, negative zero
included (`Single.read?_toText`).
-/

import PicaShader.Proofs.Digits
import PicaShader.Proofs.Single.Rounding
import PicaShader.Proofs.Text.Plain
import PicaShader.Proofs.Word

namespace PicaShader

namespace Numeral

/-- The digits of a number that is not zero, by the power of ten of the first of them. -/
theorem length_decimal_bounds {value : Nat} (some : value ≠ 0) :
    10 ^ ((decimal value).length - 1) ≤ value ∧ value < 10 ^ (decimal value).length := by
  have length : (decimal value).length = (Nat.toDigits 10 value).length := List.length_map ..
  have positive : 0 < (Nat.toDigits 10 value).length := Nat.length_toDigits_pos
  rw [length]
  refine ⟨?_, (Nat.length_toDigits_le_iff (by decide) positive).mp (Nat.le_refl _)⟩
  by_cases one : (Nat.toDigits 10 value).length = 1
  · rw [one]
    exact Nat.pos_of_ne_zero some
  · have shorter := Nat.length_toDigits_le_iff (b := 10) (n := value) (by decide)
      (k := (Nat.toDigits 10 value).length - 1) (by omega)
    exact Nat.le_of_not_lt fun less => absurd (shorter.mpr less) (by omega)

end Numeral

namespace Single

open Numeral (isDigit decimal)

/-! ### Mantissa and exponent -/

/-- Digits behind a point; no digits take no point. -/
def pointed (fraction : Text) : Text := if fraction.isEmpty then [] else '.'.toUInt8 :: fraction

variable {whole fraction rest : Text}

/-- **A mantissa is split off** where the digits end. -/
theorem splitMantissa?_append (some : whole ≠ []) (digits : ∀ byte ∈ whole, isDigit byte)
    (places : ∀ byte ∈ fraction, isDigit byte)
    (ends : ∀ byte ∈ rest.head?, ¬ isDigit byte ∧ byte ≠ '.'.toUInt8) :
    splitMantissa? 10 (whole ++ (pointed fraction ++ rest))
      = .some (⟨whole ++ fraction, fraction.length⟩, rest) := by
  have nonempty : whole.isEmpty = false := List.isEmpty_eq_false_iff.mpr some
  have stopped : rest.takeWhile isDigit = [] ∧ rest.dropWhile isDigit = rest := by
    cases rest with
    | nil => exact ⟨rfl, rfl⟩
    | cons byte rest =>
      have outside := (ends byte rfl).1
      exact ⟨List.takeWhile_cons_of_neg outside, List.dropWhile_cons_of_neg outside⟩
  rw [splitMantissa?, Numeral.isDigitOf_ten, List.takeWhile_append_of_pos digits,
    List.dropWhile_append_of_pos digits]
  cases fraction with
  | nil =>
    rw [pointed, List.isEmpty_nil, if_pos rfl, List.nil_append, stopped.1, stopped.2,
      List.append_nil]
    cases rest with
    | nil => simp only [nonempty]; rfl
    | cons byte rest =>
      simp only [nonempty, if_neg (ends byte rfl).2]
      rfl
  | cons digit fraction =>
    have point : ¬ isDigit '.'.toUInt8 := by decide
    rw [pointed, List.isEmpty_cons, if_neg Bool.false_ne_true, List.cons_append,
      List.takeWhile_cons_of_neg point, List.dropWhile_cons_of_neg point, List.append_nil]
    simp only [if_true, nonempty, Bool.false_and, Bool.false_eq_true, if_false,
      List.takeWhile_append_of_pos places, List.dropWhile_append_of_pos places, stopped,
      List.append_nil]

/-- The digits of an exponent are counted up to five places. -/
theorem foldl_decimal {value : Nat} (small : value < 100000) :
    (decimal value).foldl (fun value byte =>
      if value < 10000 then value * 10 + (byte - '0'.toUInt8).toNat else value) 0 = value := by
  have digitValue : ∀ digit < 10, ((Nat.digitChar digit).toUInt8 - '0'.toUInt8).toNat = digit := by
    decide
  induction value using Nat.strongRecOn with
  | ind value ih =>
    by_cases one : value < 10
    · rw [decimal, Numeral.inBase_of_lt one, List.foldl_cons, List.foldl_nil, if_pos (by decide),
        digitValue value one, Nat.zero_mul, Nat.zero_add]
    · have rest := ih (value / 10) (by omega) (by omega)
      rw [decimal] at rest
      rw [decimal, Numeral.inBase_of_le (by decide) (Nat.le_of_not_lt one), List.foldl_append, rest,
        List.foldl_cons, List.foldl_nil, if_pos (by omega), digitValue _ (by omega)]
      exact Nat.div_add_mod' value 10

/-- A written exponent is read back. -/
theorem exponent?_padLeft {leading : Int} (small : leading.natAbs < 100000) (width : Nat) :
    exponent? ((if leading < 0 then '-'.toUInt8 else '+'.toUInt8)
      :: Text.padLeft width '0'.toUInt8 (decimal leading.natAbs)) = some leading := by
  have sign : Numeral.splitSign ((if leading < 0 then '-'.toUInt8 else '+'.toUInt8)
      :: Text.padLeft width '0'.toUInt8 (decimal leading.natAbs))
        = (decide (leading < 0), Text.padLeft width '0'.toUInt8 (decimal leading.natAbs)) := by
    by_cases negative : leading < 0
    · rw [if_pos negative, decide_eq_true negative]
      rfl
    · rw [if_neg negative, decide_eq_false negative]
      rfl
  have digits : ∀ byte ∈ Text.padLeft width '0'.toUInt8 (decimal leading.natAbs), isDigit byte := by
    intro byte mem
    rcases List.mem_append.mp mem with padded | written
    · exact isDigit_of_mem_zeros padded
    · exact Numeral.isDigit_of_mem_decimal written
  have zeros (count : Nat) : (Text.padding count '0'.toUInt8).foldl (fun value byte =>
      if value < 10000 then value * 10 + (byte - '0'.toUInt8).toNat else value) 0 = 0 := by
    induction count with
    | zero => rfl
    | succ count ih => exact ih
  have size : (Text.padLeft width '0'.toUInt8 (decimal leading.natAbs)).foldl (fun value byte =>
      if value < 10000 then value * 10 + (byte - '0'.toUInt8).toNat else value) 0
        = leading.natAbs := by
    rw [Text.padLeft, List.foldl_append, zeros, foldl_decimal small]
  have nonempty : (Text.padLeft width '0'.toUInt8 (decimal leading.natAbs)).isEmpty = false := by
    rw [List.isEmpty_eq_false_iff, Text.padLeft]
    exact List.append_ne_nil_of_right_ne_nil _ (Numeral.inBase_ne_nil 10 _)
  have all : (Text.padLeft width '0'.toUInt8 (decimal leading.natAbs)).all isDigit :=
    List.all_eq_true.mpr digits
  simp only [exponent?, sign, nonempty, all, size, decide_eq_true_eq]
  rw [if_neg (by decide)]
  by_cases negative : leading < 0
  · rw [if_pos negative]
    exact congrArg some (by omega)
  · rw [if_neg negative]
    exact congrArg some (by omega)

theorem scaled?_eq (value : Nat) (exponent : Int) :
    scaled? value 10 exponent = Decimal.rounded? ⟨value, exponent⟩ := by
  by_cases zero : value = 0
  · have nothing (denominator : Nat) (positive : 0 < denominator) :
        magnitude? 0 denominator = some 0 := by
      have whole := nearest_mul_self 0 positive
      rw [Nat.zero_mul] at whole
      simp only [magnitude?, Nat.zero_mul, Nat.zero_div, Nat.log2_zero, Nat.zero_sub, Nat.pow_zero,
        Nat.mul_one, whole]
      rfl
    cases exponent with
    | ofNat size =>
      rw [scaled?, if_pos zero, zero]
      show some 0 = magnitude? (0 * 10 ^ size) 1
      rw [Nat.zero_mul, nothing 1 Nat.one_pos]
    | negSucc size =>
      rw [scaled?, if_pos zero, zero]
      exact (nothing _ (Nat.pow_pos (by decide))).symm
  · cases exponent with
    | ofNat size => exact if_neg zero
    | negSucc size => exact if_neg zero

/-- A mantissa alone is a decimal. -/
theorem decimalMagnitude?_append (some : whole ≠ []) (digits : ∀ byte ∈ whole, isDigit byte)
    (places : ∀ byte ∈ fraction, isDigit byte) :
    decimalMagnitude? (whole ++ pointed fraction)
      = Decimal.rounded? ⟨digitsValue 10 (whole ++ fraction), -fraction.length⟩ := by
  have split : splitMantissa? 10 (whole ++ (pointed fraction ++ [])) = _ :=
    splitMantissa?_append some digits places nofun
  rw [List.append_nil] at split
  rw [decimalMagnitude?, split]
  exact scaled?_eq _ _

/-- A mantissa with an exponent is a decimal. -/
theorem decimalMagnitude?_exponent (some : whole ≠ []) (digits : ∀ byte ∈ whole, isDigit byte)
    (places : ∀ byte ∈ fraction, isDigit byte) {exponent : Int}
    (found : exponent? rest = .some exponent) :
    decimalMagnitude? (whole ++ (pointed fraction ++ 'e'.toUInt8 :: rest))
      = Decimal.rounded? ⟨digitsValue 10 (whole ++ fraction), exponent - fraction.length⟩ := by
  have split : splitMantissa? 10 (whole ++ (pointed fraction ++ 'e'.toUInt8 :: rest)) = _ :=
    splitMantissa?_append some digits places fun byte first =>
      Option.some.inj first ▸ ⟨by decide, by decide⟩
  rw [decimalMagnitude?, split]
  show (exponent? rest >>= _) = _
  rw [found]
  exact scaled?_eq _ _

/-! ### Layouts -/

/-- Zeros at the end of a number can be left out, if its exponent makes up for them. -/
theorem exists_significant (number : Decimal) (some : number.digits ≠ 0) :
    ∃ digits, digits = Text.dropTrailing (· == '0'.toUInt8) (decimal number.digits)
      ∧ digits ≠ [] ∧ (∀ byte ∈ digits, isDigit byte)
      ∧ number.rounded? = Decimal.rounded? ⟨digitsValue 10 digits,
        number.exponent + (decimal number.digits).length - digits.length⟩ := by
  obtain ⟨tail, split, zeros⟩ :=
    Text.exists_of_dropTrailing (· == '0'.toUInt8) (decimal number.digits)
  generalize Text.dropTrailing (· == '0'.toUInt8) (decimal number.digits) = digits at split
  have padding : tail = Text.padding tail.length '0'.toUInt8 :=
    List.eq_replicate_of_mem fun byte mem => beq_iff_eq.mp (zeros byte mem)
  have value : number.digits = digitsValue 10 digits * 10 ^ tail.length := by
    have whole := digitsValue_decimal number.digits
    rwa [split, digitsValue_append, padding, digitsValue_zeros, Nat.add_zero, ← padding,
      eq_comm] at whole
  have length : (decimal number.digits).length = digits.length + tail.length := by
    rw [split, List.length_append]
  refine ⟨digits, rfl, ?_, fun byte mem => ?_, ?_⟩
  · rintro rfl
    rw [value] at some
    exact some (Nat.zero_mul _)
  · have inWhole : byte ∈ decimal number.digits := by
      rw [split]
      exact List.mem_append_left tail mem
    exact Numeral.isDigit_of_mem_decimal inWhole
  · have exponent : number.exponent + (decimal number.digits).length - digits.length
        = number.exponent + tail.length := by omega
    rw [exponent, ← Decimal.rounded?_mul_pow, ← value]

/-- One digit, a point, the others, and an exponent. -/
theorem decimalMagnitude?_scientific {digits : Text} (some : digits ≠ [])
    (isDigits : ∀ byte ∈ digits, isDigit byte) {leading : Int} (small : leading.natAbs < 100000)
    (width : Nat) :
    decimalMagnitude? (digits.take 1 ++ pointed (digits.drop 1)
        ++ (if leading < 0 then Text.ofString "e-" else Text.ofString "e+")
        ++ Text.padLeft width '0'.toUInt8 (decimal leading.natAbs))
      = Decimal.rounded? ⟨digitsValue 10 digits, leading + 1 - digits.length⟩ := by
  have mark : (if leading < 0 then Text.ofString "e-" else Text.ofString "e+")
      = 'e'.toUInt8 :: [if leading < 0 then '-'.toUInt8 else '+'.toUInt8] := by
    by_cases negative : leading < 0
    · rw [if_pos negative, if_pos negative]
      rfl
    · rw [if_neg negative, if_neg negative]
      rfl
  have head : digits.take 1 ≠ [] := by simpa using some
  have length : 0 < digits.length := List.length_pos_iff.mpr some
  have places : leading - (digits.drop 1).length = leading + 1 - digits.length := by
    rw [List.length_drop]
    omega
  rw [mark, List.append_assoc, List.append_assoc, List.cons_append, List.singleton_append,
    decimalMagnitude?_exponent head (fun byte mem => isDigits byte (List.mem_of_mem_take mem))
      (fun byte mem => isDigits byte (List.mem_of_mem_drop mem)) (exponent?_padLeft small width),
    List.take_append_drop, places]

/-- Zeros behind the point, then the digits. -/
theorem decimalMagnitude?_fraction {digits : Text} (some : digits ≠ [])
    (isDigits : ∀ byte ∈ digits, isDigit byte) {leading : Int} (negative : leading < 0) :
    decimalMagnitude? ("0." ++ Text.padding (leading.natAbs - 1) '0'.toUInt8 ++ digits)
      = Decimal.rounded? ⟨digitsValue 10 digits, leading + 1 - digits.length⟩ := by
  have text : "0." ++ Text.padding (leading.natAbs - 1) '0'.toUInt8 ++ digits
      = Text.padding 1 '0'.toUInt8
        ++ pointed (Text.padding (leading.natAbs - 1) '0'.toUInt8 ++ digits) := by
    have nonempty : (Text.padding (leading.natAbs - 1) '0'.toUInt8 ++ digits).isEmpty = false :=
      List.isEmpty_eq_false_iff.mpr (List.append_ne_nil_of_right_ne_nil _ some)
    rw [pointed, nonempty, List.append_assoc]
    rfl
  have places : ∀ byte ∈ Text.padding (leading.natAbs - 1) '0'.toUInt8 ++ digits, isDigit byte := by
    intro byte mem
    rcases List.mem_append.mp mem with zero | digit
    · exact isDigit_of_mem_zeros zero
    · exact isDigits byte digit
  have value : digitsValue 10 (Text.padding 1 '0'.toUInt8
      ++ (Text.padding (leading.natAbs - 1) '0'.toUInt8 ++ digits)) = digitsValue 10 digits := by
    rw [digitsValue_append, digitsValue_append, digitsValue_zeros, digitsValue_zeros, Nat.zero_mul,
      Nat.zero_mul, Nat.zero_add, Nat.zero_add]
  have exponent : -((Text.padding (leading.natAbs - 1) '0'.toUInt8 ++ digits).length : Int)
      = leading + 1 - digits.length := by
    rw [List.length_append, Text.length_padding]
    omega
  rw [text, decimalMagnitude?_append (by decide) (fun _ mem => isDigit_of_mem_zeros mem) places,
    value, exponent]

/-- Digits with a point among them, or with zeros after them. -/
theorem decimalMagnitude?_whole {digits : Text} (some : digits ≠ [])
    (isDigits : ∀ byte ∈ digits, isDigit byte) (before : Nat) (ahead : 0 < before) :
    decimalMagnitude? (digits.take before ++ Text.padding (before - digits.length) '0'.toUInt8
        ++ pointed (digits.drop before))
      = Decimal.rounded? ⟨digitsValue 10 digits, before - digits.length⟩ := by
  have whole : ∀ byte ∈ digits.take before
      ++ Text.padding (before - digits.length) '0'.toUInt8, isDigit byte := by
    intro byte mem
    rcases List.mem_append.mp mem with digit | zero
    · exact isDigits byte (List.mem_of_mem_take digit)
    · exact isDigit_of_mem_zeros zero
  have head : digits.take before ++ Text.padding (before - digits.length) '0'.toUInt8 ≠ [] := by
    refine List.append_ne_nil_of_left_ne_nil ?_ _
    simpa [Nat.ne_of_gt ahead] using some
  rw [decimalMagnitude?_append head whole fun byte mem => isDigits byte (List.mem_of_mem_drop mem)]
  by_cases short : digits.length ≤ before
  · have exponent : (0 : Int) + (before - digits.length : Nat) = before - digits.length := by omega
    rw [List.take_of_length_le short, List.drop_of_length_le short, List.append_nil,
      digitsValue_append, digitsValue_zeros, Text.padding, List.length_replicate, Nat.add_zero,
      Decimal.rounded?_mul_pow, List.length_nil]
    exact congrArg (fun exponent => Decimal.rounded? ⟨digitsValue 10 digits, exponent⟩) exponent
  · have none : before - digits.length = 0 := by omega
    have exponent : -((digits.drop before).length : Int) = before - digits.length := by
      rw [List.length_drop]
      omega
    rw [none, Text.padding, List.replicate_zero, List.append_nil, List.take_append_drop, exponent]

/-- **What is laid out is read as a decimal of the same value**, in every layout. -/
theorem decimalMagnitude?_layOut (layout : Decimal.Layout) (number : Decimal)
    (some : number.digits ≠ 0)
    (small : (number.exponent + (decimal number.digits).length - 1).natAbs < 100000) :
    decimalMagnitude? (layOut layout number) = number.rounded? := by
  obtain ⟨digits, shape, nonempty, isDigits, value⟩ := exists_significant number some
  rw [value]
  simp only [layOut, ← shape]
  generalize number.exponent + (decimal number.digits).length = past at small ⊢
  have leading : past - 1 + 1 - digits.length = past - digits.length := by omega
  split
  · rw [← leading]
    exact decimalMagnitude?_scientific nonempty isDigits small _
  · split
    · next negative =>
      rw [← leading]
      exact decimalMagnitude?_fraction nonempty isDigits negative
    · have before : past - digits.length = ((past - 1).toNat + 1 : Nat) - digits.length := by omega
      rw [before]
      exact decimalMagnitude?_whole nonempty isDigits _ (Nat.succ_pos _)

/-! ### Singles -/

/-- A byte that numbers are written with. -/
def isNumberByte (byte : UInt8) : Bool :=
  isDigit byte || byte == '.'.toUInt8 || byte == 'e'.toUInt8 || byte == '+'.toUInt8
    || byte == '-'.toUInt8

theorem isNumberByte_of_isDigit {byte : UInt8} (digit : isDigit byte) : isNumberByte byte := by
  simp [isNumberByte, digit]

theorem isNumberByte_of_mem_pointed (places : ∀ byte ∈ fraction, isDigit byte) :
    ∀ byte ∈ pointed fraction, isNumberByte byte := by
  intro byte mem
  unfold pointed at mem
  split at mem
  · cases mem
  · rcases List.mem_cons.mp mem with rfl | digit
    · decide
    · exact isNumberByte_of_isDigit (places byte digit)

/-- A number is laid out with digits, points and exponents only, and starts with a digit. -/
theorem isNumberByte_of_mem_layOut (layout : Decimal.Layout) {number : Decimal}
    (some : number.digits ≠ 0) :
    (layOut layout number).head?.any isDigit
      ∧ ∀ byte ∈ layOut layout number, isNumberByte byte := by
  obtain ⟨digits, shape, nonempty, isDigits, -⟩ := exists_significant number some
  obtain ⟨first, rest, rfl⟩ := List.exists_cons_of_ne_nil nonempty
  have isFirst := isDigits first List.mem_cons_self
  have part {text : Text} (within : ∀ byte ∈ text, byte ∈ first :: rest) :
      ∀ byte ∈ text, isNumberByte byte := fun byte mem =>
    isNumberByte_of_isDigit (isDigits byte (within byte mem))
  have fraction (count : Nat) : ∀ byte ∈ pointed ((first :: rest).drop count), isNumberByte byte :=
    isNumberByte_of_mem_pointed fun byte mem => isDigits byte (List.mem_of_mem_drop mem)
  have zeros (count : Nat) : ∀ byte ∈ Text.padding count '0'.toUInt8, isNumberByte byte :=
    fun byte mem => isNumberByte_of_isDigit (isDigit_of_mem_zeros mem)
  simp only [layOut, ← shape]
  split
  · refine ⟨by simp [isFirst], ?_⟩
    simp only [Text.padLeft, List.forall_mem_append]
    refine ⟨⟨⟨part fun _ => List.mem_of_mem_take, fraction 1⟩, ?_⟩, zeros _, fun byte mem => ?_⟩
    · split
      · exact Text.forall_mem_of_all (by decide)
      · exact Text.forall_mem_of_all (by decide)
    · exact isNumberByte_of_isDigit (Numeral.isDigit_of_mem_decimal mem)
  · split
    · refine ⟨rfl, ?_⟩
      simp only [List.forall_mem_append]
      exact ⟨⟨Text.forall_mem_of_all (by decide), zeros _⟩, part fun _ => id⟩
    · refine ⟨by simp [isFirst], ?_⟩
      simp only [List.forall_mem_append]
      exact ⟨⟨part fun _ => List.mem_of_mem_take, zeros _⟩, fraction _⟩

theorem lead_of_isNumberByte : ∀ byte, isNumberByte byte →
    (Char.ofNat byte.toNat).toLower ∉ ['x', 'o', 'b', 'n', 'i'] ∧ byte ≠ '_'.toUInt8 := by
  apply Text.forall_byte
  decide +kernel

/-- A number is not a word. -/
theorem sameLetters_of_isNumberByte {text : Text} (some : text ≠ [])
    (bytes : ∀ byte ∈ text, isNumberByte byte) {letter : UInt8} (letters : Text)
    (known : (Char.ofNat letter.toNat).toLower ∈ ['x', 'o', 'b', 'n', 'i']) :
    sameLetters text (letter :: letters) = false := by
  obtain ⟨byte, rest, rfl⟩ := List.exists_cons_of_ne_nil some
  have outside := (lead_of_isNumberByte byte (bytes byte List.mem_cons_self)).1
  have differs : (Char.ofNat byte.toNat).toLower ≠ (Char.ofNat letter.toNat).toLower :=
    fun same => outside (same ▸ known)
  simp [sameLetters, differs]

/-- No number in digits has another base than ten. -/
theorem afterLead?_of_isNumberByte {text : Text} (bytes : ∀ byte ∈ text, isNumberByte byte) :
    Numeral.afterLead? text = none := by
  match text with
  | [] => rfl
  | [byte] => rfl
  | zero :: letter :: rest =>
    have outside := (lead_of_isNumberByte letter (bytes letter (by simp))).1
    simp only [List.mem_cons, not_or] at outside
    simp [Numeral.afterLead?, outside]

/-- The sign of a number in text. -/
def signText (negative : Bool) : Text := if negative then "-" else ""

theorem isNumberByte_of_mem_signText {negative : Bool} :
    ∀ byte ∈ signText negative, isNumberByte byte := by
  cases negative with
  | true => exact Text.forall_mem_of_all (by decide)
  | false => exact Text.forall_mem_of_all (by decide)

/-- The sign of a number is split from it, and a digit is no sign. -/
theorem splitSign_signText (negative : Bool) {first : UInt8} (digit : isDigit first) (rest : Text) :
    Numeral.splitSign (signText negative ++ first :: rest) = (negative, first :: rest) := by
  cases negative with
  | true => rfl
  | false =>
    have unsigned : ∀ byte, isDigit byte → byte ≠ '-'.toUInt8 ∧ byte ≠ '+'.toUInt8 := by
      apply Text.forall_byte
      decide +kernel
    show Numeral.splitSign (first :: rest) = _
    rw [Numeral.splitSign, if_neg (unsigned first digit).1, if_neg (unsigned first digit).2]

/-- **A signed number is read by its digits.** -/
theorem read?_sign_append (negative : Bool) {unsigned : Text} (starts : unsigned.head?.any isDigit)
    (bytes : ∀ byte ∈ unsigned, isNumberByte byte) :
    read? (signText negative ++ unsigned)
      = (decimalMagnitude? unsigned).map (ofMagnitude negative) := by
  obtain ⟨first, rest, rfl⟩ : ∃ first rest, unsigned = first :: rest := by
    cases unsigned with
    | nil => cases starts
    | cons first rest => exact ⟨first, rest, rfl⟩
  have all : ∀ byte ∈ signText negative ++ first :: rest, isNumberByte byte :=
    List.forall_mem_append.mpr ⟨isNumberByte_of_mem_signText, bytes⟩
  have some : (signText negative ++ first :: rest) ≠ [] :=
    List.append_ne_nil_of_right_ne_nil _ (List.cons_ne_nil _ _)
  have sign := splitSign_signText negative (show isDigit first from starts) rest
  generalize (signText negative ++ first :: rest) = text at all some sign ⊢
  have noUnderscore : text.contains '_'.toUInt8 = false := by
    rw [List.contains_eq_mem, decide_eq_false_iff_not]
    exact fun mem => (lead_of_isNumberByte _ (all _ mem)).2 rfl
  have plain : text.filter (· != '_'.toUInt8) = text := by
    rw [List.filter_eq_self]
    exact fun byte mem => bne_iff_ne.mpr (lead_of_isNumberByte byte (all byte mem)).2
  have notNan : sameLetters text "nan" = false := sameLetters_of_isNumberByte some all _ (by decide)
  have notInf : sameLetters (first :: rest) "inf" = false :=
    sameLetters_of_isNumberByte (List.cons_ne_nil _ _) bytes _ (by decide)
  have notInfinity : sameLetters (first :: rest) "infinity" = false :=
    sameLetters_of_isNumberByte (List.cons_ne_nil _ _) bytes _ (by decide)
  have magnitude : unsignedMagnitude? (first :: rest) = decimalMagnitude? (first :: rest) := by
    rw [unsignedMagnitude?, notInf, notInfinity, afterLead?_of_isNumberByte bytes]
    rfl
  simp only [read?, noUnderscore, plain, notNan, sign, magnitude]
  rfl

theorem ofMagnitude_magnitude (single : Word) :
    ofMagnitude (isNegative single) (magnitude single) = single := by
  have low : magnitude single = single.toNat % 2 ^ 31 := by
    rw [magnitude, Word.slice_toNat single 0 (by decide), Nat.pow_zero, Nat.div_one]
  have bound := single.isLt
  rw [ofMagnitude, isNegative, BitVec.msb_eq_decide, low]
  apply BitVec.eq_of_toNat_eq
  rw [BitVec.toNat_ofNat]
  split
  · next sign =>
    have sign := of_decide_eq_true sign
    omega
  · next sign =>
    have sign := of_decide_eq_false (Bool.eq_false_iff.mpr sign)
    omega

/-- A decimal that is rounded to a magnitude is read from every layout as that magnitude. -/
theorem decimalMagnitude?_of_rounded? (layout : Decimal.Layout) {number : Decimal} {magnitude : Nat}
    (some : magnitude ≠ 0) (rounded : number.rounded? = .some magnitude) :
    number.digits ≠ 0 ∧ decimalMagnitude? (layOut layout number) = .some magnitude := by
  obtain ⟨digits, exponent⟩ := number
  have nonzero : digits ≠ 0 := by
    intro none
    rw [← scaled?_eq, scaled?.eq_def, if_pos none] at rounded
    exact some (Option.some.inj rounded).symm
  obtain ⟨atLeast, below⟩ := Numeral.length_decimal_bounds nonzero
  have length : 0 < (decimal digits).length :=
    List.length_pos_iff.mpr (Numeral.inBase_ne_nil 10 digits)
  rw [← Nat.sub_add_cancel length] at below
  have bounds := Decimal.leading_bounds atLeast below some rounded
  have small : (exponent + (decimal digits).length - 1).natAbs < 100000 := by omega
  refine ⟨nonzero, ?_⟩
  rw [decimalMagnitude?_layOut layout ⟨digits, exponent⟩ nonzero small, rounded]

/-- The text of a finite single: a sign and a number that is read as its magnitude. -/
theorem exists_unsigned_of_finite {single : Word} (finite : magnitude single < infinity) :
    ∃ unsigned : Text, toText single = signText (isNegative single) ++ unsigned
      ∧ unsigned.head?.any isDigit ∧ (∀ byte ∈ unsigned, isNumberByte byte)
      ∧ decimalMagnitude? unsigned = some (magnitude single) := by
  have notInfinite : ¬ infinity < magnitude single := Nat.not_lt.mpr (Nat.le_of_lt finite)
  by_cases zero : magnitude single = 0
  · refine ⟨"0", ?_, by decide, Text.forall_mem_of_all (by decide), ?_⟩
    · rw [toText, if_neg (Nat.ne_of_lt finite), if_neg notInfinite, if_pos zero]
      rfl
    · rw [zero]
      decide
  · obtain ⟨digits, rounded⟩ :=
      decimalMagnitude?_of_rounded? layout zero (rounded?_shortest finite)
    have written := isNumberByte_of_mem_layOut layout digits
    refine ⟨layOut layout (shortest (magnitude single)), ?_, written.1, written.2, rounded⟩
    rw [toText, if_neg (Nat.ne_of_lt finite), if_neg notInfinite, if_neg zero]
    rfl

/-- **A finite single is read back from its text.** -/
theorem read?_toText {single : Word} (finite : magnitude single < infinity) :
    read? (toText single) = some single := by
  obtain ⟨unsigned, text, starts, bytes, rounded⟩ := exists_unsigned_of_finite finite
  rw [text, read?_sign_append _ starts bytes, rounded, Option.map_some, ofMagnitude_magnitude]

end Single

end PicaShader
