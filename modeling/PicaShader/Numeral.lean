/-
**Numerals.**

Natural numbers are written in base ten or sixteen with lower-case digits and read back from a
non-empty run of digits below a bound. `Numeral.read?` takes no sign, blank or separator.
-/

import PicaShader.Text.LowerCase

namespace PicaShader

namespace Numeral

/-- A number in some base, most significant digit first. -/
def inBase (base value : Nat) : Text := (Nat.toDigits base value).map Char.toUInt8

/-- A number in decimal. -/
def decimal (value : Nat) : Text := inBase 10 value

/-- An integer in decimal, with a minus sign if it is negative. -/
def signed (value : Int) : Text :=
  if value < 0 then "-" ++ decimal value.natAbs else decimal value.natAbs

/-- A number in hexadecimal with lower-case digits. -/
def hex (value : Nat) : Text := inBase 16 value

/-- A number in hexadecimal with at least `width` digits. -/
def hexPadded (width value : Nat) : Text := Text.padLeft width '0'.toUInt8 (hex value)

/-- Whether a byte is a decimal digit. -/
def isDigit (byte : UInt8) : Bool := '0'.toUInt8 ≤ byte && byte ≤ '9'.toUInt8

/-- The value of a digit or letter: `0` to `9`, then `a` or `A` for ten and so on. -/
def digitValue? (byte : UInt8) : Option Nat :=
  if isDigit byte then some (byte - '0'.toUInt8).toNat
  else if 'a'.toUInt8 ≤ byte && byte ≤ 'z'.toUInt8 then some ((byte - 'a'.toUInt8).toNat + 10)
  else if 'A'.toUInt8 ≤ byte && byte ≤ 'Z'.toUInt8 then some ((byte - 'A'.toUInt8).toNat + 10)
  else none

/-- The number that `value` becomes with one more digit, if the byte is a digit of the base and
the number stays below the bound. -/
def extend? (base bound value : Nat) (byte : UInt8) : Option Nat :=
  match digitValue? byte with
  | some digit =>
    if digit < base ∧ value * base + digit < bound then some (value * base + digit) else none
  | none => none

/-- The number below `bound` that a text spells in a base. -/
def read? (base bound : Nat) (text : Text) : Option Nat :=
  if text.isEmpty then none else text.foldlM (extend? base bound) 0

/-- The 32-bit number that a text spells in a base. -/
def readWord? (base : Nat) (text : Text) : Option Nat := read? base (2 ^ 32) text

/-- A numeral without the lead `0x`, and its base. -/
def split (text : Text) : Nat × Text :=
  match Text.after? "0x" text with
  | some digits => (16, digits)
  | none => (10, text)

/-- The 32-bit number that a text spells in decimal, or in hexadecimal after a lead `0x`. -/
def readPlain? (text : Text) : Option Nat := readWord? (split text).1 (split text).2

/-- The same with capitals allowed in the lead and in the digits. -/
def readAnyCase? (text : Text) : Option Nat := readPlain? (Text.lower text)

/-- The integer that a text spells: a 32-bit number after at most one sign. -/
def readSigned? (text : Text) : Option Int :=
  let isSign (byte : UInt8) : Bool := byte == '+'.toUInt8 || byte == '-'.toUInt8
  match text.takeWhile isSign with
  | [] => (readAnyCase? text).map Int.ofNat
  | [sign] =>
    (readAnyCase? (text.drop 1)).map fun value =>
      if sign = '-'.toUInt8 then -(value : Int) else value
  | _ => none

end Numeral

end PicaShader
